import Packetry.Proofs.Sentinels
import Mathlib.Data.List.Basic

/-!
# Where the sentinels stand

The scan for the sentinels of a region keeps one number for each of the two and stops at the first
line that is a sentinel it has met before. Here its answer is read off two lists, the numbers of
all lines that are the begin sentinel and the numbers of all lines that are the end sentinel
(`Packetry.Region.verdict`, `Packetry.Region.sentinelsFrom_eq_verdict`), and with it the answer of
`Packetry.Document.locate` for every text and every name of a region.

A region is found if and only if each list has one number and the begin sentinel comes first; the
parts of the text are then whole lines of it (`Packetry.Region.Location.IsBetween`). If it is not
found, the two lists also say what is reported (`Packetry.Region.Blames`). Both sentinels may stand
twice, and then the second numbers decide: the sentinel whose second line comes first is the one
that the scan stops at.
-/

namespace Packetry

open Text

namespace Region

variable {r : Region} {text : List Char}

/-! ### The numbers of the sentinel lines -/

/-- The numbers of the lines that are a marker, in order and counted from a number on. -/
def positionsFrom (marker : String) (number : Nat) (all : List (List Char)) : List Nat :=
  all.findIdxs (isMarkerLine marker) number

/-- The numbers of the lines of a text that are the begin sentinel. -/
def beginPositions (r : Region) (text : List Char) : List Nat :=
  positionsFrom r.beginMarker 1 (lines text)

/-- The numbers of the lines of a text that are the end sentinel. -/
def endPositions (r : Region) (text : List Char) : List Nat :=
  positionsFrom r.endMarker 1 (lines text)

theorem positionsFrom_cons (marker : String) (number : Nat) (line : List Char)
    (rest : List (List Char)) :
    positionsFrom marker number (line :: rest) =
      if isMarkerLine marker line then number :: positionsFrom marker (number + 1) rest
      else positionsFrom marker (number + 1) rest :=
  List.findIdxs_cons

/-- The lines are counted from the number on. -/
theorem le_of_mem_positionsFrom {marker : String} {number n : Nat} {all : List (List Char)}
    (h : n ∈ positionsFrom marker number all) : number ≤ n :=
  List.ge_of_mem_findIdxs n h

/-- A line with a number is among the lines. -/
theorem lt_of_mem_positionsFrom {marker : String} {number n : Nat} {all : List (List Char)}
    (h : n ∈ positionsFrom marker number all) : n < all.length + number :=
  List.lt_add_of_mem_findIdxs n h

/-- The second of some numbers, the first of which may have been met before, is not behind them
all. -/
theorem lt_of_second {marker : String} {met : Option Nat} {number n : Nat} {all : List (List Char)}
    (h : (met.toList ++ positionsFrom marker (number + 1) all)[1]? = some n) : number < n := by
  suffices hmem : n ∈ positionsFrom marker (number + 1) all from le_of_mem_positionsFrom hmem
  cases met with
  | none => exact List.mem_of_getElem? h
  | some first => exact List.mem_of_getElem? (i := 0) h

/-! ### What the scan makes of them -/

/-- What a scan finds, by the numbers of all lines that are the begin sentinel and the numbers of
all lines that are the end sentinel. -/
def verdict (r : Region) : List Nat → List Nat → Except Fault Sentinels
  | first :: second :: _, ends =>
    match ends with
    | first' :: second' :: _ =>
      if second < second' then .error (.duplicateBegin r.beginMarker first second)
      else .error (.duplicateEnd r.endMarker first' second')
    | _ => .error (.duplicateBegin r.beginMarker first second)
  | _, first :: second :: _ => .error (.duplicateEnd r.endMarker first second)
  | begins, ends => .ok ⟨begins.head?, ends.head?⟩

/-- A second begin sentinel is reported if there is no second end sentinel before it. -/
theorem verdict_duplicateBegin {first second : Nat} {begins ends : List Nat}
    (h : ∀ n, ends[1]? = some n → second < n) :
    r.verdict (first :: second :: begins) ends =
      .error (.duplicateBegin r.beginMarker first second) := by
  match ends with
  | [] => rfl
  | [_] => rfl
  | _ :: n :: _ => exact if_pos (h n rfl)

/-- A second end sentinel is reported if there is no second begin sentinel before it. -/
theorem verdict_duplicateEnd {first second : Nat} {begins ends : List Nat}
    (h : ∀ n, begins[1]? = some n → second < n) :
    r.verdict begins (first :: second :: ends) =
      .error (.duplicateEnd r.endMarker first second) := by
  match begins with
  | [] => rfl
  | [_] => rfl
  | _ :: n :: _ => exact if_neg (Nat.lt_asymm (h n rfl))

/-- **What the scan finds is what the numbers of the sentinel lines say**, with the numbers that
were met before put in front. -/
theorem sentinelsFrom_eq_verdict (met : Sentinels) (number : Nat) (all : List (List Char)) :
    r.sentinelsFrom met number all =
      r.verdict (met.beginLine.toList ++ positionsFrom r.beginMarker number all)
        (met.endLine.toList ++ positionsFrom r.endMarker number all) := by
  -- A sentinel that was met before makes this line the second of its kind, and any second one of
  -- the other kind is behind it.
  induction all generalizing met number with
  | nil => rcases met with ⟨_ | _, _ | _⟩ <;> rfl
  | cons line rest ih =>
    rw [sentinelsFrom, positionsFrom_cons, positionsFrom_cons]
    by_cases hbegin : isMarkerLine r.beginMarker line = true
    · have hend : ¬isMarkerLine r.endMarker line = true := by
        simp [isMarkerLine_end_of_begin hbegin]
      rw [if_pos hbegin, if_pos hbegin, if_neg hend]
      cases hmet : met.beginLine with
      | none => exact ih { met with beginLine := some number } (number + 1)
      | some first => exact (verdict_duplicateBegin fun n => lt_of_second).symm
    · rw [if_neg hbegin, if_neg hbegin]
      by_cases hend : isMarkerLine r.endMarker line = true
      · rw [if_pos hend, if_pos hend]
        cases hmet : met.endLine with
        | none => exact ih { met with endLine := some number } (number + 1)
        | some first => exact (verdict_duplicateEnd fun n => lt_of_second).symm
      · rw [if_neg hend, if_neg hend]
        exact ih met (number + 1)

/-! ### What is reported -/

/-- What is wrong with the sentinels of a region, by the numbers of the lines that are its begin
sentinel and of those that are its end sentinel. -/
inductive Blames (r : Region) : List Nat → List Nat → Fault → Prop
  /-- The begin sentinel is the first to be met again. -/
  | duplicateBegin {first second : Nat} {begins ends : List Nat}
    (h : ∀ n, ends[1]? = some n → second < n) :
    Blames r (first :: second :: begins) ends (.duplicateBegin r.beginMarker first second)
  /-- The end sentinel is the first to be met again. -/
  | duplicateEnd {first second : Nat} {begins ends : List Nat}
    (h : ∀ n, begins[1]? = some n → second < n) :
    Blames r begins (first :: second :: ends) (.duplicateEnd r.endMarker first second)
  /-- There is no begin sentinel, and perhaps no end sentinel either. -/
  | missingBegin {ends : List Nat} (h : ends.length ≤ 1) :
    Blames r [] ends (.missingBegin r.beginMarker)
  /-- There is a begin sentinel and no end sentinel. -/
  | missingEnd {first : Nat} : Blames r [first] [] (.missingEnd r.endMarker)
  /-- There is one of each, in the wrong order. -/
  | endBeforeBegin {first last : Nat} (h : last < first) :
    Blames r [first] [last] (.endBeforeBegin r.name first last)

/-- No line is both sentinels. -/
theorem ne_of_mem_positions {first last : Nat} (hfirst : first ∈ r.beginPositions text)
    (hlast : last ∈ r.endPositions text) : first ≠ last := by
  rintro rfl
  obtain ⟨-, _, hbegin⟩ := List.mem_findIdxs_iff_getElem_sub_pos.mp hfirst
  obtain ⟨-, _, hend⟩ := List.mem_findIdxs_iff_getElem_sub_pos.mp hlast
  rw [isMarkerLine_end_of_begin hbegin] at hend
  cases hend

/-- What is wrong with the sentinels is what the scan answers. -/
theorem Blames.sentinels_eq {fault : Fault}
    (h : r.Blames (r.beginPositions text) (r.endPositions text) fault) :
    r.sentinels (lines text) = .error fault := by
  rw [sentinels, sentinelsFrom_eq_verdict]
  change (r.verdict (r.beginPositions text) (r.endPositions text) >>= _) = _
  generalize r.beginPositions text = begins at h ⊢
  generalize r.endPositions text = ends at h ⊢
  cases h with
  | duplicateBegin h => rw [verdict_duplicateBegin h]; rfl
  | duplicateEnd h => rw [verdict_duplicateEnd h]; rfl
  | missingBegin h =>
    match ends, h with
    | [], _ => rfl
    | [_], _ => rfl
  | missingEnd => rfl
  | endBeforeBegin h => exact if_pos h

/-- One sentinel of each kind, in order, is what the scan answers. -/
theorem sentinels_eq_of_positions {first last : Nat} (hbegin : r.beginPositions text = [first])
    (hend : r.endPositions text = [last]) (h : first < last) :
    r.sentinels (lines text) = .ok (first, last) := by
  rw [sentinels, sentinelsFrom_eq_verdict]
  change (r.verdict (r.beginPositions text) (r.endPositions text) >>= _) = _
  rw [hbegin, hend]
  exact if_neg (Nat.lt_asymm h)

/-- Numbers of sentinel lines show a fault, or the region. -/
theorem exists_blames_or_positions (r : Region) (text : List Char) :
    (∃ fault, r.Blames (r.beginPositions text) (r.endPositions text) fault) ∨
      ∃ first last, r.beginPositions text = [first] ∧ r.endPositions text = [last] ∧
        first < last := by
  have hne : ∀ n ∈ r.beginPositions text, ∀ m ∈ r.endPositions text, n ≠ m :=
    fun n hn m hm => ne_of_mem_positions hn hm
  generalize r.beginPositions text = begins at hne ⊢
  generalize r.endPositions text = ends at hne ⊢
  match begins, ends with
  | [], [] => exact .inl ⟨_, .missingBegin (Nat.zero_le _)⟩
  | [], [_] => exact .inl ⟨_, .missingBegin (Nat.le_refl _)⟩
  | [_], [] => exact .inl ⟨_, .missingEnd⟩
  | [first], [last] =>
    rcases Nat.lt_or_gt_of_ne (hne first (by simp) last (by simp)) with h | h
    · exact .inr ⟨first, last, rfl, rfl, h⟩
    · exact .inl ⟨_, .endBeforeBegin h⟩
  | [], _ :: _ :: _ => exact .inl ⟨_, .duplicateEnd (by simp)⟩
  | [_], _ :: _ :: _ => exact .inl ⟨_, .duplicateEnd (by simp)⟩
  | _ :: _ :: _, [] => exact .inl ⟨_, .duplicateBegin (by simp)⟩
  | _ :: _ :: _, [_] => exact .inl ⟨_, .duplicateBegin (by simp)⟩
  | _ :: second :: _, _ :: second' :: _ =>
    rcases Nat.lt_or_gt_of_ne (hne second (by simp) second' (by simp)) with h | h
    · exact .inl ⟨_, .duplicateBegin fun n hn => by cases hn; exact h⟩
    · exact .inl ⟨_, .duplicateEnd fun n hn => by cases hn; exact h⟩

/-! ### The parts of the text -/

/-- The parts that a text is cut into by two of its lines, given by their numbers: the lines up to
the first, the lines strictly between the two, and the lines from the second on. -/
structure Location.IsBetween (l : Location) (text : List Char) (first last : Nat) : Prop where
  /-- What comes before the interior are the lines up to the first of the two. -/
  before : lines l.before = (lines text).take first
  /-- The interior are the lines strictly between the two. -/
  interior : lines l.interior = ((lines text).take (last - 1)).drop first
  /-- What comes after the interior are the lines from the second of the two on. -/
  after : lines l.after = (lines text).drop (last - 1)
  /-- The three make up the text. -/
  text_eq : l.before ++ l.interior ++ l.after = text
  /-- The interior starts behind the lines up to the first of the two. -/
  start : l.start = byteCount ((lines text).take first).flatten
  /-- It ends where the second of the two starts. -/
  stop : l.stop = byteCount ((lines text).take (last - 1)).flatten
  /-- It does not end before it starts. -/
  start_le_stop : l.start ≤ l.stop
  /-- It is within the text. -/
  stop_le : l.stop ≤ byteCount text
  /-- A line starts where the interior starts. -/
  startsLine_start : startsLine l.before.getLast? = true
  /-- A line starts where the interior ends. -/
  startsLine_stop : startsLine (l.before ++ l.interior).getLast? = true

/-- The parts are determined by the lines they are made of. -/
theorem Location.IsBetween.eq {l : Location} {first last : Nat}
    (h : l.IsBetween text first last) :
    l = ⟨((lines text).take first).flatten, (((lines text).take (last - 1)).drop first).flatten,
      ((lines text).drop (last - 1)).flatten⟩ := by
  rw [← h.before, ← h.interior, ← h.after, flatten_lines, flatten_lines, flatten_lines]

/-- Two lines of a text, one behind the other, cut it into parts. -/
theorem isBetween_of_lt {first last : Nat} (h : first < last)
    (hlast : last ≤ (lines text).length) :
    Location.IsBetween ⟨((lines text).take first).flatten,
      (((lines text).take (last - 1)).drop first).flatten,
      ((lines text).drop (last - 1)).flatten⟩ text first last := by
  have hback : (lines text).drop (last - 1) ≠ [] := by
    rw [Ne, List.drop_eq_nil_iff]
    omega
  -- A cut of the lines in front of one of them is a cut of the text where a line starts.
  obtain ⟨hstop, hlines, hafter⟩ := lines_eq_append (List.take_append_drop _ _).symm hback
  have hfront : (lines text).take (last - 1) =
      (lines text).take first ++ ((lines text).take (last - 1)).drop first := by
    have htake := List.take_append_drop first ((lines text).take (last - 1))
    rw [List.take_take, Nat.min_eq_left (by omega)] at htake
    exact htake.symm
  have hcut : lines text = (lines text).take first ++
      (((lines text).take (last - 1)).drop first ++ (lines text).drop (last - 1)) := by
    rw [← List.append_assoc, ← hfront, List.take_append_drop]
  obtain ⟨hstart, hbefore, hrest⟩ := lines_eq_append hcut (by simp [hback])
  obtain ⟨-, hinterior, -⟩ := lines_eq_append hrest hback
  have htext : ((lines text).take first).flatten ++
      (((lines text).take (last - 1)).drop first).flatten ++
        ((lines text).drop (last - 1)).flatten = text := by
    rw [List.append_assoc, ← List.flatten_append, ← List.flatten_append, ← hcut, flatten_lines]
  have hupto : ((lines text).take first).flatten ++
      (((lines text).take (last - 1)).drop first).flatten =
        ((lines text).take (last - 1)).flatten := by
    rw [← List.flatten_append, ← hfront]
  refine ⟨hbefore, hinterior, hafter, htext, rfl, ?_, Nat.le_add_right _ _, ?_, hstart, ?_⟩
  · rw [← hupto, byteCount_append]
    rfl
  · have hcount := congrArg byteCount htext
    rw [byteCount_append, byteCount_append] at hcount
    exact Nat.le.intro hcount
  · rw [hupto]
    exact hstop

/-- The last line is counted. -/
theorem le_length_of_endPositions {last : Nat} (h : r.endPositions text = [last]) :
    last ≤ (lines text).length := by
  have hmem : last ∈ r.endPositions text := by simp [h]
  exact Nat.le_of_lt_succ (lt_of_mem_positionsFrom hmem)

/-- A region with one sentinel of each kind, in order, is found between the two. -/
theorem locate_of_positions {first last : Nat} (hbegin : r.beginPositions text = [first])
    (hend : r.endPositions text = [last]) (h : first < last) :
    ∃ l, r.locate text = .ok l ∧ l.IsBetween text first last := by
  refine ⟨_, ?_, isBetween_of_lt h (le_length_of_endPositions hend)⟩
  rw [locate]
  dsimp only
  rw [sentinels_eq_of_positions hbegin hend h]
  rfl

/-- A region with something wrong with its sentinels is not found. -/
theorem Blames.locate_eq {fault : Fault}
    (h : r.Blames (r.beginPositions text) (r.endPositions text) fault) :
    r.locate text = .error fault := by
  rw [locate]
  dsimp only
  rw [h.sentinels_eq]
  rfl

end Region

namespace Document

/-! ### Location -/

/-- **Location is exact**. For every text and every name, a region is found if and only if one line
is its begin sentinel, one line behind that is its end sentinel, and no other line is either; what
is found are the lines up to the begin sentinel, those between, and those from the end sentinel on.
A region that is not found is reported by what is wrong with its sentinels. -/
theorem locate_exact (d : Document) (r : Region) :
    (∀ l, d.locate r = .ok l ↔ ∃ first last, r.beginPositions d.text = [first] ∧
      r.endPositions d.text = [last] ∧ first < last ∧ l.IsBetween d.text first last) ∧
    (∀ fault, d.locate r = .error fault ↔
      r.Blames (r.beginPositions d.text) (r.endPositions d.text) fault) := by
  -- Something is wrong with the sentinels or their positions are in order, and each excludes the
  -- other.
  rcases r.exists_blames_or_positions d.text with
    ⟨fault, hfault⟩ | ⟨first, last, hbegin, hend, hlt⟩
  · have hlocate : d.locate r = .error fault := hfault.locate_eq
    constructor
    · intro l
      rw [hlocate]
      refine ⟨nofun, ?_⟩
      rintro ⟨first, last, hbegin, hend, hlt, -⟩
      obtain ⟨found, hfound, -⟩ := Region.locate_of_positions hbegin hend hlt
      exact nomatch hlocate.symm.trans hfound
    · intro other
      constructor
      · intro h
        obtain rfl := Except.error.inj (hlocate.symm.trans h)
        exact hfault
      · exact fun h => h.locate_eq
  · obtain ⟨found, hfound, hbetween⟩ := Region.locate_of_positions hbegin hend hlt
    have hlocate : d.locate r = .ok found := hfound
    constructor
    · intro l
      constructor
      · intro h
        obtain rfl := Except.ok.inj (hlocate.symm.trans h)
        exact ⟨first, last, hbegin, hend, hlt, hbetween⟩
      · rintro ⟨first', last', hbegin', hend', -, hl⟩
        obtain rfl := List.singleton_inj.mp (hbegin.symm.trans hbegin')
        obtain rfl := List.singleton_inj.mp (hend.symm.trans hend')
        rw [hlocate, hl.eq, hbetween.eq]
    · intro fault
      constructor
      · intro h
        exact nomatch hlocate.symm.trans h
      · intro h
        exact nomatch hlocate.symm.trans h.locate_eq

/-- Both sentinels stand twice; the second end sentinel comes before the second begin sentinel. -/
example : (Region.mk "R").sentinels (lines ("#pragma endregion R\n#pragma region R\n\n" ++
    "\t#pragma endregion R \n#pragma region R").toList) =
      .error (.duplicateEnd "#pragma endregion R" 1 4) := by
  rfl

end Document

end Packetry

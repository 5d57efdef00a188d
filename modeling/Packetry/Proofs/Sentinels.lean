import Packetry.Document
import Packetry.Proofs.Lines

/-!
# What a region cuts a text into

A region is found in a text exactly where its two sentinels are: one line is the begin sentinel,
one line behind it is the end sentinel, and no other line is either of them. Read line by line,
that is a *cut* of the text (`Packetry.Region.Cut`), and `Packetry.Region.Splits` says of three
parts of a text that they are what a cut makes of it. Both are stated without the scan that finds
the sentinels; that the scan finds them is `Packetry.Region.locate_eq_ok_iff`.

A new interior leaves the cut where it is, provided that it is made of whole lines and that none
of them is a sentinel (`Packetry.Region.Splits.around`).
-/

namespace Packetry

open Text

/-! ### Whole lines

A text is made of whole lines if a line starts behind it. -/

/-- A line starts behind two texts if one starts behind each of them. -/
theorem startsLine_append {a b : List Char} (ha : startsLine a.getLast? = true)
    (hb : startsLine b.getLast? = true) : startsLine (a ++ b).getLast? = true := by
  rw [List.getLast?_append]
  cases h : b.getLast? with
  | none => exact ha
  | some c =>
    rw [h] at hb
    exact hb

theorem startsLine_lineOf (s : String) : startsLine (lineOf s).getLast? = true := by
  rw [lineOf, List.getLast?_concat]
  rfl

theorem startsLine_lines (ss : List String) :
    startsLine (ss.map lineOf).flatten.getLast? = true := by
  induction ss with
  | nil => rfl
  | cons s ss ih => exact startsLine_append (startsLine_lineOf s) ih

/-- Behind whole lines, the lines of a text are those that it has by itself. -/
theorem lines_append_of_startsLine {a : List Char} (h : startsLine a.getLast? = true)
    (b : List Char) : lines (a ++ b) = lines a ++ lines b := by
  fun_induction lines a with
  | case1 => rfl
  | case2 rest ih =>
    have hrest : startsLine rest.getLast? = true := by
      cases rest with
      | nil => rfl
      | cons d rest => simpa using h
    rw [List.cons_append, lines, if_pos rfl, ih hrest, List.cons_append]
  | case3 c rest hc hnone ih =>
    have hrest : rest = [] := by
      rw [← flatten_lines rest, hnone, List.flatten_nil]
    subst hrest
    exact absurd (by simpa [startsLine] using h) hc
  | case4 c rest hc line more hsome ih =>
    have hrest : startsLine rest.getLast? = true := by
      cases rest with
      | nil => cases hsome
      | cons d rest => simpa using h
    rw [List.cons_append, lines, if_neg hc, ih hrest, hsome]
    rfl

/-- No line is empty. -/
theorem ne_nil_of_mem_lines {text line : List Char} (h : line ∈ lines text) : line ≠ [] := by
  rintro rfl
  fun_induction lines text with
  | case1 => cases h
  | case2 rest ih => exact ih (by simpa using h)
  | case3 c rest hc hnone ih => simp at h
  | case4 c rest hc line more hsome ih => exact ih (by simp_all)

/-- The lines of a text up to one that is not the last are whole lines, and the lines of a part
of the text are those that it has in the text. -/
theorem lines_eq_append {text : List Char} {xs ys : List (List Char)}
    (h : lines text = xs ++ ys) (hys : ys ≠ []) :
    startsLine xs.flatten.getLast? = true ∧ lines xs.flatten = xs ∧ lines ys.flatten = ys := by
  -- Where no line comes first, the rest is the whole text; otherwise the first line takes the first
  -- character.
  fun_induction lines text generalizing xs with
  | case1 => exact absurd (List.append_eq_nil_iff.mp h.symm).2 hys
  | case2 rest ih =>
    cases xs with
    | nil =>
      refine ⟨rfl, rfl, ?_⟩
      have hflat : ys.flatten = '\n' :: rest := by
        rw [← List.nil_append ys, ← h]
        simp
      rw [hflat, lines, if_pos rfl, h, List.nil_append]
    | cons x xs =>
      obtain ⟨rfl, hrest⟩ := List.cons.inj h
      obtain ⟨hend, hxs, hys'⟩ := ih hrest
      refine ⟨startsLine_append (a := ['\n']) rfl hend, ?_, hys'⟩
      rw [List.flatten_cons, List.singleton_append, lines, if_pos rfl, hxs]
  | case3 c rest hc hnone ih =>
    cases xs with
    | nil =>
      refine ⟨rfl, rfl, ?_⟩
      rw [← List.nil_append ys, ← h]
      simp [lines, hc]
    | cons x xs => exact absurd (List.append_eq_nil_iff.mp (List.cons.inj h).2.symm).2 hys
  | case4 c rest hc line more hsome ih =>
    cases xs with
    | nil =>
      refine ⟨rfl, rfl, ?_⟩
      have hflat : ys.flatten = c :: rest := by
        rw [← List.nil_append ys, ← h, List.flatten_cons, List.cons_append, ← List.flatten_cons,
          ← hsome, flatten_lines]
      rw [hflat, lines, if_neg hc, hsome]
      exact h
    | cons x xs =>
      obtain ⟨rfl, rfl⟩ := List.cons.inj h
      obtain ⟨hend, hxs, hys'⟩ := @ih (line :: xs) hsome
      refine ⟨?_, ?_, hys'⟩
      · have hmem : line ∈ lines rest := by simp [hsome]
        have hline : line ≠ [] := ne_nil_of_mem_lines hmem
        obtain ⟨d, line, rfl⟩ := List.exists_cons_of_ne_nil hline
        simpa using hend
      · rw [List.flatten_cons, List.cons_append, lines, if_neg hc, ← List.flatten_cons, hxs]

/-! ### Cuts -/

namespace Region

variable {r : Region} {text : List Char} {l : Location}

/-- A line that is neither sentinel of a region. -/
def IsOther (r : Region) (line : List Char) : Prop :=
  isMarkerLine r.beginMarker line = false ∧ isMarkerLine r.endMarker line = false

theorem beginMarker_toList (r : Region) : r.beginMarker.toList = opener ++ r.name.toList :=
  String.toList_append

theorem endMarker_toList (r : Region) : r.endMarker.toList = closer ++ r.name.toList :=
  String.toList_append

/-- A begin sentinel is no end sentinel. -/
theorem isMarkerLine_end_of_begin {line : List Char}
    (h : isMarkerLine r.beginMarker line = true) : isMarkerLine r.endMarker line = false := by
  simp only [isMarkerLine, beq_iff_eq, beq_eq_false_iff_ne] at h ⊢
  rw [h, beginMarker_toList, endMarker_toList]
  intro heq
  have htake := congrArg (List.take 9) heq
  rw [List.take_append_of_le_length (by decide), List.take_append_of_le_length (by decide)]
    at htake
  exact absurd htake (by decide)

/-- Lines, cut at two of them. -/
structure Cut where
  /-- The lines before the first of the two. -/
  front : List (List Char)
  /-- The first of the two lines. -/
  opening : List Char
  /-- The lines between the two. -/
  middle : List (List Char)
  /-- The second of the two lines. -/
  closing : List Char
  /-- The lines behind the second of the two. -/
  back : List (List Char)

namespace Cut

/-- The lines that are cut. -/
def lines (c : Cut) : List (List Char) :=
  c.front ++ c.opening :: (c.middle ++ c.closing :: c.back)

/-- The parts that the cut makes. -/
def location (c : Cut) : Location :=
  ⟨(c.front ++ [c.opening]).flatten, c.middle.flatten, (c.closing :: c.back).flatten⟩

/-- The lines are cut at the sentinels of a region, and there are no others. -/
structure IsAt (c : Cut) (r : Region) : Prop where
  /-- The first of the two lines is the begin sentinel. -/
  opens : isMarkerLine r.beginMarker c.opening = true
  /-- The second of the two lines is the end sentinel. -/
  closes : isMarkerLine r.endMarker c.closing = true
  /-- There is none before the begin sentinel. -/
  front : ∀ line ∈ c.front, r.IsOther line
  /-- There is none between the two. -/
  middle : ∀ line ∈ c.middle, r.IsOther line
  /-- There is none behind the end sentinel. -/
  back : ∀ line ∈ c.back, r.IsOther line

end Cut

/-- The parts of a text before, in and after a region: the first part ends with the one line that
is the begin sentinel, and the last one starts with the one line that is the end sentinel. -/
def Splits (r : Region) (text : List Char) (l : Location) : Prop :=
  ∃ c : Cut, c.IsAt r ∧ Text.lines text = c.lines ∧ c.location = l

theorem Splits.text_eq (h : r.Splits text l) : text = l.before ++ l.interior ++ l.after := by
  obtain ⟨c, -, hlines, rfl⟩ := h
  rw [← flatten_lines text, hlines]
  simp [Cut.lines, Cut.location]

/-! ### What the scan finds -/

/-- Lines that are no sentinels are passed over. -/
theorem sentinelsFrom_others (met : Sentinels) (number : Nat) {others : List (List Char)}
    (h : ∀ line ∈ others, r.IsOther line) (rest : List (List Char)) :
    r.sentinelsFrom met number (others ++ rest) =
      r.sentinelsFrom met (number + others.length) rest := by
  induction others generalizing number with
  | nil => rfl
  | cons line others ih =>
    obtain ⟨hbegin, hend⟩ := h line (by simp)
    rw [List.cons_append, sentinelsFrom, if_neg (by simp [hbegin]), if_neg (by simp [hend]),
      ih (number + 1) fun line hline => h line (by simp [hline]), List.length_cons]
    congr 1
    omega

/-- Lines without a sentinel, or up to the first one. -/
theorem sentinel_cases (r : Region) (all : List (List Char)) :
    (∀ line ∈ all, r.IsOther line) ∨ ∃ others line rest, all = others ++ line :: rest ∧
      (∀ line ∈ others, r.IsOther line) ∧
      (isMarkerLine r.beginMarker line = true ∨ isMarkerLine r.endMarker line = true) := by
  induction all with
  | nil => exact .inl (by simp)
  | cons line all ih =>
    by_cases hline : r.IsOther line
    · rcases ih with hall | ⟨others, next, rest, rfl, hothers, hnext⟩
      · exact .inl (by simpa [hline] using hall)
      · exact .inr ⟨line :: others, next, rest, rfl, by simpa [hline] using hothers, hnext⟩
    · refine .inr ⟨[], line, all, rfl, by simp, ?_⟩
      simp only [IsOther, not_and_or, Bool.not_eq_false] at hline
      exact hline

/-- A scan that has met both sentinels meets no other. -/
theorem sentinelsFrom_both {first last number : Nat} {all : List (List Char)} {met : Sentinels}
    (h : r.sentinelsFrom ⟨some first, some last⟩ number all = .ok met) :
    (∀ line ∈ all, r.IsOther line) ∧ met = ⟨some first, some last⟩ := by
  rcases r.sentinel_cases all with hall | ⟨others, line, rest, rfl, hothers, hline⟩
  · rw [← List.append_nil all, sentinelsFrom_others _ _ hall] at h
    exact ⟨hall, (Except.ok.inj h).symm⟩
  · rw [sentinelsFrom_others _ _ hothers, sentinelsFrom] at h
    rcases hline with hline | hline
    · rw [if_pos hline] at h
      cases h
    · rw [if_pos hline] at h
      split at h <;> cases h

/-- A scan that has met the begin sentinel meets no other begin sentinel, and the end sentinel
once at most. -/
theorem sentinelsFrom_begin {first number : Nat} {all : List (List Char)} {met : Sentinels}
    (h : r.sentinelsFrom ⟨some first, none⟩ number all = .ok met) :
    met = ⟨some first, none⟩ ∨ ∃ middle closing back, all = middle ++ closing :: back ∧
      (∀ line ∈ middle, r.IsOther line) ∧ isMarkerLine r.endMarker closing = true ∧
      (∀ line ∈ back, r.IsOther line) ∧ met = ⟨some first, some (number + middle.length)⟩ := by
  rcases r.sentinel_cases all with hall | ⟨others, line, rest, rfl, hothers, hline⟩
  · rw [← List.append_nil all, sentinelsFrom_others _ _ hall] at h
    exact .inl (Except.ok.inj h).symm
  · rw [sentinelsFrom_others _ _ hothers, sentinelsFrom] at h
    by_cases hbegin : isMarkerLine r.beginMarker line = true
    · rw [if_pos hbegin] at h
      cases h
    · have hend := hline.resolve_left hbegin
      rw [if_neg hbegin, if_pos hend] at h
      obtain ⟨hback, hmet⟩ := sentinelsFrom_both h
      exact .inr ⟨others, line, rest, rfl, hothers, hend, hback, hmet⟩

/-- A scan that has met the end sentinel finds the begin sentinel behind it, if at all. -/
theorem sentinelsFrom_end {last number : Nat} {all : List (List Char)} {met : Sentinels}
    (h : r.sentinelsFrom ⟨none, some last⟩ number all = .ok met) :
    met = ⟨none, some last⟩ ∨ ∃ first, number ≤ first ∧ met = ⟨some first, some last⟩ := by
  rcases r.sentinel_cases all with hall | ⟨others, line, rest, rfl, hothers, hline⟩
  · rw [← List.append_nil all, sentinelsFrom_others _ _ hall] at h
    exact .inl (Except.ok.inj h).symm
  · rw [sentinelsFrom_others _ _ hothers, sentinelsFrom] at h
    by_cases hbegin : isMarkerLine r.beginMarker line = true
    · rw [if_pos hbegin] at h
      exact .inr ⟨number + others.length, Nat.le_add_right _ _, (sentinelsFrom_both h).2⟩
    · rw [if_neg hbegin, if_pos (hline.resolve_left hbegin)] at h
      cases h

/-- What the scan finds are the two lines of a cut. -/
theorem exists_cut_of_sentinels {all : List (List Char)} {first last : Nat}
    (h : r.sentinels all = .ok (first, last)) :
    ∃ c : Cut, c.IsAt r ∧ all = c.lines ∧ first = c.front.length + 1 ∧
      last = c.front.length + c.middle.length + 2 := by
  unfold sentinels at h
  cases hmet : r.sentinelsFrom ⟨none, none⟩ 1 all with
  | error fault =>
    rw [hmet] at h
    cases h
  | ok met =>
    rw [hmet] at h
    rcases r.sentinel_cases all with hall | ⟨front, opening, rest, rfl, hfront, hopening⟩
    · rw [← List.append_nil all, sentinelsFrom_others _ _ hall] at hmet
      cases hmet
      cases h
    · rw [sentinelsFrom_others _ _ hfront, sentinelsFrom] at hmet
      by_cases hbegin : isMarkerLine r.beginMarker opening = true
      · rw [if_pos hbegin] at hmet
        rcases sentinelsFrom_begin hmet with
          rfl | ⟨middle, closing, back, rfl, hmiddle, hclosing, hback, rfl⟩
        · cases h
        · simp only [bind, Except.bind] at h
          rw [if_neg (by omega)] at h
          obtain ⟨rfl, rfl⟩ := Prod.mk.inj (Except.ok.inj h)
          refine ⟨⟨front, opening, middle, closing, back⟩,
            ⟨hbegin, hclosing, hfront, hmiddle, hback⟩, rfl, ?_, ?_⟩
          · exact Nat.add_comm _ _
          · dsimp only
            omega
      · -- The end sentinel comes first, and that is a fault whatever follows.
        rw [if_neg hbegin, if_pos (hopening.resolve_left hbegin)] at hmet
        rcases sentinelsFrom_end hmet with rfl | ⟨first', hfirst, rfl⟩
        · cases h
        · simp only [bind, Except.bind] at h
          rw [if_pos (by omega)] at h
          cases h

/-- The two lines of a cut are found. -/
theorem Cut.IsAt.sentinels_eq {c : Cut} (h : c.IsAt r) : r.sentinels c.lines =
    .ok (c.front.length + 1, c.front.length + c.middle.length + 2) := by
  have hclosing : ¬isMarkerLine r.beginMarker c.closing = true := by
    intro hbegin
    have hends := h.closes
    rw [isMarkerLine_end_of_begin hbegin] at hends
    cases hends
  have hfound : r.sentinelsFrom ⟨none, none⟩ 1 c.lines =
      .ok ⟨some (1 + c.front.length), some (1 + c.front.length + 1 + c.middle.length)⟩ := by
    rw [Cut.lines, sentinelsFrom_others _ _ h.front, sentinelsFrom, if_pos h.opens]
    dsimp only
    rw [sentinelsFrom_others _ _ h.middle, sentinelsFrom, if_neg hclosing, if_pos h.closes]
    dsimp only
    rw [← List.append_nil c.back, sentinelsFrom_others _ _ h.back, sentinelsFrom]
  unfold sentinels
  rw [hfound]
  simp only [bind, Except.bind]
  rw [if_neg (by omega)]
  congr 2 <;> omega

/-- The parts of a cut, by the numbers of its two lines. -/
theorem Cut.location_eq (c : Cut) : c.location =
    ⟨(c.lines.take (c.front.length + 1)).flatten,
      ((c.lines.take (c.front.length + c.middle.length + 1)).drop (c.front.length + 1)).flatten,
      (c.lines.drop (c.front.length + c.middle.length + 1)).flatten⟩ := by
  have hfront : (c.front ++ [c.opening]).length = c.front.length + 1 := by
    simp
  have hmiddle : (c.front ++ [c.opening] ++ c.middle).length =
      c.front.length + c.middle.length + 1 := by
    simp only [List.length_append, List.length_singleton]
    omega
  have hcut : c.lines = c.front ++ [c.opening] ++ c.middle ++ c.closing :: c.back := by
    simp [Cut.lines]
  rw [hcut, List.take_left' hmiddle, List.drop_left' hmiddle, List.drop_left' hfront,
    List.append_assoc, List.take_left' hfront]
  rfl

/-- **A region is found where its sentinels are**, and nowhere else. -/
theorem locate_eq_ok_iff : r.locate text = .ok l ↔ r.Splits text l := by
  unfold locate
  dsimp only
  constructor
  · intro h
    cases hfound : r.sentinels (Text.lines text) with
    | error fault =>
      rw [hfound] at h
      cases h
    | ok found =>
      obtain ⟨first, last⟩ := found
      rw [hfound] at h
      obtain ⟨c, hc, hlines, rfl, rfl⟩ := exists_cut_of_sentinels hfound
      refine ⟨c, hc, hlines, c.location_eq.trans ?_⟩
      rw [← hlines]
      exact Except.ok.inj h
  · rintro ⟨c, hc, hlines, rfl⟩
    rw [hlines, hc.sentinels_eq, c.location_eq]
    rfl

/-- A text is split in one way only. -/
theorem Splits.unique {l' : Location} (h : r.Splits text l) (h' : r.Splits text l') : l' = l := by
  rw [← locate_eq_ok_iff] at h h'
  exact Except.ok.inj (h'.symm.trans h)

/-! ### New interiors -/

/-- The interior of a region is made of whole lines, and none of them is a sentinel. -/
theorem Splits.interior (h : r.Splits text l) : startsLine l.interior.getLast? = true ∧
    ∀ line ∈ Text.lines l.interior, r.IsOther line := by
  obtain ⟨c, hc, hlines, rfl⟩ := h
  have hcut : Text.lines text = (c.front ++ [c.opening]) ++ (c.middle ++ c.closing :: c.back) := by
    rw [hlines, Cut.lines, List.append_assoc, List.singleton_append]
  obtain ⟨-, -, hrest⟩ := lines_eq_append hcut (by simp)
  obtain ⟨hwhole, hmiddle, -⟩ := lines_eq_append hrest (by simp)
  refine ⟨hwhole, ?_⟩
  rw [Cut.location, hmiddle]
  exact hc.middle

/-- **A new interior of whole lines stays where the old one was**, if none of its lines is a
sentinel. -/
theorem Splits.around (h : r.Splits text l) {new : List Char}
    (hwhole : startsLine new.getLast? = true) (hnew : ∀ line ∈ Text.lines new, r.IsOther line) :
    r.Splits (l.around new) { l with interior := new } := by
  obtain ⟨c, hc, hlines, rfl⟩ := h
  have hcut : Text.lines text = (c.front ++ [c.opening]) ++ (c.middle ++ c.closing :: c.back) := by
    rw [hlines, Cut.lines, List.append_assoc, List.singleton_append]
  obtain ⟨hfront, hbefore, hrest⟩ := lines_eq_append hcut (by simp)
  obtain ⟨-, -, hafter⟩ := lines_eq_append hrest (by simp)
  refine ⟨{ c with middle := Text.lines new }, ⟨hc.opens, hc.closes, hc.front, hnew, hc.back⟩,
    ?_, ?_⟩
  · rw [Location.around, Cut.location, List.append_assoc, lines_append_of_startsLine hfront,
      lines_append_of_startsLine hwhole, hbefore, hafter, Cut.lines, List.append_assoc,
      List.singleton_append]
  · simp [Cut.location]

end Region

end Packetry

import Packetry.Code
import Mathlib.Tactic.ByContra

/-!
# Lines of code

Whatever the generator writes, it writes line by line, and no line that it writes can be taken
for a sentinel: such a line is *plain*. For most lines that is clear from the piece that they
begin with (`Packetry.Opens`), whatever names are put behind it; and where a name comes first,
it helps that names are made of word characters, none of which is white space or begins a
sentinel.
-/

namespace Packetry

open Text

/-! ### Characters of names -/

/-- The word characters outside ASCII are between the white space. -/
theorem wide_between_blanks : ∀ r ∈ wideWordChars,
    0x3000 < r.first ∨ 0xA0 < r.first ∧ r.last < 0x1680 ∨ 0x1680 < r.first ∧ r.last < 0x2000 ∨
      0x200A < r.first ∧ r.last < 0x2028 ∨ 0x202F < r.first ∧ r.last < 0x205F ∨
      0x205F < r.first ∧ r.last < 0x3000 := by
  decide +kernel

theorem isBlank_of_isWord {c : Char} (h : isWord c = true) : isBlank c = false := by
  by_contra hblank
  simp only [isBlank, Bool.not_eq_false, Bool.or_eq_true, Bool.and_eq_true, decide_eq_true_eq,
    beq_iff_eq] at hblank
  by_cases hlt : c.toNat < 0x80
  · rw [isWord_of_lt hlt] at h
    have hc : c = Char.ofNat c.toNat := (Char.ofNat_toNat c).symm
    have hsmall : c.toNat = 9 ∨ c.toNat = 10 ∨ c.toNat = 11 ∨ c.toNat = 12 ∨ c.toNat = 13 ∨
        c.toNat = 0x20 := by
      omega
    rcases hsmall with hn | hn | hn | hn | hn | hn <;> rw [hc, hn] at h <;> revert h <;> decide
  · rw [isWord, if_neg hlt, inRuns] at h
    obtain ⟨r, hr, hcontains⟩ := List.any_eq_true.mp h
    simp only [Run.contains, Bool.and_eq_true, decide_eq_true_eq] at hcontains
    obtain ⟨⟨hfirst, hlast⟩, -⟩ := hcontains
    have hbetween := wide_between_blanks r hr
    omega

/-- A name, as the regular expression for words has it. -/
structure IsName (s : String) : Prop where
  /-- There is one. -/
  nonempty : s.toList ≠ []
  /-- It is made of word characters. -/
  word : ∀ c ∈ s.toList, isWord c = true

instance (s : String) : Decidable (IsName s) :=
  decidable_of_iff (s.toList ≠ [] ∧ s.toList.all isWord = true)
    ⟨fun h => ⟨h.1, List.all_eq_true.mp h.2⟩, fun h => ⟨h.nonempty, List.all_eq_true.mpr h.word⟩⟩

/-- A name does not have a character that is no word character. -/
theorem IsName.not_mem {s : String} (h : IsName s) {c : Char} (hc : isWord c = false) :
    c ∉ s.toList := by
  intro hmem
  rw [h.word c hmem] at hc
  cases hc

/-! ### Single lines -/

/-- A text without the end of a line. -/
structure IsSingle (s : String) : Prop where
  /-- There is no line feed. -/
  feed : '\n' ∉ s.toList
  /-- There is no carriage return. -/
  carriage : '\r' ∉ s.toList

instance (s : String) : Decidable (IsSingle s) :=
  decidable_of_iff ('\n' ∉ s.toList ∧ '\r' ∉ s.toList) ⟨fun h => ⟨h.1, h.2⟩, fun h => ⟨h.1, h.2⟩⟩

theorem IsName.isSingle {s : String} (h : IsName s) : IsSingle s :=
  ⟨h.not_mem (by decide), h.not_mem (by decide)⟩

/-- A character that is in neither of two texts is not in the two put together. -/
theorem notMem_append {c : Char} {s t : String} (hs : c ∉ s.toList) (ht : c ∉ t.toList) :
    c ∉ (s ++ t).toList := by
  rw [String.toList_append, List.mem_append, not_or]
  exact ⟨hs, ht⟩

theorem IsSingle.append {s t : String} (hs : IsSingle s) (ht : IsSingle t) : IsSingle (s ++ t) :=
  ⟨notMem_append hs.feed ht.feed, notMem_append hs.carriage ht.carriage⟩

/-- The characters of a line with its end. -/
def lineOf (s : String) : List Char :=
  s.toList ++ ['\n']

theorem toList_unlines (ss : List String) : (unlines ss).toList = (ss.map lineOf).flatten := by
  induction ss with
  | nil => rfl
  | cons s ss ih =>
    rw [unlines_cons, String.toList_append, String.toList_append, ih, List.map_cons,
      List.flatten_cons]
    rfl

/-- A line is the first of the lines of a text that begins with it. -/
theorem lines_lineOf_append {s : String} (h : '\n' ∉ s.toList) (rest : List Char) :
    lines (lineOf s ++ rest) = lineOf s :: lines rest := by
  unfold lineOf
  generalize s.toList = body at h
  induction body with
  | nil => simp [lines]
  | cons c body ih =>
    obtain ⟨hc, hbody⟩ := not_or.mp (List.mem_cons.not.mp h)
    have hrest := ih hbody
    rw [List.cons_append, List.cons_append, lines, if_neg (Ne.symm hc), hrest]

theorem lines_append {ss : List String} (h : ∀ s ∈ ss, '\n' ∉ s.toList) (rest : List Char) :
    lines ((ss.map lineOf).flatten ++ rest) = ss.map lineOf ++ lines rest := by
  induction ss with
  | nil => rfl
  | cons s ss ih =>
    rw [List.map_cons, List.flatten_cons, List.append_assoc,
      lines_lineOf_append (h s (by simp)), ih fun s hs => h s (by simp [hs])]
    rfl

/-! ### Plain lines -/

/-- What every begin sentinel begins with. -/
def opener : List Char :=
  "#pragma region ".toList

/-- What every end sentinel begins with. -/
def closer : List Char :=
  "#pragma endregion ".toList

theorem opener_eq : opener = '#' :: "pragma region ".toList := by
  decide

theorem closer_eq : closer = '#' :: "pragma endregion ".toList := by
  decide

/-- A line that is no sentinel, whatever the region. -/
structure IsPlainLine (s : String) : Prop where
  /-- It is one line. -/
  single : IsSingle s
  /-- It does not begin like a begin sentinel. -/
  noBegin : ¬opener <+: (lineOf s).dropWhile isBlank
  /-- It does not begin like an end sentinel. -/
  noEnd : ¬closer <+: (lineOf s).dropWhile isBlank

instance (s : String) : Decidable (IsPlainLine s) :=
  decidable_of_iff (IsSingle s ∧ ¬opener <+: (lineOf s).dropWhile isBlank ∧
    ¬closer <+: (lineOf s).dropWhile isBlank)
    ⟨fun h => ⟨h.1, h.2.1, h.2.2⟩, fun h => ⟨h.1, h.2, h.3⟩⟩

/-- A line is plain if its first character that is not white space does not begin sentinels. -/
theorem isPlainLine_of_head {s : String} (h : IsSingle s)
    (hhead : ((lineOf s).dropWhile isBlank).head? ≠ some '#') : IsPlainLine s := by
  refine ⟨h, ?_, ?_⟩
  · rintro ⟨rest, hrest⟩
    rw [← hrest] at hhead
    exact hhead rfl
  · rintro ⟨rest, hrest⟩
    rw [← hrest] at hhead
    exact hhead rfl

/-- The beginning of a line that shows already that the line is no sentinel. -/
structure Opens (s : String) : Prop where
  /-- There is something. -/
  nonempty : s.toList.dropWhile isBlank ≠ []
  /-- It does not go on to a begin sentinel. -/
  noBegin : ¬opener <+: s.toList.dropWhile isBlank ∧ ¬s.toList.dropWhile isBlank <+: opener
  /-- It does not go on to an end sentinel. -/
  noEnd : ¬closer <+: s.toList.dropWhile isBlank ∧ ¬s.toList.dropWhile isBlank <+: closer

instance (s : String) : Decidable (Opens s) :=
  decidable_of_iff (s.toList.dropWhile isBlank ≠ [] ∧
    (¬opener <+: s.toList.dropWhile isBlank ∧ ¬s.toList.dropWhile isBlank <+: opener) ∧
    ¬closer <+: s.toList.dropWhile isBlank ∧ ¬s.toList.dropWhile isBlank <+: closer)
    ⟨fun h => ⟨h.1, h.2.1, h.2.2⟩, fun h => ⟨h.1, h.2, h.3⟩⟩

/-- Blanks at the start are dropped from the first part of a text, unless it is all blank. -/
theorem dropWhile_append_of_ne {s t : List Char} (h : s.dropWhile isBlank ≠ []) :
    (s ++ t).dropWhile isBlank = s.dropWhile isBlank ++ t := by
  rw [List.dropWhile_append, if_neg (by simpa using h)]

theorem Opens.append {s : String} (h : Opens s) (t : String) : Opens (s ++ t) := by
  have hdrop := dropWhile_append_of_ne (t := t.toList) h.nonempty
  refine ⟨?_, ?_, ?_⟩
  · rw [String.toList_append, hdrop]
    simp [h.nonempty]
  · rw [String.toList_append, hdrop]
    exact ⟨fun hp => (List.prefix_or_prefix_of_prefix hp (List.prefix_append _ _)).elim h.noBegin.1
      h.noBegin.2, fun hp => h.noBegin.2 ((List.prefix_append _ _).trans hp)⟩
  · rw [String.toList_append, hdrop]
    exact ⟨fun hp => (List.prefix_or_prefix_of_prefix hp (List.prefix_append _ _)).elim h.noEnd.1
      h.noEnd.2, fun hp => h.noEnd.2 ((List.prefix_append _ _).trans hp)⟩

/-- A line that opens so is plain. -/
theorem Opens.isPlainLine {s : String} (h : Opens s) (hs : IsSingle s) : IsPlainLine s := by
  have hline : lineOf s = (s ++ "\n").toList := by
    rw [String.toList_append]
    rfl
  refine ⟨hs, ?_, ?_⟩
  · rw [hline]
    exact (h.append "\n").noBegin.1
  · rw [hline]
    exact (h.append "\n").noEnd.1

end Packetry

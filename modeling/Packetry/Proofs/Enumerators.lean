import Packetry.Code
import Packetry.Proofs.Validated
import Mathlib.Data.List.Basic
import Mathlib.Data.List.Nodup

/-!
# Enumerators that clash

The enumerator of a packet is made of the *words* of its name: they are put in upper case, and an
underscore is put between them (`Packetry.enumeratorOf_eq`). No word has an underscore, before or
after it is put in upper case, so that the words are found again in the enumerator and two packets
have the same enumerator exactly if their names have the same words in upper case.

Validation compares the names themselves. It takes `FooBar` and `Foo_Bar` for different names, and
knows nothing of the one enumerator that is reserved. What is left of the promise that enumerators
are different is `Packetry.enumerators_nodup_iff`.
-/

namespace Packetry

open Text

/-! ### Words -/

/-- The words of a text that stands after a character, the first of which goes on one that has
begun before. An underscore ends a word and is in none. -/
def wordsAfter (before : Char) : List Char → List (List Char)
  | [] => [[]]
  | c :: rest =>
    if c = '_' then [] :: wordsAfter c rest
    else if beginsWord before c rest then [] :: (wordsAfter c rest).modifyHead (c :: ·)
    else (wordsAfter c rest).modifyHead (c :: ·)

/-- The words of a name, in upper case. No word begins behind an underscore that is not there
already, so that the name may be thought to stand after one. At an underscore at one of its ends,
or at one that follows another, there is an empty word. -/
def upperWords (name : String) : List String :=
  (wordsAfter '_' name.toList).map fun word => String.ofList (word.flatMap upperForm)

theorem wordsAfter_ne_nil (before : Char) (text : List Char) : wordsAfter before text ≠ [] := by
  fun_induction wordsAfter before text with
  | case1 => simp
  | case2 => simp
  | case3 => simp
  | case4 before c rest _ _ ih => simpa [List.modifyHead_eq_nil_iff] using ih

theorem upperWords_ne_nil (name : String) : upperWords name ≠ [] := by
  simp [upperWords, wordsAfter_ne_nil]

/-- A character that is put before the first word is put before the words when they are joined. -/
theorem intercalate_modifyHead {ws : List (List Char)} (h : ws ≠ []) (c : Char) :
    ['_'].intercalate ((ws.modifyHead (c :: ·)).map (·.flatMap upperForm)) =
      upperForm c ++ ['_'].intercalate (ws.map (·.flatMap upperForm)) := by
  obtain ⟨w, ws, rfl⟩ := List.exists_cons_of_ne_nil h
  cases ws with
  | nil => simp
  | cons v ws => simp [List.intercalate_cons_cons]

/-- Behind an empty word there is an underscore. -/
theorem intercalate_nil_cons {ws : List (List Char)} (h : ws ≠ []) :
    ['_'].intercalate ([] :: ws) = '_' :: ['_'].intercalate ws := by
  rw [List.intercalate_cons_of_ne_nil h]
  rfl

/-- An underscore is its own upper case form and begins no word. -/
theorem upperSnakeAfter_underscore (before : Char) (rest : List Char) :
    upperSnakeAfter before ('_' :: rest) = '_' :: upperSnakeAfter '_' rest := by
  have hupper : isUpper '_' = false := rfl
  have hform : upperForm '_' = ['_'] := rfl
  rw [upperSnakeAfter, beginsWord, hupper, hform]
  rfl

theorem upperSnakeAfter_eq (before : Char) (text : List Char) : upperSnakeAfter before text =
    ['_'].intercalate ((wordsAfter before text).map (·.flatMap upperForm)) := by
  fun_induction wordsAfter before text with
  | case1 => simp [upperSnakeAfter]
  | case2 before rest ih =>
    rw [upperSnakeAfter_underscore, List.map_cons, List.flatMap_nil,
      intercalate_nil_cons (by simp [wordsAfter_ne_nil]), ih]
  | case3 before c rest _ hbegins ih =>
    rw [upperSnakeAfter, if_pos hbegins, ih, List.map_cons, List.flatMap_nil,
      intercalate_nil_cons (by simp [wordsAfter_ne_nil]),
      intercalate_modifyHead (wordsAfter_ne_nil c rest)]
    rfl
  | case4 before c rest _ hbegins ih =>
    rw [upperSnakeAfter, if_neg hbegins, ih, intercalate_modifyHead (wordsAfter_ne_nil c rest)]
    rfl

/-- At the start of a text no word begins that would be set apart, as behind an underscore. -/
theorem upperSnake_eq (text : List Char) : upperSnake text = upperSnakeAfter '_' text := by
  cases text with
  | nil => rfl
  | cons c rest => simp [upperSnake, upperSnakeAfter, beginsWord]

/-- **The enumerator of a packet is made of the words of its name.** -/
theorem enumeratorOf_eq (name : String) :
    enumeratorOf name = "_".intercalate (upperWords name) := by
  rw [← String.toList_inj, enumeratorOf, String.toList_ofList, upperSnake_eq, upperSnakeAfter_eq,
    String.toList_intercalate, upperWords, List.map_map]
  simp [Function.comp_def]

/-! ### Underscores -/

/-- The characters that are in no upper case form of another one, as far as that matters: those
that end a line, the colon and the underscore. -/
def strangers : List Char :=
  ['\n', '\r', ':', '_']

theorem eq_of_toUpper : ∀ n < 0x80, (Char.ofNat n).toUpper ∈ strangers →
    (Char.ofNat n).toUpper = Char.ofNat n := by
  decide

/-- A form of more than one character has some character, but none of them. -/
theorem longUpperForms_ne : ∀ entry ∈ longUpperForms,
    entry.2 ≠ [] ∧ ∀ n ∈ entry.2, ∀ stranger ∈ strangers.map Char.toNat, n ≠ stranger := by
  decide

/-- A run with a form below one of them has one character only. -/
theorem shortUpperForms_ne : ∀ entry ∈ shortUpperForms,
    ∀ stranger ∈ strangers.map Char.toNat, stranger < entry.2 ∨
      entry.2 < stranger ∧ entry.1.last = entry.1.first := by
  decide +kernel

theorem ofNat_ne {n : Nat} {e : Char} (he : e ∈ strangers) (h : n ≠ e.toNat) :
    Char.ofNat n ≠ e := by
  rintro rfl
  by_cases hvalid : n.isValidChar
  · rw [Char.ofNat, dif_pos hvalid] at h
    exact h rfl
  · rw [Char.ofNat, dif_neg hvalid] at he
    exact absurd he (by decide)

/-- **No other character** has one of them in its upper case form. -/
theorem notMem_upperForm {c e : Char} (h : e ≠ c) (he : e ∈ strangers) : e ∉ upperForm c := by
  have hcode := List.mem_map_of_mem (f := Char.toNat) he
  intro hmem
  -- The first characters have been tried one by one; for the others, the tables of upper case forms
  -- are searched.
  unfold upperForm at hmem
  split at hmem
  · rename_i hlt
    have hupper := eq_of_toUpper c.toNat hlt
    rw [Char.ofNat_toNat] at hupper
    obtain rfl := List.mem_singleton.mp hmem
    exact h (hupper he)
  · unfold wideUpperForm at hmem
    split at hmem
    · rename_i form hform
      obtain ⟨l₁, l₂, hl, -⟩ := List.lookup_eq_some_iff.mp hform
      obtain ⟨n, hn, heq⟩ := List.mem_map.mp hmem
      exact ofNat_ne he ((longUpperForms_ne (c.toNat, form) (by simp [hl])).2 n hn _ hcode) heq
    · split at hmem
      · rename_i run form hrun
        have hcontains : run.contains c.toNat = true :=
          List.find?_some (p := fun entry : Run × Nat => entry.1.contains c.toNat) hrun
        simp only [Run.contains, Bool.and_eq_true, decide_eq_true_eq] at hcontains
        have hform := shortUpperForms_ne _ (List.mem_of_find?_eq_some hrun) _ hcode
        have hn : form + (c.toNat - run.first) ≠ e.toNat := by
          dsimp only at hform
          omega
        exact ofNat_ne he hn (List.mem_singleton.mp hmem).symm
      · exact h (List.mem_singleton.mp hmem)

/-- A word that a character other than the underscore is put before has no underscore still. -/
theorem underscore_notMem_modifyHead {ws : List (List Char)} {c : Char} (hc : c ≠ '_')
    (h : ∀ word ∈ ws, '_' ∉ word) : ∀ word ∈ ws.modifyHead (c :: ·), '_' ∉ word := by
  cases ws with
  | nil => exact h
  | cons w ws =>
    rw [List.modifyHead_cons, List.forall_mem_cons] at *
    exact ⟨by simpa [Ne.symm hc] using h.1, h.2⟩

theorem underscore_notMem_wordsAfter (before : Char) (text : List Char) :
    ∀ word ∈ wordsAfter before text, '_' ∉ word := by
  fun_induction wordsAfter before text with
  | case1 => simp
  | case2 before rest ih => exact List.forall_mem_cons.mpr ⟨List.not_mem_nil, ih⟩
  | case3 before c rest hc _ ih =>
    exact List.forall_mem_cons.mpr ⟨List.not_mem_nil, underscore_notMem_modifyHead hc ih⟩
  | case4 before c rest hc _ ih => exact underscore_notMem_modifyHead hc ih

theorem underscore_notMem_upperWords (name : String) :
    ∀ word ∈ upperWords name, '_' ∉ word.toList := by
  intro word hword hmem
  obtain ⟨w, hw, rfl⟩ := List.mem_map.mp hword
  rw [String.toList_ofList] at hmem
  obtain ⟨c, hc, hmem⟩ := List.mem_flatMap.mp hmem
  refine notMem_upperForm ?_ (by decide) hmem
  rintro rfl
  exact underscore_notMem_wordsAfter _ _ w hw hc

/-- Words are found again where they were joined. -/
theorem intercalate_inj {ws vs : List String} (hws : ws ≠ []) (hvs : vs ≠ [])
    (hw : ∀ word ∈ ws, '_' ∉ word.toList) (hv : ∀ word ∈ vs, '_' ∉ word.toList) :
    "_".intercalate ws = "_".intercalate vs ↔ ws = vs := by
  refine ⟨fun h => ?_, congrArg _⟩
  have hjoined := congrArg String.toList h
  rw [String.toList_intercalate, String.toList_intercalate] at hjoined
  have hsplit := congrArg (List.splitOn '_') hjoined
  have hback : ∀ {us : List String}, us ≠ [] → (∀ word ∈ us, '_' ∉ word.toList) →
      List.splitOn '_' ("_".toList.intercalate (us.map String.toList)) = us.map String.toList :=
    fun hus hu => List.splitOn_intercalate '_' (List.forall_mem_map.mpr hu) (by simpa using hus)
  rw [hback hws hw, hback hvs hv] at hsplit
  exact List.map_injective_iff.mpr (fun _ _ => String.toList_inj.mp) hsplit

/-- Two names have the same enumerator if they have the same words. -/
theorem enumeratorOf_inj {a b : String} :
    enumeratorOf a = enumeratorOf b ↔ upperWords a = upperWords b := by
  rw [enumeratorOf_eq, enumeratorOf_eq]
  exact intercalate_inj (upperWords_ne_nil a) (upperWords_ne_nil b)
    (underscore_notMem_upperWords a) (underscore_notMem_upperWords b)

/-- A name has the enumerator that is reserved if it has its words. -/
theorem enumeratorOf_eq_noPacket {name : String} :
    enumeratorOf name = noPacket ↔ upperWords name = ["INVALID", "PACKET", "ID"] := by
  have hreserved : noPacket = "_".intercalate ["INVALID", "PACKET", "ID"] := rfl
  rw [enumeratorOf_eq, hreserved]
  exact intercalate_inj (upperWords_ne_nil name) (by simp) (underscore_notMem_upperWords name)
    (by decide)

/-! ### The enumeration -/

/-- Lines, each behind the one before it. -/
theorem unlines_separated (first : String) (rest : List String) :
    unlines (("\t" ++ first) :: rest.map ("\t, " ++ ·)) =
      "\t" ++ "\n\t, ".intercalate (first :: rest) ++ "\n" := by
  suffices h : ∀ pre : String, unlines ((pre ++ first) :: rest.map ("\t, " ++ ·)) =
      pre ++ "\n\t, ".intercalate (first :: rest) ++ "\n" from h "\t"
  induction rest generalizing first with
  | nil =>
    intro pre
    simp [unlines]
  | cons second rest ih =>
    intro pre
    have hfeed : "\n\t, " = "\n" ++ "\t, " := rfl
    rw [List.map_cons, unlines_cons, ih second "\t, ", String.intercalate_cons_cons, hfeed]
    simp only [String.append_assoc]

/-- **When enumerators are different.** The enumeration lists the enumerator that is reserved and
then those of the packets. For packets that are valid, they are pairwise different exactly if no
packet's name has the words of the reserved one, and if no two packets have names of the same
words, letter case apart. -/
theorem enumerators_nodup_iff {packets : List Packet} (h : (validate packets).isValid = true) :
    enumerationCode packets = "\t" ++ "\n\t, ".intercalate
        ((noPacket ++ " = 0") :: packets.map (·.enumerator)) ++ "\n" ∧
      ((noPacket :: packets.map (·.enumerator)).Nodup ↔
        (∀ p ∈ packets, upperWords p.name ≠ ["INVALID", "PACKET", "ID"]) ∧
          ∀ p ∈ packets, ∀ q ∈ packets, upperWords p.name = upperWords q.name → p = q) := by
  constructor
  · have hlines := unlines_separated (noPacket ++ " = 0") (packets.map (·.enumerator))
    rw [List.map_map] at hlines
    exact hlines
  · have hnames := List.Nodup.of_map _ (nodup_names_of_isValid h)
    rw [List.nodup_cons, List.nodup_map_iff_inj_on hnames]
    refine and_congr ?_ ?_
    · simp only [List.mem_map, not_exists, not_and]
      exact forall₂_congr fun p _ => enumeratorOf_eq_noPacket.not
    · exact forall₂_congr fun p _ => forall₂_congr fun q _ => imp_congr enumeratorOf_inj Iff.rfl

/-- Names that differ in an underscore clash. -/
theorem enumerators_nodup_iff_underscore :
    let packets : List Packet :=
      [⟨.request, "FooBar", none, none⟩, ⟨.reply, "Foo_Bar", none, none⟩]
    (validate packets).isValid = true ∧
      ¬(noPacket :: packets.map (·.enumerator)).Nodup := by
  intro packets
  have hvalid : (validate packets).isValid = true := by decide
  refine ⟨hvalid, fun hnodup => ?_⟩
  have hsame := ((enumerators_nodup_iff hvalid).2.mp hnodup).2 ⟨.request, "FooBar", none, none⟩
    (by simp [packets]) ⟨.reply, "Foo_Bar", none, none⟩ (by simp [packets]) (by decide)
  cases hsame

end Packetry

import Packetry.Text.LowerCase
import Packetry.Proofs.Enumerators
import Mathlib.Data.List.Chain

/-!
# What an enumerator keeps of the name

The enumerator of a packet is its name in upper case with underscores put in. This module says that
nothing else happens to the name: without underscores the enumerator is the name in upper case
(`Packetry.bare_upperSnakeAfter`), and the underscores of the name stay what they are. None is put
where there is one already, so that the enumerator begins with one, ends with one or has two in a
row just where the name does, and the parts of a name that an underscore separates can be taken one
by one (`Packetry.upperSnakeAfter_append_underscore`).

Of the upper case forms only two facts are needed: none is empty, and the underscore is in none but
its own. A name of ASCII letters, digits and underscores is the case that is met in practice. Its
enumerator consists of such characters again, and a name that is written like an enumerator is its
own.
-/

namespace Packetry

open Text

/-- A text without its underscores. -/
def bare (text : List Char) : List Char :=
  text.filter (· != '_')

theorem bare_append (s t : List Char) : bare (s ++ t) = bare s ++ bare t :=
  List.filter_append s t

/-! ### One character -/

theorem upperForm_ne_nil (c : Char) : upperForm c ≠ [] := by
  unfold upperForm wideUpperForm
  split
  · simp
  · split
    · rename_i form hform
      obtain ⟨l₁, l₂, hl, -⟩ := List.lookup_eq_some_iff.mp hform
      have hne : form ≠ [] := (longUpperForms_ne (c.toNat, form) (by simp [hl])).1
      simpa using hne
    · split <;> simp

theorem upperForm_underscore : upperForm '_' = ['_'] := rfl

/-- An upper case form has an underscore only if it is that of the underscore. -/
theorem underscore_mem_upperForm {c : Char} : '_' ∈ upperForm c ↔ c = '_' := by
  constructor
  · intro h
    by_contra hc
    exact notMem_upperForm (Ne.symm hc) (by decide) h
  · rintro rfl
    simp [upperForm_underscore]

theorem head?_upperForm {c : Char} : (upperForm c).head? = some '_' ↔ c = '_' := by
  constructor
  · exact fun h => underscore_mem_upperForm.mp (List.mem_of_mem_head? h)
  · rintro rfl
    rw [upperForm_underscore]
    rfl

theorem getLast?_upperForm {c : Char} : (upperForm c).getLast? = some '_' ↔ c = '_' := by
  constructor
  · exact fun h => underscore_mem_upperForm.mp (List.mem_of_mem_getLast? h)
  · rintro rfl
    rw [upperForm_underscore]
    rfl

/-- A word begins neither at an underscore nor right behind one. -/
theorem beginsWord_ne_underscore {before c : Char} {after : List Char}
    (h : beginsWord before c after = true) : before ≠ '_' ∧ c ≠ '_' := by
  simp only [beginsWord, Bool.and_eq_true, bne_iff_ne] at h
  refine ⟨h.1.2, ?_⟩
  rintro rfl
  exact absurd h.1.1 (by decide)

theorem upperSnakeAfter_ne_nil (before : Char) {text : List Char} (h : text ≠ []) :
    upperSnakeAfter before text ≠ [] := by
  obtain ⟨c, rest, rfl⟩ := List.exists_cons_of_ne_nil h
  simp [upperSnakeAfter, upperForm_ne_nil]

/-! ### What is not a separator -/

/-- **Underscores apart, an enumerator is the name in upper case.** -/
theorem bare_upperSnakeAfter (before : Char) (text : List Char) :
    bare (upperSnakeAfter before text) = bare (upperCase text) := by
  fun_induction upperSnakeAfter before text with
  | case1 => rfl
  | case2 before c rest ih =>
    have hsep : bare (if beginsWord before c rest then ['_'] else []) = [] := by
      split <;> rfl
    rw [bare_append, bare_append, hsep, ih, upperCase, upperCase, List.flatMap_cons, bare_append]
    rfl

/-! ### The separators of the name -/

theorem head?_upperSnakeAfter_underscore (text : List Char) :
    (upperSnakeAfter '_' text).head? = some '_' ↔ text.head? = some '_' := by
  cases text with
  | nil => rfl
  | cons c rest =>
    have hbegins : beginsWord '_' c rest = false := by simp [beginsWord]
    rw [upperSnakeAfter, hbegins, if_neg Bool.false_ne_true, List.nil_append,
      List.head?_append_of_ne_nil _ (upperForm_ne_nil c), head?_upperForm]
    simp

theorem getLast?_upperSnakeAfter (before : Char) (text : List Char) :
    (upperSnakeAfter before text).getLast? = some '_' ↔ text.getLast? = some '_' := by
  fun_induction upperSnakeAfter before text with
  | case1 => rfl
  | case2 before c rest ih =>
    cases rest with
    | nil =>
      rw [upperSnakeAfter, List.append_nil, List.getLast?_append_of_ne_nil _ (upperForm_ne_nil c),
        getLast?_upperForm]
      simp
    | cons d rest =>
      rw [List.getLast?_append_of_ne_nil _ (upperSnakeAfter_ne_nil c (by simp)), ih,
        List.getLast?_cons_cons]

/-- Two underscores in a row, as a fact of neighbours. -/
theorem doubled_iff {text : List Char} : ['_', '_'] <:+: text ↔
    ¬text.IsChain fun c d => ¬(c = '_' ∧ d = '_') := by
  constructor
  · intro h hchain
    simpa using hchain.infix h
  · intro h
    by_contra hfree
    refine h ((List.isChain_isInfix text).imp fun c d hcd => ?_)
    rintro ⟨rfl, rfl⟩
    exact hfree hcd

/-- The characters that one character of the name leaves: among them there are no two underscores
in a row. -/
theorem isChain_upperForm (before c : Char) (rest : List Char) :
    ((if beginsWord before c rest then ['_'] else []) ++ upperForm c).IsChain
      fun c d => ¬(c = '_' ∧ d = '_') := by
  by_cases hc : c = '_'
  · subst hc
    have hbegins : ¬beginsWord before '_' rest := fun h => (beginsWord_ne_underscore h).2 rfl
    rw [if_neg hbegins, upperForm_underscore]
    exact List.isChain_singleton _
  · have hform : (upperForm c).IsChain fun c d => ¬(c = '_' ∧ d = '_') :=
      (List.isChain_isInfix _).imp fun a b hab hboth =>
        hc (underscore_mem_upperForm.mp (hab.subset (by simp [hboth.2])))
    refine List.isChain_append.mpr ⟨by split <;> simp, hform, fun a _ b hb hboth => ?_⟩
    exact hc (head?_upperForm.mp (hboth.2 ▸ hb))

/-- Two texts that are put together have no two underscores in a row where they meet. -/
theorem forall_ends_iff (last head : Option Char) :
    (∀ c ∈ last, ∀ d ∈ head, ¬(c = '_' ∧ d = '_')) ↔ ¬(last = some '_' ∧ head = some '_') := by
  cases last <;> cases head <;> simp

theorem isChain_upperSnakeAfter (before : Char) (text : List Char) :
    (upperSnakeAfter before text).IsChain (fun c d => ¬(c = '_' ∧ d = '_')) ↔
      text.IsChain fun c d => ¬(c = '_' ∧ d = '_') := by
  fun_induction upperSnakeAfter before text with
  | case1 => rfl
  | case2 before c rest ih =>
    -- Within the characters of `c` there is nothing to see, so that only the seam is left.
    have hseam : (upperForm c).getLast? = some '_' ∧ (upperSnakeAfter c rest).head? = some '_' ↔
        c = '_' ∧ rest.head? = some '_' := by
      rw [getLast?_upperForm]
      refine and_congr_right ?_
      rintro rfl
      exact head?_upperSnakeAfter_underscore rest
    have hcons : (c :: rest).IsChain (fun c d => ¬(c = '_' ∧ d = '_')) ↔
        rest.IsChain (fun c d => ¬(c = '_' ∧ d = '_')) ∧ ¬(c = '_' ∧ rest.head? = some '_') := by
      have hends := forall_ends_iff (some c) rest.head?
      rw [List.isChain_cons, and_comm]
      simpa using fun _ => hends
    rw [List.isChain_append, ih, and_iff_right (isChain_upperForm before c rest),
      List.getLast?_append_of_ne_nil _ (upperForm_ne_nil c), forall_ends_iff, hseam, hcons]

/-- **The enumerator has two underscores in a row only where the name has them.** -/
theorem doubled_upperSnakeAfter (before : Char) (text : List Char) :
    ['_', '_'] <:+: upperSnakeAfter before text ↔ ['_', '_'] <:+: text := by
  rw [doubled_iff, doubled_iff, isChain_upperSnakeAfter]

/-- Whether a word begins at a character can be told before the next underscore. -/
theorem beginsWord_append_underscore (before c : Char) (rest t : List Char) :
    beginsWord before c (rest ++ '_' :: t) = beginsWord before c rest := by
  have hlower : isLower '_' = false := rfl
  cases rest with
  | nil => simp [beginsWord, hlower]
  | cons d rest => rfl

/-- **Parts that an underscore separates are taken one by one.** -/
theorem upperSnakeAfter_append_underscore (before : Char) (s t : List Char) :
    upperSnakeAfter before (s ++ '_' :: t) =
      upperSnakeAfter before s ++ '_' :: upperSnakeAfter '_' t := by
  induction s generalizing before with
  | nil => exact upperSnakeAfter_underscore before t
  | cons c rest ih =>
    rw [List.cons_append, upperSnakeAfter, upperSnakeAfter, beginsWord_append_underscore, ih,
      List.append_assoc _ _ ('_' :: _)]

/-! ### Names of ASCII letters, digits and underscores -/

/-- An ASCII letter, a digit or an underscore. -/
def isWordChar (c : Char) : Bool :=
  c.isAlphanum || c == '_'

/-- An ASCII capital, a digit or an underscore. -/
def isUpperWordChar (c : Char) : Bool :=
  c.isUpper || c.isDigit || c == '_'

theorem toNat_lt_of_isWordChar {c : Char} (h : isWordChar c = true) : c.toNat < 0x80 := by
  have hcases : ((c.isUpper = true ∨ c.isLower = true) ∨ c.isDigit = true) ∨ c = '_' :=
    (Bool.or_eq_true_iff.mp h).imp
      (fun h => (Bool.or_eq_true_iff.mp h).imp_left Bool.or_eq_true_iff.mp) beq_iff_eq.mp
  -- Of the range of such characters only the upper end counts.
  obtain ((h | h) | h) | rfl := hcases
  · have hend : c.val ≤ 'Z'.val := (of_decide_eq_true h).2
    exact Nat.lt_of_le_of_lt hend (by decide)
  · have hend : c.val ≤ 'z'.val := of_decide_eq_true (Bool.and_eq_true_iff.mp h).2
    exact Nat.lt_of_le_of_lt hend (by decide)
  · have hend : c.val ≤ '9'.val := of_decide_eq_true (Bool.and_eq_true_iff.mp h).2
    exact Nat.lt_of_le_of_lt hend (by decide)
  · decide

theorem upperForm_of_lt {c : Char} (h : c.toNat < 0x80) : upperForm c = [c.toUpper] :=
  if_pos h

/-- In upper case such a character is one of them that is no small letter. -/
theorem toUpper_of_isWordChar {c : Char} (h : isWordChar c = true) :
    isUpperWordChar c.toUpper = true ∧ (c.isLower = false → c.toUpper = c) := by
  have htable : ∀ n < 0x80, isWordChar (Char.ofNat n) = true →
      isUpperWordChar (Char.ofNat n).toUpper = true ∧
        ((Char.ofNat n).isLower = false → (Char.ofNat n).toUpper = Char.ofNat n) := by
    decide
  simpa [h] using htable c.toNat (toNat_lt_of_isWordChar h)

theorem isLower_of_isWordChar {c : Char} (h : isWordChar c = true) : isLower c = c.isLower :=
  if_pos (toNat_lt_of_isWordChar h)

theorem isUpper_of_isWordChar {c : Char} (h : isWordChar c = true) : isUpper c = c.isUpper :=
  if_pos (toNat_lt_of_isWordChar h)

theorem isUpperWordChar_upperSnakeAfter (before : Char) (text : List Char)
    (h : ∀ c ∈ text, isWordChar c = true) :
    ∀ c ∈ upperSnakeAfter before text, isUpperWordChar c = true := by
  fun_induction upperSnakeAfter before text with
  | case1 => simp
  | case2 before c rest ih =>
    obtain ⟨hc, hrest⟩ := List.forall_mem_cons.mp h
    have hsep : ∀ d ∈ if beginsWord before c rest then ['_'] else [],
        isUpperWordChar d = true := by
      split
      · simp [isUpperWordChar]
      · simp
    have hform : ∀ d ∈ upperForm c, isUpperWordChar d = true := by
      simpa [upperForm_of_lt (toNat_lt_of_isWordChar hc)] using (toUpper_of_isWordChar hc).1
    exact List.forall_mem_append.mpr ⟨List.forall_mem_append.mpr ⟨hsep, hform⟩, ih hrest⟩

/-- In a name that has no lower case letter, a word begins at no character but a letter that
follows a digit. -/
theorem beginsWord_of_upper {before c : Char} {rest : List Char}
    (h : ∀ d ∈ before :: c :: rest, isWordChar d = true ∧ d.isLower = false)
    (hpair : ¬(before.isDigit = true ∧ c.isAlpha = true)) : beginsWord before c rest = false := by
  have hlower : ∀ d ∈ before :: c :: rest, isLower d = false := fun d hd =>
    (isLower_of_isWordChar (h d hd).1).trans (h d hd).2
  have hnext : rest.head?.any isLower = false := by
    cases rest with
    | nil => rfl
    | cons d rest => exact hlower d (by simp)
  have hdigit : isUpper c = true → before.isDigit = false := by
    intro hc
    rw [isUpper_of_isWordChar (h c (by simp)).1] at hc
    have halpha : c.isAlpha = true := Bool.or_eq_true_iff.mpr (Or.inl hc)
    simpa [halpha] using hpair
  rw [beginsWord, hnext, hlower before (by simp)]
  cases hc : isUpper c with
  | false => rfl
  | true => simp [hdigit hc]

/-- **A name that is written like an enumerator is its own enumerator.** -/
theorem upperSnakeAfter_eq_self {before : Char} {text : List Char}
    (h : ∀ c ∈ before :: text, isWordChar c = true ∧ c.isLower = false)
    (hchain : (before :: text).IsChain fun c d => ¬(c.isDigit = true ∧ d.isAlpha = true)) :
    upperSnakeAfter before text = text := by
  induction text generalizing before with
  | nil => rfl
  | cons c rest ih =>
    obtain ⟨hpair, hrest⟩ := List.isChain_cons_cons.mp hchain
    obtain ⟨hword, hlower⟩ := h c (by simp)
    have hform : upperForm c = [c] := by
      rw [upperForm_of_lt (toNat_lt_of_isWordChar hword), (toUpper_of_isWordChar hword).2 hlower]
    rw [upperSnakeAfter, beginsWord_of_upper h hpair, if_neg Bool.false_ne_true, hform,
      ih (List.forall_mem_cons.mp h).2 hrest]
    rfl

/-! ### Enumerators -/

theorem toList_enumeratorOf (name : String) :
    (enumeratorOf name).toList = upperSnakeAfter '_' name.toList := by
  rw [enumeratorOf, String.toList_ofList, upperSnake_eq]

/-- **An enumerator only separates the words of the name.**
* Without underscores it is the name in upper case without underscores, so that names with one
  enumerator differ in letter case and underscores at most.
* It begins with an underscore, ends with one or has two in a row exactly if the name does.
* Parts of a name that an underscore separates are taken one by one.
* Of ASCII letters, digits and underscores it makes ASCII capitals, digits and underscores. Where
  there is no lower case letter, and no digit right before a letter, the name is left as it is. -/
theorem enumeratorOf_only_separates (a b : String) :
    (bare (enumeratorOf a).toList = bare (upperCase a.toList) ∧
      (enumeratorOf a = enumeratorOf b →
        bare (upperCase a.toList) = bare (upperCase b.toList))) ∧
    ((['_'] <+: (enumeratorOf a).toList ↔ ['_'] <+: a.toList) ∧
      (['_'] <:+ (enumeratorOf a).toList ↔ ['_'] <:+ a.toList) ∧
      (['_', '_'] <:+: (enumeratorOf a).toList ↔ ['_', '_'] <:+: a.toList)) ∧
    enumeratorOf (a ++ "_" ++ b) = enumeratorOf a ++ "_" ++ enumeratorOf b ∧
    ((∀ c ∈ a.toList, isWordChar c = true) →
      (∀ c ∈ (enumeratorOf a).toList, isUpperWordChar c = true) ∧
        ((∀ c ∈ a.toList, c.isLower = false) →
          (∀ c d, [c, d] <:+: a.toList → ¬(c.isDigit = true ∧ d.isAlpha = true)) →
          enumeratorOf a = a)) := by
  have hbare : ∀ name : String, bare (enumeratorOf name).toList = bare (upperCase name.toList) :=
    fun name => by rw [toList_enumeratorOf, bare_upperSnakeAfter]
  refine ⟨⟨hbare a, fun h => ?_⟩, ⟨?_, ?_, ?_⟩, ?_, fun hword => ⟨?_, fun hlower hpair => ?_⟩⟩
  · rw [← hbare a, ← hbare b, h]
  · rw [toList_enumeratorOf, List.singleton_prefix_iff_head?_eq_some,
      head?_upperSnakeAfter_underscore, List.singleton_prefix_iff_head?_eq_some]
  · rw [toList_enumeratorOf, List.singleton_suffix_iff_getLast?_eq_some, getLast?_upperSnakeAfter,
      List.singleton_suffix_iff_getLast?_eq_some]
  · rw [toList_enumeratorOf, doubled_upperSnakeAfter]
  · have happend := upperSnakeAfter_append_underscore '_' a.toList b.toList
    rw [← String.toList_inj]
    simpa [toList_enumeratorOf] using happend
  · rw [toList_enumeratorOf]
    exact isUpperWordChar_upperSnakeAfter '_' a.toList hword
  · have hchain : ('_' :: a.toList).IsChain fun c d => ¬(c.isDigit = true ∧ d.isAlpha = true) :=
      List.isChain_cons.mpr ⟨by simp, (List.isChain_isInfix a.toList).imp hpair⟩
    have hself : upperSnakeAfter '_' a.toList = a.toList :=
      upperSnakeAfter_eq_self (List.forall_mem_cons.mpr
        ⟨by decide, fun c hc => ⟨hword c hc, hlower c hc⟩⟩) hchain
    rw [← String.toList_inj, toList_enumeratorOf, hself]

/-- Two names with one enumerator, and a name that is its own. -/
theorem enumeratorOf_only_separates_acronym :
    enumeratorOf "HTTPServer_v2" = enumeratorOf "http_server_V2" ∧
      bare (upperCase "HTTPServer_v2".toList) = bare (upperCase "http_server_V2".toList) ∧
      enumeratorOf "LOGIN_2" = "LOGIN_2" := by
  have hserver := enumeratorOf_only_separates "HTTPServer_v2" "http_server_V2"
  have hlogin := enumeratorOf_only_separates "LOGIN_2" ""
  have hsame : enumeratorOf "HTTPServer_v2" = enumeratorOf "http_server_V2" := by decide
  have hchain : "LOGIN_2".toList.IsChain fun c d => ¬(c.isDigit = true ∧ d.isAlpha = true) := by
    decide
  have hword : "LOGIN_2".toList.all isWordChar = true := by decide
  have hupper : "LOGIN_2".toList.any Char.isLower = false := by decide
  refine ⟨hsame, hserver.1.2 hsame,
    (hlogin.2.2.2 (List.all_eq_true.mp hword)).2 (fun c hc => ?_) fun c d hcd => ?_⟩
  · simpa using List.any_eq_false.mp hupper c hc
  · exact List.isChain_pair.mp <| hchain.infix hcd

end Packetry

import Packetry.Proofs.Additions
import Mathlib.Data.List.Basic
import Mathlib.Data.List.TakeWhile

/-!
# Texts that are put behind one another

Handlers are added behind an interior that anybody may have written. What is found in the two
together is what is found in each of them (`Packetry.HandlerForm.namesFrom_append`), provided that
nothing is read across the *seam*: what is read off a text must be the same if more comes behind.

The first text ends with a line feed. Most of a handler cannot be read beyond that, as its words
do not have one; only where white space may stand is it a matter of what comes behind, and that
is then all that decides. So each reader is *steady* (`Packetry.Steady`) under a condition on the
text behind, and these conditions hold of a definition that was written, whatever the class.
-/

namespace Packetry

open Text

variable {form : HandlerForm} {before : Option Char} {text more : List Char}

/-! ### The scan -/

/-- If nothing is read across the seam, the handlers in two texts are those of the one and then
those of the other. -/
theorem HandlerForm.namesFrom_append {skip : Nat} (hskip : skip ≤ text.length)
    (h : ∀ before rest, rest ≠ [] → rest <:+ text → form.here? before (rest ++ more) =
      (form.here? before rest).map (Prod.map id (· ++ more))) :
    form.namesFrom before skip (text ++ more) =
      form.namesFrom before skip text ++ form.namesFrom (text.getLast?.or before) 0 more := by
  induction text generalizing before skip with
  | nil =>
    obtain rfl : skip = 0 := Nat.le_zero.mp hskip
    rfl
  | cons c text ih =>
    have hrest := fun before rest hne (hsuffix : rest <:+ text) =>
      h before rest hne (hsuffix.trans (List.suffix_cons c text))
    rw [getLast?_cons_or, List.cons_append]
    cases skip with
    | succ skip =>
      rw [namesFrom, namesFrom, ih (Nat.le_of_succ_le_succ hskip) hrest]
    | zero =>
      have hhere := h before (c :: text) (List.cons_ne_nil c text) List.suffix_rfl
      rw [List.cons_append] at hhere
      rw [namesFrom, namesFrom, hhere]
      cases form.here? before (c :: text) with
      | none => exact ih (Nat.zero_le _) hrest
      | some found =>
        obtain ⟨name, rest⟩ := found
        -- The scan skips as many characters with the second text behind the first as without it.
        have hcount : (text ++ more).length - (rest ++ more).length =
            text.length - rest.length := by
          simp only [List.length_append]
          omega
        simp only [Option.map_some, Prod.map_apply, id_eq, hcount, List.cons_append]
        rw [ih (Nat.sub_le _ _) hrest]

/-! ### Readers -/

/-- A text that ends with a line feed. -/
def EndsLine (text : List Char) : Prop :=
  text.getLast? = some '\n'

theorem EndsLine.of_suffix {rest : List Char} (h : EndsLine text) (hne : rest ≠ [])
    (hrest : rest <:+ text) : EndsLine rest := by
  obtain ⟨front, rfl⟩ := hrest
  rw [EndsLine, List.getLast?_append_of_ne_nil _ hne] at h
  exact h

/-- A part at the end of whole lines ends with a line feed. -/
theorem endsLine_of_suffix {rest : List Char} (h : startsLine text.getLast? = true)
    (hne : rest ≠ []) (hrest : rest <:+ text) : EndsLine rest := by
  obtain ⟨front, rfl⟩ := hrest
  rw [List.getLast?_append_of_ne_nil _ hne] at h
  rw [EndsLine, List.getLast?_eq_some_getLast hne] at *
  simpa [startsLine] using h

theorem EndsLine.mem (h : EndsLine text) : '\n' ∈ text :=
  List.mem_of_getLast? h

/-- What was read off a text, and off the text with more behind it: nothing both times, or the
same, and then what is left of the text still ends with a line feed. -/
def Steady {α : Type} (more : List Char) (alone together : Option (α × List Char)) : Prop :=
  alone = none ∧ together = none ∨
    ∃ a rest, EndsLine rest ∧ alone = some (a, rest) ∧ together = some (a, rest ++ more)

theorem steady_none {α : Type} (more : List Char) : Steady (α := α) more none none :=
  .inl ⟨rfl, rfl⟩

theorem steady_some {α : Type} {a : α} {rest : List Char} (h : EndsLine rest)
    (more : List Char) : Steady more (some (a, rest)) (some (a, rest ++ more)) :=
  .inr ⟨a, rest, h, rfl, rfl⟩

theorem Steady.eq_map {α : Type} {alone together : Option (α × List Char)}
    (h : Steady more alone together) : together = alone.map (Prod.map id (· ++ more)) := by
  obtain ⟨rfl, rfl⟩ | ⟨a, rest, -, rfl, rfl⟩ := h
  · rfl
  · rfl

/-- A literal is not read across a line feed. -/
theorem behind?_cases {literal : List Char} (hliteral : '\n' ∉ literal) (h : EndsLine text)
    (more : List Char) :
    behind? literal text = none ∧ behind? literal (text ++ more) = none ∨
      ∃ rest, EndsLine rest ∧ behind? literal text = some rest ∧
        behind? literal (text ++ more) = some (rest ++ more) := by
  fun_induction behind? literal text with
  | case1 text => exact .inr ⟨text, h, rfl, rfl⟩
  | case2 literal c text ih =>
    have hne : text ≠ [] := by
      rintro rfl
      obtain rfl : c = '\n' := by simpa [EndsLine] using h
      exact hliteral List.mem_cons_self
    have hrest := ih (fun hmem => hliteral (List.mem_cons_of_mem _ hmem))
      (h.of_suffix hne (List.suffix_cons c text))
    simpa [behind?] using hrest
  | case3 l literal c text hc => exact .inl ⟨rfl, if_neg hc⟩
  | case4 => simp [EndsLine] at h

/-- Behind white space is the rest of the text, or what comes behind the text. -/
theorem behindBlanks_cases (h : EndsLine text) (more : List Char) :
    behindBlanks text = [] ∧ behindBlanks (text ++ more) = behindBlanks more ∨
      EndsLine (behindBlanks text) ∧ behindBlanks (text ++ more) = behindBlanks text ++ more := by
  by_cases hblank : text.dropWhile isBlank = []
  · refine .inl ⟨hblank, ?_⟩
    rw [behindBlanks, List.dropWhile_append, if_pos (by simpa using hblank), behindBlanks]
  · exact .inr ⟨h.of_suffix hblank (List.dropWhile_suffix _), dropWhile_append_of_ne hblank⟩

/-- A name is not read across a line feed. -/
theorem name?_steady (h : EndsLine text) (more : List Char) :
    Steady more (name? text) (name? (text ++ more)) := by
  have hdrop : text.dropWhile isWord ≠ [] := by
    intro hnil
    have hword := List.dropWhile_eq_nil_iff.mp hnil '\n' h.mem
    exact absurd hword (by decide)
  have hrest : (text ++ more).dropWhile isWord = text.dropWhile isWord ++ more := by
    rw [List.dropWhile_append, if_neg (by simpa using hdrop)]
  have hname : (text ++ more).takeWhile isWord = text.takeWhile isWord := by
    have hparts := (text ++ more).takeWhile_append_dropWhile (p := isWord)
    have htext := text.takeWhile_append_dropWhile (p := isWord)
    rw [hrest, ← List.append_assoc] at hparts
    have hboth := List.append_cancel_right hparts
    exact List.append_cancel_right (hboth.trans htext.symm)
  rw [name?, name?, hname, hrest]
  cases text.takeWhile isWord with
  | nil => exact steady_none more
  | cons c name => exact steady_some (h.of_suffix hdrop (List.dropWhile_suffix _)) more

/-- The name of a handler is not read across the seam, unless a parenthesis opens there. -/
theorem handlerName?_steady (h : EndsLine text)
    (hmore : behind? ['('] (behindBlanks more) = none) :
    Steady more (handlerName? text) (handlerName? (text ++ more)) := by
  have heq : ∀ text, handlerName? text = (behind? "On".toList text).bind fun text =>
      (name? text).bind fun found =>
        (behind? ['('] (behindBlanks found.2)).bind fun text => some (found.1, text) :=
    fun text => rfl
  rw [heq, heq]
  rcases behind?_cases (by decide : '\n' ∉ "On".toList) h more with
    ⟨hnone, hnone'⟩ | ⟨rest, hrest, hsome, hsome'⟩
  · rw [hnone, hnone']
    exact steady_none more
  rw [hsome, hsome', Option.bind_some, Option.bind_some]
  rcases name?_steady hrest more with ⟨hnone, hnone'⟩ | ⟨name, rest, hrest, hsome, hsome'⟩
  · rw [hnone, hnone']
    exact steady_none more
  rw [hsome, hsome', Option.bind_some, Option.bind_some]
  dsimp only
  rcases behindBlanks_cases hrest more with ⟨hnil, hnil'⟩ | ⟨hends, hblanks⟩
  · rw [hnil, hnil', hmore]
    exact steady_none more
  rw [hblanks]
  rcases behind?_cases (by decide : '\n' ∉ ['(']) hends more with
    ⟨hnone, hnone'⟩ | ⟨rest, hrest, hsome, hsome'⟩
  · rw [hnone, hnone']
    exact steady_none more
  · rw [hsome, hsome']
    exact steady_some hrest more

/-! ### Definitions -/

section Definitions

variable {C : String}

/-- A member function is not read across the seam, unless its class or its parenthesis comes
right behind it. -/
theorem member?_steady (hC : '\n' ∉ C.toList) (h : EndsLine text)
    (hmember : member? C.toList more = none) (hmore : behind? ['('] (behindBlanks more) = none) :
    Steady more (member? C.toList text) (member? C.toList (text ++ more)) := by
  have hclass : '\n' ∉ C.toList ++ "::".toList := by
    rw [List.mem_append, not_or]
    exact ⟨hC, by decide⟩
  induction text with
  | nil => cases h
  | cons c text ih =>
    -- The tail is read only if nothing is read here.
    have htail : Steady more (if isBlank c then member? C.toList text else none)
        (if isBlank c then member? C.toList (text ++ more) else none) := by
      split
      · by_cases hne : text = []
        · subst hne
          rw [List.nil_append, hmember]
          exact steady_none more
        · exact ih (h.of_suffix hne (List.suffix_cons c text))
      · exact steady_none more
    rw [List.cons_append, member?, member?, ← List.cons_append]
    rcases behind?_cases hclass h more with ⟨hnone, hnone'⟩ | ⟨rest, hrest, hsome, hsome'⟩
    · rw [hnone, hnone']
      exact htail
    rw [hsome, hsome', Option.bind_some, Option.bind_some]
    rcases handlerName?_steady hrest hmore with ⟨hnone, hnone'⟩ | ⟨name, rest, hrest, hsome, hsome'⟩
    · rw [hnone, hnone']
      exact htail
    · rw [hsome, hsome']
      exact steady_some hrest more

theorem definition?_steady (hC : '\n' ∉ C.toList) (h : EndsLine text)
    (hmember : member? C.toList more = none) (hmore : behind? ['('] (behindBlanks more) = none) :
    Steady more (definition? C.toList text) (definition? C.toList (text ++ more)) := by
  unfold definition?
  rcases behind?_cases (by decide : '\n' ∉ "void".toList) h more with
    ⟨hnone, hnone'⟩ | ⟨rest, hrest, hsome, hsome'⟩
  · rw [hnone, hnone']
    exact steady_none more
  rw [hsome, hsome']
  simp only [bind, Option.bind]
  cases rest with
  | nil => cases hrest
  | cons c rest =>
    simp only [List.cons_append]
    split
    · by_cases hne : rest = []
      · subst hne
        rw [List.nil_append, hmember]
        exact steady_none more
      · exact member?_steady hC (hrest.of_suffix hne (List.suffix_cons c rest)) hmember hmore
    · exact steady_none more

/-- Behind whole lines, a text is read as if it stood by itself, unless it begins like what a
definition goes on with. -/
theorem namesFrom_definition_append (hC : '\n' ∉ C.toList) (h : startsLine text.getLast? = true)
    (hmember : member? C.toList more = none) (hmore : behind? ['('] (behindBlanks more) = none) :
    (HandlerForm.definition C).namesFrom before 0 (text ++ more) =
      (HandlerForm.definition C).namesFrom before 0 text ++
        (HandlerForm.definition C).namesFrom (text.getLast?.or before) 0 more := by
  refine HandlerForm.namesFrom_append (Nat.zero_le _) fun before rest hne hrest => ?_
  have hsteady := definition?_steady hC (endsLine_of_suffix h hne hrest) hmember hmore
  have hhere : ∀ text, (HandlerForm.definition C).here? before text =
      if startsWord before then definition? C.toList text else none := fun text => rfl
  rw [hhere, hhere]
  split
  · exact hsteady.eq_map
  · rfl

/-- What a definition that was written begins with. -/
theorem IsHandler.definition_eq {name : String} {block : List String}
    (h : IsHandler (.definition C) name block) (rest : List Char) :
    ∃ tail, (block.map lineOf).flatten ++ rest = "void".toList ++ ' ' :: tail := by
  cases h with
  | @definition p C reply? hC hname hreply =>
    rw [Packet.stubLines, List.append_assoc, List.cons_append, List.map_cons, List.flatten_cons,
      lineOf_stubLine]
    exact ⟨_, rfl⟩

/-- **Definitions that were written are found behind any interior**, next to those that are found
in it: none is lost, and none turns up that nobody wrote. -/
theorem names_append_definitions {blocks : List (String × List String)} (hC : IsUnspaced C)
    (htext : startsLine text.getLast? = true)
    (h : ∀ block ∈ blocks, IsHandler (.definition C) block.1 block.2) :
    (HandlerForm.definition C).names (text ++ handlerText blocks) =
      (HandlerForm.definition C).names text ++ blocks.map (·.1) := by
  have hseam : member? C.toList (handlerText blocks) = none ∧
      behind? ['('] (behindBlanks (handlerText blocks)) = none := by
    cases blocks with
    | nil => exact ⟨rfl, rfl⟩
    | cons block blocks =>
      rw [handlerText, List.flatMap_cons, List.map_append, List.flatten_append]
      obtain ⟨tail, htail⟩ := (h block List.mem_cons_self).definition_eq
        ((blocks.flatMap (·.2)).map lineOf).flatten
      rw [htail]
      exact ⟨member?_eq_none hC (by decide) (by decide) (by decide) (by decide) tail, rfl⟩
  have hbefore : startsLine (text.getLast?.or none) = true := by
    rwa [Option.or_none]
  rw [HandlerForm.names, namesFrom_definition_append (hC.not_mem (by decide)) htext hseam.1 hseam.2,
    handlerText, namesFrom_handlers h hbefore, List.map_append, List.map_map]
  refine congrArg (_ ++ ·) (List.map_congr_left fun block _ => ?_)
  exact String.ofList_toList

end Definitions

end Packetry

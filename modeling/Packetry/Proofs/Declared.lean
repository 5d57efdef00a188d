import Packetry.Proofs.Seams

/-!
# Declarations that were left open

The parameters of a declaration are all that stands before the first closing parenthesis, over as
many lines as that takes. If an interior holds a declaration whose parameter list is never closed,
it is no declaration – until one is added behind it. Then its parameters reach into the first line
that was added, and the two are read as one declaration, under the name of the one that was left
open (`Packetry.names_append_declarations`).

So merging the declarations of a schema into a region is not settled at once. A declaration that
was added but taken over in this way is missing when the same schema is merged again, and it is
added a second time; only then is nothing missing any more
(`Packetry.Document.merge_declarations_again`). For definitions there is no such case, as a
definition is recognised by what stands before its parameters.
-/

namespace Packetry

open Text

variable {before : Option Char} {text more rest : List Char}

/-! ### The two ends of a declaration -/

/-- The beginning of a declaration at the start of a text: the name, and the text behind the
parenthesis that opens its parameter list. -/
def opens? (text : List Char) : Option (List Char × List Char) := do
  let text ← behind? "void".toList (behindBlanks text)
  handlerName? (← behindSomeBlanks? text)

/-- The end of a declaration: the text behind the parenthesis that closes its parameter list and
behind its semicolon. -/
def closes? (text : List Char) : Option (List Char) := do
  let text ← behind? [')'] (text.dropWhile (· ≠ ')'))
  behind? [';'] (behindBlanks text)

theorem declaration?_eq (text : List Char) : declaration? text =
    (opens? text).bind fun found => (closes? found.2).map fun rest => (found.1, rest) := by
  simp only [declaration?, opens?, closes?, bind, Option.map_eq_bind, Option.bind_assoc]
  rfl

/-- A text and the text behind a part of it that closes no parenthesis. -/
def StaysOpen (text rest : List Char) : Prop :=
  ∃ front, text = front ++ rest ∧ ')' ∉ front

theorem StaysOpen.trans {further : List Char} (h : StaysOpen text rest)
    (h' : StaysOpen rest further) : StaysOpen text further := by
  obtain ⟨front, rfl, hfront⟩ := h
  obtain ⟨front', rfl, hfront'⟩ := h'
  exact ⟨front ++ front', by rw [List.append_assoc], by simp [hfront, hfront']⟩

theorem StaysOpen.mem (h : StaysOpen text rest) (hmem : ')' ∈ text) : ')' ∈ rest := by
  obtain ⟨front, rfl, hfront⟩ := h
  exact (List.mem_append.mp hmem).resolve_left hfront

theorem staysOpen_behind? {literal : List Char} (hliteral : ')' ∉ literal)
    (h : behind? literal text = some rest) : StaysOpen text rest :=
  ⟨literal, behind?_eq_some_iff.mp h, hliteral⟩

theorem staysOpen_dropWhile {p : Char → Bool} (hp : p ')' = false) (text : List Char) :
    StaysOpen text (text.dropWhile p) := by
  refine ⟨text.takeWhile p, List.takeWhile_append_dropWhile.symm, fun hmem => ?_⟩
  rw [List.mem_takeWhile_imp hmem] at hp
  cases hp

theorem staysOpen_behindSomeBlanks? (h : behindSomeBlanks? text = some rest) :
    StaysOpen text rest := by
  cases text with
  | nil => cases h
  | cons c text =>
    rw [behindSomeBlanks?] at h
    split at h
    · rename_i hc
      cases h
      have htail := staysOpen_dropWhile (p := isBlank) (by decide) (c :: text)
      rwa [List.dropWhile_cons_of_pos hc] at htail
    · cases h

theorem staysOpen_handlerName? {name : List Char} (h : handlerName? text = some (name, rest)) :
    StaysOpen text rest := by
  obtain ⟨behindOn, hbehindOn, h⟩ := Option.bind_eq_some_iff.mp h
  obtain ⟨⟨name', behindName⟩, hname, h⟩ := Option.bind_eq_some_iff.mp h
  obtain ⟨behindParen, hparen, h⟩ := Option.bind_eq_some_iff.mp h
  cases h
  have hdrop : behindName = behindOn.dropWhile isWord := by
    unfold name? at hname
    split at hname
    · cases hname
    · exact (Prod.mk.inj (Option.some.inj hname)).2.symm
  subst hdrop
  exact (staysOpen_behind? (by decide) hbehindOn).trans
    ((staysOpen_dropWhile (by decide) _).trans
      ((staysOpen_dropWhile (by decide) _).trans (staysOpen_behind? (by decide) hparen)))

/-- No parenthesis is closed before the parameters of a declaration. -/
theorem staysOpen_opens? {name : List Char} (h : opens? text = some (name, rest)) :
    StaysOpen text rest := by
  obtain ⟨behindVoid, hvoid, h⟩ := Option.bind_eq_some_iff.mp h
  obtain ⟨behindSome, hsome, h⟩ := Option.bind_eq_some_iff.mp h
  exact (staysOpen_dropWhile (by decide) _).trans ((staysOpen_behind? (by decide) hvoid).trans
    ((staysOpen_behindSomeBlanks? hsome).trans (staysOpen_handlerName? h)))

/-- What is behind the last parenthesis of a declaration. -/
theorem exists_of_closes? (h : closes? text = some rest) : ∃ front blanks,
    text = front ++ ')' :: (blanks ++ ';' :: rest) ∧ ∀ c ∈ blanks, isBlank c = true := by
  obtain ⟨behindParen, hparen, h⟩ := Option.bind_eq_some_iff.mp h
  have hblanks : behindParen = behindParen.takeWhile isBlank ++ ';' :: rest := by
    have hsemicolon : behindBlanks behindParen = ';' :: rest := behind?_eq_some_iff.mp h
    rw [← hsemicolon]
    exact List.takeWhile_append_dropWhile.symm
  refine ⟨text.takeWhile (· ≠ ')'), behindParen.takeWhile isBlank, ?_,
    fun c hc => List.mem_takeWhile_imp hc⟩
  rw [← hblanks]
  have hdrop : text.dropWhile (· ≠ ')') = ')' :: behindParen := behind?_eq_some_iff.mp hparen
  rw [← hdrop, List.takeWhile_append_dropWhile]

theorem exists_of_declaration? {name : List Char} (h : declaration? text = some (name, rest)) :
    ∃ front blanks, text = front ++ ')' :: (blanks ++ ';' :: rest) ∧
      ∀ c ∈ blanks, isBlank c = true := by
  rw [declaration?_eq] at h
  obtain ⟨found, hopens, h⟩ := Option.bind_eq_some_iff.mp h
  obtain ⟨rest', hcloses, h⟩ := Option.map_eq_some_iff.mp h
  cases h
  obtain ⟨front, htext, -⟩ := staysOpen_opens? hopens
  obtain ⟨front', blanks, hparameters, hblanks⟩ := exists_of_closes? hcloses
  refine ⟨front ++ front', blanks, ?_, hblanks⟩
  rw [htext, hparameters, List.append_assoc]

/-! ### Open parameter lists -/

/-- The name of a declaration at the start of a text whose parameter list the text does not
close. -/
def opening? (text : List Char) : Option (List Char) :=
  (opens? text).bind fun found => if ')' ∈ found.2 then none else some found.1

/-- The name of the first declaration that is left open in a text behind a character. -/
def openedFrom (before : Option Char) : List Char → Option (List Char)
  | [] => none
  | c :: text =>
    (if startsLine before then opening? (c :: text) else none) <|> openedFrom (some c) text

/-- The name of the first declaration that is left open in a text. -/
def opened? (text : List Char) : Option String :=
  (openedFrom none text).map String.ofList

theorem opening?_eq_some {name : List Char} (h : opening? text = some name) : ')' ∉ text := by
  obtain ⟨found, hopens, hname⟩ := Option.bind_eq_some_iff.mp h
  split at hname
  · cases hname
  · rename_i hno
    exact fun hmem => hno ((staysOpen_opens? hopens).mem hmem)

theorem opening?_of_mem (h : ')' ∈ text) : opening? text = none := by
  cases hopening : opening? text with
  | none => rfl
  | some name => exact absurd h (opening?_eq_some hopening)

/-- Behind white space and something that does not begin like a declaration, none is open. -/
theorem opens?_of_behindBlanks (h : behind? "void".toList (behindBlanks text) = none) :
    opens? text = none := by
  rw [opens?, h]
  rfl

theorem openedFrom_cons_of_none {c : Char} (h : opening? (c :: text) = none) :
    openedFrom before (c :: text) = openedFrom (some c) text := by
  rw [openedFrom, h, ite_self]
  rfl

/-- Up to a closing parenthesis, nothing is left open. -/
theorem openedFrom_append_paren (front : List Char) :
    openedFrom before (front ++ ')' :: text) = openedFrom (some ')') text := by
  induction front generalizing before with
  | nil => exact openedFrom_cons_of_none (opening?_of_mem List.mem_cons_self)
  | cons c front ih =>
    rw [List.cons_append, openedFrom_cons_of_none (opening?_of_mem (by simp)), ih]

theorem openedFrom_append_blanks {blanks : List Char} (h : ∀ c ∈ blanks, isBlank c = true) :
    openedFrom before (blanks ++ ';' :: text) = openedFrom (some ';') text := by
  induction blanks generalizing before with
  | nil => exact openedFrom_cons_of_none rfl
  | cons c blanks ih =>
    have hbehind : behindBlanks (c :: (blanks ++ ';' :: text)) = ';' :: text := by
      rw [behindBlanks, ← List.cons_append, List.dropWhile_append_of_pos h]
      exact List.dropWhile_cons_of_neg (by decide)
    have hopens : opens? (c :: (blanks ++ ';' :: text)) = none :=
      opens?_of_behindBlanks (by rw [hbehind]; rfl)
    rw [List.cons_append, openedFrom_cons_of_none (by rw [opening?, hopens]; rfl),
      ih fun d hd => h d (List.mem_cons_of_mem _ hd)]

/-- Nothing is left open in a declaration, so that it can be passed over. -/
theorem openedFrom_of_declaration? {name : List Char} (h : declaration? text = some (name, rest)) :
    openedFrom before text = openedFrom (some ';') rest := by
  obtain ⟨front, blanks, rfl, hblanks⟩ := exists_of_declaration? h
  rw [openedFrom_append_paren, openedFrom_append_blanks hblanks]

/-- A declaration at the start of a line is found, and the scan goes on behind its semicolon. -/
theorem namesFrom_of_declaration? {name : List Char} (hbefore : startsLine before = true)
    (h : declaration? text = some (name, rest)) : HandlerForm.declaration.namesFrom before 0 text =
      name :: HandlerForm.declaration.namesFrom (some ';') 0 rest := by
  obtain ⟨front, blanks, htext, -⟩ := exists_of_declaration? h
  have hmet : text = (front ++ ')' :: blanks ++ [';']) ++ rest := by
    rw [htext]
    simp
  have hlast : (front ++ ')' :: blanks ++ [';']).getLast? = some ';' := List.getLast?_concat
  generalize front ++ ')' :: blanks ++ [';'] = met at hmet hlast
  subst hmet
  cases met with
  | nil => cases hlast
  | cons c met =>
    have hhere : HandlerForm.declaration.here? before (c :: (met ++ rest)) = some (name, rest) :=
      (if_pos hbefore).trans h
    rw [List.cons_append, HandlerForm.namesFrom_found hhere]
    cases met with
    | nil => rw [← hlast]; rfl
    | cons d met => rw [List.getLast?_cons_cons] at hlast; rw [hlast]; rfl

/-- White space leaves nothing open. -/
theorem openedFrom_of_blank (h : ∀ c ∈ text, isBlank c = true) : openedFrom before text = none := by
  induction text generalizing before with
  | nil => rfl
  | cons c text ih =>
    have hbehind : behindBlanks (c :: text) = [] := List.dropWhile_eq_nil_iff.mpr h
    have hopens : opens? (c :: text) = none := opens?_of_behindBlanks (by rw [hbehind]; rfl)
    rw [openedFrom_cons_of_none (by rw [opening?, hopens]; rfl),
      ih fun d hd => h d (List.mem_cons_of_mem _ hd)]

/-- Where no parenthesis is closed, there is no declaration. -/
theorem namesFrom_of_not_mem {skip : Nat} (h : ')' ∉ text) :
    HandlerForm.declaration.namesFrom before skip text = [] := by
  induction text generalizing before skip with
  | nil => cases skip <;> rfl
  | cons c text ih =>
    have hrest : ∀ {before skip}, HandlerForm.declaration.namesFrom before skip text = [] :=
      ih fun hmem => h (List.mem_cons_of_mem _ hmem)
    cases skip with
    | succ skip => exact hrest
    | zero =>
      have hnone : declaration? (c :: text) = none := by
        cases hfound : declaration? (c :: text) with
        | none => rfl
        | some found =>
          obtain ⟨front, blanks, htext, -⟩ := exists_of_declaration? hfound
          exact absurd (by rw [htext]; simp) h
      have hhere : HandlerForm.declaration.here? before (c :: text) = none := by
        refine Eq.trans (b := if startsLine before then declaration? (c :: text) else none) rfl ?_
        rw [hnone, ite_self]
      rw [HandlerForm.namesFrom_none hhere]
      exact hrest

/-! ### Reading across the seam -/

theorem behind?_of_head? {c l : Char} {literal : List Char} (h : text.head? = some c)
    (hl : l ≠ c) : behind? (l :: literal) text = none := by
  obtain ⟨tail, rfl⟩ : ∃ tail, text = c :: tail := by
    cases text with
    | nil => cases h
    | cons d text => exact ⟨text, by rw [Option.some.inj h]⟩
  exact if_neg hl

theorem behindSomeBlanks?_eq {c : Char} (hc : isBlank c = true) (text : List Char) :
    behindSomeBlanks? (c :: text) = some (behindBlanks (c :: text)) := by
  rw [behindSomeBlanks?, if_pos hc, behindBlanks, behindBlanks, List.dropWhile_cons_of_pos hc]

/-- The beginning of a declaration is not read across the seam, if a word comes behind it that is
no handler's name. -/
theorem opens?_cases (h : EndsLine text) (hmore : (behindBlanks more).head? = some 'v') :
    behindBlanks text = [] ∨ Steady more (opens? text) (opens? (text ++ more)) := by
  have hparen : behind? ['('] (behindBlanks more) = none := behind?_of_head? hmore (by decide)
  rcases behindBlanks_cases h more with ⟨hnil, -⟩ | ⟨hends, hblanks⟩
  · exact .inl hnil
  right
  have heq : ∀ text, opens? text = (behind? "void".toList (behindBlanks text)).bind fun text =>
      (behindSomeBlanks? text).bind handlerName? := fun text => rfl
  rw [heq, heq, hblanks]
  -- The seam is at the end of a line, and no word that is read goes beyond one.
  rcases behind?_cases (by decide : '\n' ∉ "void".toList) hends more with
    ⟨hnone, hnone'⟩ | ⟨rest, hrest, hsome, hsome'⟩
  · rw [hnone, hnone']
    exact steady_none more
  rw [hsome, hsome', Option.bind_some, Option.bind_some]
  cases rest with
  | nil => cases hrest
  | cons c rest =>
    by_cases hc : isBlank c = true
    · rw [List.cons_append, behindSomeBlanks?_eq hc, behindSomeBlanks?_eq hc, ← List.cons_append,
        Option.bind_some, Option.bind_some]
      rcases behindBlanks_cases hrest more with ⟨hnil, hnil'⟩ | ⟨hends, hblanks⟩
      · have hon : behind? "On".toList (behindBlanks more) = none :=
          behind?_of_head? hmore (by decide)
        have hname : handlerName? (behindBlanks more) = none := by
          rw [handlerName?, hon]
          rfl
        rw [hnil, hnil', hname]
        exact steady_none more
      · rw [hblanks]
        exact handlerName?_steady hends hparen
    · simp only [List.cons_append, behindSomeBlanks?, hc, Bool.false_eq_true, if_false]
      exact steady_none more

/-- The end of a declaration is not read across the seam, if the parenthesis is closed before it
and no semicolon comes behind it. -/
theorem closes?_cases (h : EndsLine text) (hclosed : ')' ∈ text)
    (hmore : (behindBlanks more).head? = some 'v') :
    closes? text = none ∧ closes? (text ++ more) = none ∨
      ∃ rest, EndsLine rest ∧ closes? text = some rest ∧
        closes? (text ++ more) = some (rest ++ more) := by
  have hdrop : text.dropWhile (· ≠ ')') ≠ [] := by
    intro hnil
    have hall := List.dropWhile_eq_nil_iff.mp hnil ')' hclosed
    simp at hall
  have hboth : (text ++ more).dropWhile (· ≠ ')') = text.dropWhile (· ≠ ')') ++ more := by
    rw [List.dropWhile_append, if_neg (by simpa using hdrop)]
  have hends : EndsLine (text.dropWhile (· ≠ ')')) :=
    h.of_suffix hdrop (List.dropWhile_suffix _)
  unfold closes?
  rw [hboth]
  simp only [bind, Option.bind]
  rcases behind?_cases (by decide : '\n' ∉ [')']) hends more with
    ⟨hnone, hnone'⟩ | ⟨rest, hrest, hsome, hsome'⟩
  · rw [hnone, hnone']
    exact .inl ⟨rfl, rfl⟩
  rw [hsome, hsome']
  simp only
  rcases behindBlanks_cases hrest more with ⟨hnil, hnil'⟩ | ⟨hends, hblanks⟩
  · rw [hnil, hnil', behind?_of_head? hmore (by decide)]
    exact .inl ⟨rfl, rfl⟩
  · rw [hblanks]
    exact behind?_cases (by decide) hends more

/-- Where a declaration ends does not depend on what is before it and closes no parenthesis. -/
theorem closes?_of_staysOpen (h : StaysOpen text rest) : closes? text = closes? rest := by
  obtain ⟨front, rfl, hfront⟩ := h
  have hdrop : (front ++ rest).dropWhile (· ≠ ')') = rest.dropWhile (· ≠ ')') := by
    refine List.dropWhile_append_of_pos fun c hc => ?_
    rw [decide_eq_true_eq]
    rintro rfl
    exact hfront hc
  rw [closes?, hdrop, closes?]

/-- How a text is read before a word: as by itself, or there is nothing in it but white space, or
it leaves a declaration open, and that one is closed wherever the next parenthesis is closed. -/
theorem declaration?_cases (h : EndsLine text) (hmore : (behindBlanks more).head? = some 'v') :
    (opening? text = none ∧ Steady more (declaration? text) (declaration? (text ++ more))) ∨
      behindBlanks text = [] ∨
      ∃ name, opening? text = some name ∧
        declaration? (text ++ more) = (closes? more).map fun rest => (name, rest) := by
  rw [declaration?_eq, declaration?_eq, opening?]
  rcases opens?_cases h hmore with hblank | ⟨hnone, hnone'⟩ | ⟨name, rest, hrest, hsome, hsome'⟩
  · exact .inr (.inl hblank)
  · rw [hnone, hnone']
    exact .inl ⟨rfl, steady_none more⟩
  rw [hsome, hsome']
  simp only [Option.bind_some]
  by_cases hclosed : ')' ∈ rest
  · rw [if_pos hclosed]
    refine .inl ⟨rfl, ?_⟩
    rcases closes?_cases hrest hclosed hmore with ⟨hnone, hnone'⟩ | ⟨left, hleft, hsome, hsome'⟩
    · rw [hnone, hnone']
      exact steady_none more
    · rw [hsome, hsome']
      exact steady_some hleft more
  · rw [if_neg hclosed]
    exact .inr (.inr ⟨name, rfl, by rw [closes?_of_staysOpen ⟨rest, rfl, hclosed⟩]⟩)

section Added

variable {p : Packet}

/-- What a declaration that was added begins and ends with. -/
theorem declarationLine_ends (h : IsName p.name) (rest : List Char) :
    (behindBlanks (lineOf p.declarationLine ++ rest)).head? = some 'v' ∧
      closes? (lineOf p.declarationLine ++ rest) = some ('\n' :: rest) := by
  constructor
  · rw [lineOf_declarationLine]
    rfl
  · have hread := declaration?_line h rest
    rw [declaration?_eq] at hread
    obtain ⟨⟨name, parameters⟩, hopens, hread⟩ := Option.bind_eq_some_iff.mp hread
    obtain ⟨left, hcloses, hread⟩ := Option.map_eq_some_iff.mp hread
    rw [closes?_of_staysOpen (staysOpen_opens? hopens), hcloses, (Prod.mk.inj hread).2]

/-- The declaration that is added behind a text is found under its own name, or under that of a
declaration that the text leaves open; what comes behind it is read as ever. -/
def FindsAdded (p : Packet) (rest : List Char) (before : Option Char) (text : List Char) : Prop :=
  HandlerForm.declaration.namesFrom before 0 (text ++ (lineOf p.declarationLine ++ rest)) =
    HandlerForm.declaration.namesFrom before 0 text ++
      (openedFrom before text).getD p.name.toList ::
        HandlerForm.declaration.namesFrom (some '\n') 0 rest

/-- Where nothing is read on either side, the scan goes on behind the character. -/
theorem FindsAdded.cons {c : Char} (h : FindsAdded p rest (some c) text)
    (hnone : HandlerForm.declaration.here? before (c :: text) = none)
    (hnone' : HandlerForm.declaration.here? before
      (c :: text ++ (lineOf p.declarationLine ++ rest)) = none)
    (hopened : openedFrom before (c :: text) = openedFrom (some c) text) :
    FindsAdded p rest before (c :: text) := by
  rw [List.cons_append] at hnone'
  rw [FindsAdded, List.cons_append, HandlerForm.namesFrom_none hnone',
    HandlerForm.namesFrom_none hnone, hopened]
  exact h

/-- A declaration at the start of a line is passed over. -/
theorem FindsAdded.of_declaration? {name left : List Char}
    (h : FindsAdded p rest (some ';') left) (hbefore : startsLine before = true)
    (hsome : declaration? text = some (name, left))
    (hsome' : declaration? (text ++ (lineOf p.declarationLine ++ rest)) =
      some (name, left ++ (lineOf p.declarationLine ++ rest))) :
    FindsAdded p rest before text := by
  rw [FindsAdded, namesFrom_of_declaration? hbefore hsome,
    namesFrom_of_declaration? hbefore hsome', openedFrom_of_declaration? hsome, h,
    List.cons_append]

/-- White space is read as that before the added declaration. -/
theorem findsAdded_of_blank (hname : IsName p.name) (hbefore : startsLine before = true)
    (hblank : ∀ c ∈ text, isBlank c = true) : FindsAdded p rest before text := by
  have hboth : declaration? (text ++ (lineOf p.declarationLine ++ rest)) =
      declaration? (lineOf p.declarationLine ++ rest) := by
    rw [declaration?, behindBlanks, List.dropWhile_append_of_pos hblank]
    rfl
  have hparen : ')' ∉ text := fun hmem => absurd (hblank ')' hmem) (by decide)
  rw [declaration?_line hname] at hboth
  rw [FindsAdded, namesFrom_of_declaration? hbefore hboth, namesFrom_of_not_mem hparen,
    openedFrom_of_blank hblank]
  rfl

/-- A declaration that is left open takes over the one that is added. -/
theorem findsAdded_of_opening? {c : Char} {name : List Char} (hname : IsName p.name)
    (hbefore : startsLine before = true) (hopening : opening? (c :: text) = some name)
    (hboth : declaration? (c :: text ++ (lineOf p.declarationLine ++ rest)) =
      (closes? (lineOf p.declarationLine ++ rest)).map fun rest => (name, rest)) :
    FindsAdded p rest before (c :: text) := by
  rw [(declarationLine_ends hname rest).2] at hboth
  rw [FindsAdded, namesFrom_of_declaration? hbefore hboth,
    namesFrom_of_not_mem (opening?_eq_some hopening), openedFrom, if_pos hbefore, hopening]
  rfl

/-- **A declaration that is added behind whole lines** is found under its own name, or under that
of a declaration that the lines leave open. -/
theorem findsAdded (hname : IsName p.name) (rest : List Char)
    (hbefore : text = [] → startsLine before = true) (h : startsLine text.getLast? = true) :
    FindsAdded p rest before text := by
  have hhere : ∀ before text, HandlerForm.declaration.here? before text =
      if startsLine before then declaration? text else none := fun before text => rfl
  have hhead := (declarationLine_ends hname rest).1
  -- Behind a declaration, the scan goes on at its end, so that the induction is on the length.
  induction hlength : text.length using Nat.strong_induction_on generalizing before text with
  | _ n ih =>
    cases text with
    | nil => exact findsAdded_of_blank hname (hbefore rfl) (by simp)
    | cons c text =>
      have hends : EndsLine (c :: text) :=
        endsLine_of_suffix h (List.cons_ne_nil c text) List.suffix_rfl
      have hnext : FindsAdded p rest (some c) text := by
        refine ih text.length (by simp [← hlength]) ?_ ?_ rfl
        · rintro rfl
          exact h
        · cases text with
          | nil => rfl
          | cons d text => simpa using h
      by_cases hline : startsLine before = true
      · rcases declaration?_cases hends hhead with
          ⟨hopening, ⟨hnone, hnone'⟩ | ⟨name, left, hleft, hsome, hsome'⟩⟩ |
            hblank | ⟨name, hopening, hboth⟩
        · refine hnext.cons ?_ ?_ (openedFrom_cons_of_none hopening)
          · rw [hhere, if_pos hline, hnone]
          · rw [hhere, if_pos hline, hnone']
        · have hshorter : left.length < n := by
            obtain ⟨front, blanks, htext, -⟩ := exists_of_declaration? hsome
            rw [← hlength, htext]
            simp only [List.length_append, List.length_cons]
            omega
          refine (ih _ hshorter ?_ (by rw [hleft]; rfl) rfl).of_declaration? hline hsome hsome'
          rintro rfl
          cases hleft
        · exact findsAdded_of_blank hname hline (List.dropWhile_eq_nil_iff.mp hblank)
        · exact findsAdded_of_opening? hname hline hopening hboth
      · refine hnext.cons ?_ ?_ ?_
        · rw [hhere, if_neg hline]
        · rw [hhere, if_neg hline]
        · rw [openedFrom, if_neg hline]
          rfl

/-- Behind a declaration that was added, nothing is left open. -/
theorem openedFrom_append_line (p : Packet) (text rest : List Char) :
    openedFrom before (text ++ (lineOf p.declarationLine ++ rest)) =
      openedFrom (some '\n') rest := by
  obtain ⟨front, hfront⟩ : ∃ front, lineOf p.declarationLine = front ++ ')' :: [';', '\n'] := by
    rw [lineOf_declarationLine]
    exact ⟨'\t' :: ("void".toList ++ ' ' :: ("On".toList ++ (p.name.toList ++ '(' ::
      ("const ".toList ++ (p.name.toList ++ "& packet".toList))))), by simp⟩
  rw [hfront, List.append_assoc, ← List.append_assoc, List.cons_append, openedFrom_append_paren]
  rfl

theorem openedFrom_handlerText {blocks : List (String × List String)}
    (h : ∀ block ∈ blocks, IsHandler .declaration block.1 block.2) (hne : blocks ≠ [])
    (text : List Char) : openedFrom before (text ++ handlerText blocks) = none := by
  induction blocks generalizing before text with
  | nil => exact absurd rfl hne
  | cons block blocks ih =>
    obtain ⟨name, lines⟩ := block
    cases h _ List.mem_cons_self with
    | @declaration p hname =>
      have htext : handlerText ((p.name, [p.declarationLine]) :: blocks) =
          lineOf p.declarationLine ++ handlerText blocks := rfl
      rw [htext, openedFrom_append_line]
      by_cases hblocks : blocks = []
      · subst hblocks
        rfl
      · exact ih (fun block hblock => h block (List.mem_cons_of_mem _ hblock)) hblocks []

/-- **Declarations that were added are found behind any interior**, except that the first of them
is found under the name of a declaration that the interior leaves open, if there is one. -/
theorem names_append_declarations {blocks : List (String × List String)}
    (htext : startsLine text.getLast? = true)
    (h : ∀ block ∈ blocks, IsHandler .declaration block.1 block.2) :
    HandlerForm.declaration.names (text ++ handlerText blocks) =
      HandlerForm.declaration.names text ++
        (blocks.map (·.1)).modifyHead ((opened? text).getD ·) := by
  cases blocks with
  | nil =>
    have hnil : handlerText [] = [] := rfl
    simp [hnil]
  | cons block blocks =>
    obtain ⟨name, lines⟩ := block
    have hrest := @namesFrom_handlers _ (some '\n') blocks
      (fun block hblock => h block (List.mem_cons_of_mem _ hblock)) rfl
    cases h _ List.mem_cons_self with
    | @declaration p hname =>
      have hcons : handlerText ((p.name, [p.declarationLine]) :: blocks) =
          lineOf p.declarationLine ++ handlerText blocks := rfl
      have hfirst : String.ofList ((openedFrom none text).getD p.name.toList) =
          (opened? text).getD p.name := by
        rw [opened?]
        cases openedFrom none text with
        | none => exact String.ofList_toList
        | some name => rfl
      have hfound : FindsAdded p (handlerText blocks) none text :=
        findsAdded hname _ (fun _ => rfl) htext
      rw [HandlerForm.names, hcons, hfound, handlerText, hrest, List.map_append, List.map_cons,
        hfirst, List.map_cons, List.modifyHead_cons, List.map_map]
      refine congrArg (fun names => _ ++ _ :: names) (List.map_congr_left fun block _ => ?_)
      exact String.ofList_toList

end Added

/-! ### Merging the same schema again -/

namespace Document

variable {d : Document} {r : Region} {l : Region.Location} {form : HandlerForm}
  {entries : List Entry} {packets : List Packet}

/-- What is missing behind the declarations that were added for the same entries: the first that
was added, if the interior had left open a declaration of another name. -/
theorem missing_again {interior : List Char} {added : List (String × List String)}
    (hinterior : startsLine interior.getLast? = true)
    (h : ∀ block ∈ added, IsHandler .declaration block.1 block.2)
    (hadded : added.map entryOf =
      missing (HandlerForm.declaration.names interior) entries) :
    missing (HandlerForm.declaration.names (interior ++ handlerText added)) entries =
      (added.map entryOf).head?.toList.filter fun entry =>
        (opened? interior).any (· ≠ entry.key) := by
  have hnew : ∀ name ∈ added.map (·.1), name ∉ HandlerForm.declaration.names interior := by
    intro name hname
    rw [← keys_entryOf, hadded] at hname
    exact (key_mem_missing_iff.mp hname).2
  have hnodup : (added.map (·.1)).Nodup := by
    rw [← keys_entryOf, hadded]
    exact nodup_keys_missing _ _
  rw [names_append_declarations hinterior h, missing_of_subset (List.subset_append_left _ _),
    ← hadded]
  cases added with
  | nil => rfl
  | cons first others =>
    obtain ⟨hfirst, -⟩ := List.nodup_cons.mp hnodup
    have hold := hnew first.1 List.mem_cons_self
    generalize opened? interior = left
    rw [List.map_cons, List.map_cons, List.modifyHead_cons, List.filter_cons, List.head?_cons,
      Option.toList_some, List.filter_singleton]
    -- The others are there under their own names, so that only the first can be missing.
    have hothers : (others.map entryOf).filter (fun entry => entry.key ∉
        HandlerForm.declaration.names interior ++
          left.getD first.1 :: others.map (·.1)) = [] := by
      refine List.filter_eq_nil_iff.mpr fun entry hentry => ?_
      obtain ⟨block, hblock, rfl⟩ := List.mem_map.mp hentry
      have hmem : block.1 ∈ others.map (·.1) := List.mem_map_of_mem hblock
      simp [entryOf, hmem]
    have hkey : (decide ((entryOf first).key ∉ HandlerForm.declaration.names interior ++
        left.getD first.1 :: others.map (·.1))) = left.any (· ≠ (entryOf first).key) := by
      have hiff : (entryOf first).key ∉ HandlerForm.declaration.names interior ++
          left.getD first.1 :: others.map (·.1) ↔ first.1 ≠ left.getD first.1 := by
        rw [List.mem_append, List.mem_cons, not_or, not_or]
        exact ⟨fun hno => hno.2.1, fun hne => ⟨hold, hne, hfirst⟩⟩
      rw [Bool.eq_iff_iff, decide_eq_true_iff, hiff]
      cases left with
      | none => simp
      | some name =>
        rw [Option.any_some, decide_eq_true_iff]
        exact ne_comm
    rw [hothers, hkey, Bool.cond_eq_ite]

/-- Behind a declaration that was added for the second time, nothing is missing. -/
theorem missing_again_eq_nil {interior : List Char} {added again : List (String × List String)}
    (hinterior : startsLine interior.getLast? = true)
    (h : ∀ block ∈ added, IsHandler .declaration block.1 block.2)
    (h' : ∀ block ∈ again, IsHandler .declaration block.1 block.2)
    (hadded : added.map entryOf = missing (HandlerForm.declaration.names interior) entries)
    (hagain : again.map entryOf =
      missing (HandlerForm.declaration.names (interior ++ handlerText added)) entries) :
    missing (HandlerForm.declaration.names (interior ++ handlerText added ++ handlerText again))
      entries = [] := by
  have hwhole : startsLine (interior ++ handlerText added).getLast? = true :=
    startsLine_append hinterior (startsLine_lines _)
  rw [missing_again hwhole h' hagain]
  cases added with
  | nil =>
    have hsame : again = [] := by
      have hnothing := missing_again hinterior h hadded
      rw [← hagain] at hnothing
      exact List.map_eq_nil_iff.mp hnothing
    subst hsame
    rfl
  | cons first others =>
    have hclosed : opened? (interior ++ handlerText (first :: others)) = none := by
      rw [opened?, openedFrom_handlerText h (List.cons_ne_nil first others)]
      rfl
    rw [hclosed]
    exact List.filter_eq_nil_iff.mpr fun entry _ => by simp

/-- **Merging the declarations of a schema again** adds one that was added already if the region
has left a declaration of another name open, namely the first one, and otherwise nothing; then the
document stays as it is. A third time, nothing is added in any case. -/
theorem merge_declarations_again (hl : d.locate r = .ok l)
    (hnames : ∀ p ∈ packets, IsName p.name) : ∃ d₁ added d₂ again,
      d.merge r (declarationEntries packets) .declaration = .ok (d₁, added) ∧
      d₁.merge r (declarationEntries packets) .declaration = .ok (d₂, again) ∧
      again = (added.head?.toList.filter fun entry =>
        (opened? l.interior).any (· ≠ entry.key)) ∧
      (again = [] → d₂ = d₁) ∧
      d₂.merge r (declarationEntries packets) .declaration = .ok (d₂, []) := by
  obtain ⟨blocks, hblocks, hhandlers⟩ := exists_blocks_of_declarationEntries
    fun p hp => hnames p (List.mem_filter.mp hp).1
  rw [hblocks]
  have hsplits := Region.locate_eq_ok_iff.mp hl
  have hwhole := hsplits.interior.1
  obtain ⟨added, hsub, hadded, hmerge, hsplits⟩ := merge_handlers hsplits hhandlers
  have hblocks₁ : ∀ block ∈ added, IsHandler .declaration block.1 block.2 :=
    fun block hblock => hhandlers block (hsub.subset hblock)
  generalize hd₁ : { d with text := l.around (l.interior ++ handlerText added) } = d₁ at hmerge
  have hsplits₁ : r.Splits d₁.text { l with interior := l.interior ++ handlerText added } := by
    rw [← hd₁]
    exact hsplits
  obtain ⟨again, hsub, hagain, hmerge', hsplits₂⟩ := merge_handlers hsplits₁ hhandlers
  have hblocks₂ : ∀ block ∈ again, IsHandler .declaration block.1 block.2 :=
    fun block hblock => hhandlers block (hsub.subset hblock)
  refine ⟨d₁, added.map entryOf, _, again.map entryOf, hmerge, hmerge', ?_, ?_, ?_⟩
  · rw [hagain, missing_again hwhole hblocks₁ hadded]
  · intro hnil
    rw [hagain] at hnil
    rw [merge_of_missing_eq_nil hsplits₁ hnil] at hmerge'
    exact (Prod.mk.inj (Except.ok.inj hmerge')).1.symm
  · exact merge_of_missing_eq_nil hsplits₂
      (missing_again_eq_nil hwhole hblocks₁ hblocks₂ hadded hagain)

/-- An interior that leaves a declaration open: the declaration that is added is taken over, so
that merging again adds it once more. -/
theorem merge_declarations_again_open :
    let d : Document := ⟨"#pragma region h\nvoid OnFoo(\n#pragma endregion h".toList, false⟩
    let l : Region.Location :=
      ⟨"#pragma region h\n".toList, "void OnFoo(\n".toList, "#pragma endregion h".toList⟩
    let packets : List Packet := [⟨.request, "Ping", none, none⟩]
    let entry : Entry := ⟨"Ping", "\tvoid OnPing(const Ping& packet);\n"⟩
    d.locate ⟨"h"⟩ = .ok l ∧ (∀ p ∈ packets, IsName p.name) ∧ ∃ d₁ d₂,
      d.merge ⟨"h"⟩ (declarationEntries packets) .declaration = .ok (d₁, [entry]) ∧
      d₁.merge ⟨"h"⟩ (declarationEntries packets) .declaration = .ok (d₂, [entry]) ∧
      d₂.merge ⟨"h"⟩ (declarationEntries packets) .declaration = .ok (d₂, []) := by
  intro d l packets entry
  have hl : d.locate ⟨"h"⟩ = .ok l := by decide
  have hnames : ∀ p ∈ packets, IsName p.name := by
    have hname : IsName "Ping" := by decide
    simpa [packets] using hname
  obtain ⟨d₁, added, d₂, again, hmerge, hmerge', hagain, -, hthird⟩ :=
    merge_declarations_again hl hnames
  have hadded : (d.merge ⟨"h"⟩ (declarationEntries packets) .declaration).map (·.2) =
      .ok [entry] := by
    decide
  rw [hmerge] at hadded
  obtain rfl : added = [entry] := Except.ok.inj hadded
  have hopened : opened? l.interior = some "Foo" := by decide
  rw [hopened] at hagain
  obtain rfl : again = [entry] := hagain.trans (by decide)
  exact ⟨hl, hnames, d₁, d₂, hmerge, hmerge', hthird⟩

end Document

end Packetry

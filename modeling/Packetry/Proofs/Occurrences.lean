import Packetry.Proofs.Recognised

/-!
# Definitions are found wherever they stand

A scan goes on behind a definition that it has met, and so it never looks at what begins inside.
Nothing is missed in this way: the names that are found are those of all definitions in the text,
wherever they stand (`Packetry.mem_names_definition_iff`).

The reason is the white space behind `void`. A definition has white space in two places only,
behind its own `void` and before its parenthesis, if the session class has none. A second `void`
would have to end at one of them, hence at the end of the name; but then it begins inside a word. So
all of a definition behind its first letter is quiet (`Packetry.IsWritten.quiet_inside`), and it
makes no difference whether it is skipped or scanned (`Packetry.namesFrom_definition_cons`).
-/

namespace Packetry

open Text

variable {C : String} {before : Option Char} {name text rest written : List Char}

/-! ### What a definition is -/

/-- A definition of the handler of a name, up to the parenthesis that opens its parameters: there is
some white space behind `void`, and there may be some behind the name. Neither white space nor a
parenthesis is a word character, so that the name goes as far as it can. -/
inductive IsWritten (C : String) (name : List Char) : List Char → Prop where
  /-- The pieces of a definition, one behind the other. -/
  | intro {gap late : List Char} (hsome : gap ≠ []) (hgap : ∀ c ∈ gap, isBlank c = true)
    (hname : IsRun name) (hlate : ∀ c ∈ late, isBlank c = true) :
    IsWritten C name ("void".toList ++ (gap ++ (C.toList ++ ("::".toList ++ ("On".toList ++
      (name ++ (late ++ ['('])))))))

/-- A definition of the handler of a name stands in a text, and no word character before it. -/
def Defines (C : String) (name : List Char) (text : List Char) : Prop :=
  ∃ front written rest, text = front ++ (written ++ rest) ∧
    startsWord front.getLast? = true ∧ IsWritten C name written

/-! ### Reading a definition -/

theorem isWord_of_isBlank {c : Char} (h : isBlank c = true) : isWord c = false := by
  by_contra hword
  rw [isBlank_of_isWord (eq_true_of_ne_false hword)] at h
  cases h

/-- Before a parenthesis, with white space or without, no word goes on. -/
theorem exists_head_of_late {late : List Char} (hlate : ∀ c ∈ late, isBlank c = true) :
    ∃ c more, (∀ rest, late ++ '(' :: rest = c :: (more ++ rest)) ∧ isWord c = false ∧
      more.any isWord = false := by
  have hword : ∀ c ∈ late ++ ['('], isWord c = false := by
    intro c hc
    rcases List.mem_append.mp hc with hc | hc
    · exact isWord_of_isBlank (hlate c hc)
    · obtain rfl := List.mem_singleton.mp hc
      decide
  obtain ⟨c, more, hmore⟩ := List.exists_cons_of_ne_nil (by simp : late ++ ['('] ≠ [])
  rw [hmore] at hword
  refine ⟨c, more, fun rest => ?_, hword c List.mem_cons_self, List.any_eq_false.mpr fun d hd => ?_⟩
  · rw [← List.cons_append, ← hmore, List.append_assoc, List.singleton_append]
  · simp [hword d (List.mem_cons_of_mem c hd)]

/-- What is read behind the colons is a name and its parenthesis. -/
theorem handlerName?_eq_some_iff : handlerName? text = some (name, rest) ↔
    IsRun name ∧ ∃ late, (∀ c ∈ late, isBlank c = true) ∧
      text = "On".toList ++ (name ++ (late ++ '(' :: rest)) := by
  constructor
  · intro h
    have hrun := isRun_of_handlerName? h
    obtain ⟨behindOn, hon, h⟩ := Option.bind_eq_some_iff.mp h
    obtain ⟨⟨read, behindName⟩, hread, h⟩ := Option.bind_eq_some_iff.mp h
    obtain ⟨behindParen, hparen, h⟩ := Option.bind_eq_some_iff.mp h
    cases h
    have hparts : name ++ behindName = behindOn := by
      unfold name? at hread
      split at hread
      · cases hread
      · cases hread
        exact List.takeWhile_append_dropWhile
    have hblanks : behindBlanks behindName = '(' :: rest := behind?_eq_some_iff.mp hparen
    refine ⟨hrun, behindName.takeWhile isBlank, fun c hc => List.mem_takeWhile_imp hc, ?_⟩
    rw [behind?_eq_some_iff.mp hon, ← hparts, ← hblanks, behindBlanks,
      List.takeWhile_append_dropWhile]
  · rintro ⟨⟨hne, hword⟩, late, hlate, rfl⟩
    obtain ⟨c, more, hmore, hc, -⟩ := exists_head_of_late hlate
    have hblanks : behindBlanks (c :: (more ++ rest)) = '(' :: rest := by
      rw [← hmore, behindBlanks, List.dropWhile_append_of_pos hlate,
        List.dropWhile_cons_of_neg (by decide)]
    unfold handlerName?
    rw [behind?_append, hmore]
    simp only [bind, Option.bind, name?_append hne hword hc, hblanks, behind?, if_true, pure]

theorem IsUnspaced.colons (hC : IsUnspaced C) :
    ∀ c ∈ C.toList ++ "::".toList, isBlank c = false := by
  have hcolons : IsUnspaced "::" := by decide
  exact List.forall_mem_append.mpr ⟨hC, hcolons⟩

/-- A class without white space does not begin with any. -/
theorem behind?_class (hC : IsUnspaced C) {c : Char} (hc : isBlank c = true) (text : List Char) :
    behind? (C.toList ++ "::".toList) (c :: text) = none := by
  have hclass := hC.colons
  obtain ⟨d, more, hd⟩ := List.exists_cons_of_ne_nil (by simp : C.toList ++ "::".toList ≠ [])
  rw [hd] at hclass ⊢
  refine if_neg ?_
  rintro rfl
  rw [hclass d List.mem_cons_self] at hc
  cases hc

/-- The class is found behind all the white space. -/
theorem member?_eq_some_iff (hC : IsUnspaced C) : member? C.toList text = some (name, rest) ↔
    ∃ gap more, (∀ c ∈ gap, isBlank c = true) ∧
      text = gap ++ (C.toList ++ "::".toList ++ more) ∧ handlerName? more = some (name, rest) := by
  constructor
  · intro h
    induction text with
    | nil => cases h
    | cons c text ih =>
      rw [member?] at h
      rcases (Option.orElse_eq_some ..).mp h with hhere | ⟨-, hthere⟩
      · obtain ⟨more, hbehind, hread⟩ := Option.bind_eq_some_iff.mp hhere
        have htext : c :: text = C.toList ++ "::".toList ++ more := behind?_eq_some_iff.mp hbehind
        exact ⟨[], more, by simp, htext, hread⟩
      · obtain ⟨hc, hthere⟩ := Option.ite_none_right_eq_some.mp hthere
        obtain ⟨gap, more, hgap, rfl, hread⟩ := ih hthere
        exact ⟨c :: gap, more, List.forall_mem_cons.mpr ⟨hc, hgap⟩, rfl, hread⟩
  · rintro ⟨gap, more, hgap, rfl, hread⟩
    induction gap with
    | nil =>
      have hbehind := behind?_append (C.toList ++ "::".toList) more
      obtain ⟨d, class', hd⟩ := List.exists_cons_of_ne_nil
        (by simp : C.toList ++ "::".toList ≠ [])
      rw [List.nil_append]
      rw [hd, List.cons_append] at hbehind ⊢
      rw [member?, hd, hbehind, Option.bind_some, hread]
      rfl
    | cons c gap ih =>
      obtain ⟨hc, hgap⟩ := List.forall_mem_cons.mp hgap
      rw [List.cons_append, member?, behind?_class hC hc, Option.bind_none, if_pos hc, ih hgap]
      rfl

/-- **A definition is read exactly if it is written.** -/
theorem definition?_eq_some_iff (hC : IsUnspaced C) :
    definition? C.toList text = some (name, rest) ↔
      ∃ written, text = written ++ rest ∧ IsWritten C name written := by
  constructor
  · intro h
    obtain ⟨behindVoid, hvoid, h⟩ := Option.bind_eq_some_iff.mp h
    have htext := behind?_eq_some_iff.mp hvoid
    cases behindVoid with
    | nil => cases h
    | cons c tail =>
      obtain ⟨hc, hmember⟩ := Option.ite_none_right_eq_some.mp h
      obtain ⟨gap, more, hgap, rfl, hread⟩ := (member?_eq_some_iff hC).mp hmember
      obtain ⟨hname, late, hlate, rfl⟩ := handlerName?_eq_some_iff.mp hread
      refine ⟨_, ?_, .intro (List.cons_ne_nil c gap) (List.forall_mem_cons.mpr ⟨hc, hgap⟩) hname
        hlate⟩
      rw [htext]
      simp
  · rintro ⟨written, rfl, hwritten⟩
    cases hwritten with
    | @intro gap late hsome hgap hname hlate =>
      obtain ⟨c, gap, rfl⟩ := List.exists_cons_of_ne_nil hsome
      obtain ⟨hc, hgap⟩ := List.forall_mem_cons.mp hgap
      have hread : handlerName? ("On".toList ++ (name ++ (late ++ '(' :: rest))) =
          some (name, rest) := handlerName?_eq_some_iff.mpr ⟨hname, late, hlate, rfl⟩
      have hmember := (member?_eq_some_iff hC).mpr ⟨gap, _, hgap, rfl, hread⟩
      have htext : "void".toList ++ (c :: gap ++ (C.toList ++ ("::".toList ++ ("On".toList ++
          (name ++ (late ++ ['('])))))) ++ rest = "void".toList ++ c :: (gap ++
            (C.toList ++ "::".toList ++ ("On".toList ++ (name ++ (late ++ '(' :: rest))))) := by
        simp
      rw [htext, definition?, behind?_append]
      exact (if_pos hc).trans hmember

/-! ### Inside of a definition -/

/-- A text without white space begins no definition, unless it ends inside of `void`. -/
theorem definition?_unspaced {piece : List Char} (hpiece : ∀ c ∈ piece, isBlank c = false)
    {c : Char} (hlast : piece.getLast? = some c) (hc : c ∉ "void".toList) (rest : List Char) :
    definition? C.toList (piece ++ rest) = none := by
  cases hbehind : behind? "void".toList (piece ++ rest) with
  | none =>
    rw [definition?, hbehind]
    rfl
  | some tail =>
    have hmem := List.mem_of_getLast? hlast
    rcases List.append_eq_append_iff.mp (behind?_eq_some_iff.mp hbehind) with
      ⟨more, hvoid, -⟩ | ⟨more, hmore, htail⟩
    · exact absurd (hvoid ▸ List.mem_append_left more hmem) hc
    · cases more with
      | nil =>
        rw [List.append_nil] at hmore
        exact absurd (hmore ▸ hmem) hc
      | cons d more =>
        subst htail
        have hd : isBlank d = false := hpiece d (by simp [hmore])
        rw [definition?, hbehind]
        simp only [bind, Option.bind, List.cons_append, hd, Bool.false_eq_true, if_false]

/-- So it is quiet. -/
theorem quiet_unspaced {piece : List Char} (hpiece : ∀ c ∈ piece, isBlank c = false) {c : Char}
    (hlast : piece.getLast? = some c) (hc : c ∉ "void".toList) : Quiet C piece := by
  induction piece with
  | nil => cases hlast
  | cons d piece ih =>
    intro before rest
    have hnone := here?_of_definition? (definition?_unspaced (C := C) hpiece hlast hc rest) before
    rw [List.cons_append] at hnone ⊢
    rw [HandlerForm.namesFrom_none hnone]
    cases piece with
    | nil => rfl
    | cons e piece =>
      rw [List.getLast?_cons_cons] at hlast ⊢
      rw [ih (fun e he => hpiece e (List.mem_cons_of_mem _ he)) hlast, hlast]
      rfl

/-- **Nothing is found inside of a definition**: behind its first letter, all of it is quiet. -/
theorem IsWritten.quiet_inside (hC : IsUnspaced C) (h : IsWritten C name written) :
    ∃ inner, written = 'v' :: (inner ++ ['(']) ∧ ∀ rest,
      (HandlerForm.definition C).namesFrom (some 'v') 0 (inner ++ ['('] ++ rest) =
        (HandlerForm.definition C).namesFrom (some '(') 0 rest := by
  cases h with
  | @intro gap late hsome hgap hname hlate =>
    obtain ⟨b, gap, rfl⟩ := List.exists_cons_of_ne_nil hsome
    obtain ⟨hb, hgap⟩ := List.forall_mem_cons.mp hgap
    obtain ⟨d, more, hmore, hd, hwords⟩ := exists_head_of_late hlate
    have hquiet : Quiet C gap :=
      quiet_nonwords (List.any_eq_false.mpr fun c hc => by simp [isWord_of_isBlank (hgap c hc)])
    have hclass : Quiet C (C.toList ++ "::".toList) :=
      quiet_unspaced hC.colons (c := ':') (by simp) (by decide)
    have hvoid : ∀ c ∈ "oid".toList, isWord c = true := List.all_eq_true.mp (by decide)
    have hon : ∀ c ∈ "On".toList, isWord c = true := List.all_eq_true.mp (by decide)
    have hword := List.forall_mem_append.mpr ⟨hon, hname.2⟩
    have hparen : more.getLast?.or (some d) = some '(' := by
      have hall := hmore []
      rw [List.append_nil] at hall
      rw [← getLast?_cons_or d more none, ← hall, List.getLast?_concat]
      rfl
    refine ⟨"oid".toList ++ b :: (gap ++ (C.toList ++ "::".toList ++
      ("On".toList ++ name ++ late))), by simp, fun rest => ?_⟩
    have hpieces : "oid".toList ++ b :: (gap ++ (C.toList ++ "::".toList ++
        ("On".toList ++ name ++ late))) ++ ['('] ++ rest = "oid".toList ++ b :: (gap ++
          (C.toList ++ "::".toList ++ ("On".toList ++ name ++ d :: (more ++ rest)))) := by
      rw [← hmore]
      simp
    -- A word that begins with `On` is not `void`.
    rw [hpieces, namesFrom_inner (by decide) hvoid (isWord_of_isBlank hb), hquiet, hclass,
      namesFrom_word (by simp) hword hd (by simp), quiet_nonwords hwords, hparen]

/-- **It makes no difference whether a definition is skipped or scanned.** -/
theorem namesFrom_definition_cons (hC : IsUnspaced C) (c : Char) (text : List Char) :
    (HandlerForm.definition C).namesFrom before 0 (c :: text) =
      (((HandlerForm.definition C).here? before (c :: text)).map (·.1)).toList ++
        (HandlerForm.definition C).namesFrom (some c) 0 text := by
  cases hhere : (HandlerForm.definition C).here? before (c :: text) with
  | none => exact HandlerForm.namesFrom_none hhere
  | some found =>
    obtain ⟨name, rest⟩ := found
    have hread := (Option.ite_none_right_eq_some.mp hhere).2
    obtain ⟨written, htext, hwritten⟩ := (definition?_eq_some_iff hC).mp hread
    obtain ⟨inner, rfl, hinner⟩ := hwritten.quiet_inside hC
    rw [List.cons_append, List.cons.injEq] at htext
    obtain ⟨rfl, rfl⟩ := htext
    rw [HandlerForm.namesFrom_found hhere, hinner, List.getLast?_concat]
    rfl

/-! ### All definitions of a text -/

theorem here?_definition_eq_some_iff (hC : IsUnspaced C) :
    (HandlerForm.definition C).here? before text = some (name, rest) ↔
      startsWord before = true ∧ ∃ written, text = written ++ rest ∧ IsWritten C name written := by
  rw [← definition?_eq_some_iff hC]
  exact Option.ite_none_right_eq_some

/-- The names that a scan finds are those that can be read anywhere in the text. -/
theorem mem_namesFrom_definition_iff (hC : IsUnspaced C) :
    name ∈ (HandlerForm.definition C).namesFrom before 0 text ↔ ∃ front written rest,
      text = front ++ (written ++ rest) ∧ startsWord (front.getLast?.or before) = true ∧
        IsWritten C name written := by
  induction text generalizing before with
  | nil =>
    refine iff_of_false List.not_mem_nil ?_
    rintro ⟨front, written, rest, htext, -, hwritten⟩
    cases hwritten
    simp at htext
  | cons c text ih =>
    rw [namesFrom_definition_cons hC, List.mem_append, ih, Option.mem_toList,
      Option.map_eq_some_iff]
    constructor
    · rintro (⟨⟨read, rest⟩, hread, hname⟩ | ⟨front, written, rest, rfl, hstart, hwritten⟩)
      · obtain ⟨hstart, written, htext, hwritten⟩ := (here?_definition_eq_some_iff hC).mp hread
        exact ⟨[], written, rest, htext, hstart, hname ▸ hwritten⟩
      · refine ⟨c :: front, written, rest, rfl, ?_, hwritten⟩
        rwa [getLast?_cons_or]
    · rintro ⟨front, written, rest, htext, hstart, hwritten⟩
      cases front with
      | nil =>
        refine .inl ⟨(name, rest), ?_, rfl⟩
        exact (here?_definition_eq_some_iff hC).mpr ⟨hstart, written, htext, hwritten⟩
      | cons d front =>
        rw [List.cons_append, List.cons.injEq] at htext
        obtain ⟨rfl, rfl⟩ := htext
        rw [getLast?_cons_or] at hstart
        exact .inr ⟨front, written, rest, rfl, hstart, hwritten⟩

/-- **The definitions that are found in a text are those that stand in it**, wherever they stand and
whatever characters the name of the class has, as long as none of them is white space. -/
theorem mem_names_definition_iff (hC : IsUnspaced C) (text : List Char) (name : String) :
    name ∈ (HandlerForm.definition C).names text ↔ Defines C name.toList text := by
  have hname : name ∈ (HandlerForm.definition C).names text ↔
      name.toList ∈ (HandlerForm.definition C).namesFrom none 0 text := by
    rw [HandlerForm.names, List.mem_map]
    refine ⟨?_, fun h => ⟨name.toList, h, String.ofList_toList⟩⟩
    rintro ⟨read, hread, rfl⟩
    rwa [String.toList_ofList]
  rw [hname, mem_namesFrom_definition_iff hC]
  simp only [Option.or_none]
  rfl

/-- A class whose name has a `void` in it, behind which no white space stands. What looks like the
dot in its name is not it, a longer word that ends in `void` begins nothing, and a definition may
begin right behind the parenthesis of another one. -/
theorem mem_names_definition_iff_template :
    let C := "a.b<void>"
    let text := ("avoid a.b<void>::OnLate(\nvoid a-b<void>::OnDash(\n" ++
      "void\t a.b<void>::OnPing \n(void a.b<void>::OnPong(void)").toList
    IsUnspaced C ∧ (HandlerForm.definition C).names text = ["Ping", "Pong"] ∧
      ∀ name : String, Defines C name.toList text ↔ name ∈ ["Ping", "Pong"] := by
  intro C text
  have hC : IsUnspaced C := by decide
  have hnames : (HandlerForm.definition C).names text = ["Ping", "Pong"] := by decide
  refine ⟨hC, hnames, fun name => ?_⟩
  rw [← mem_names_definition_iff hC text name, hnames]

end Packetry

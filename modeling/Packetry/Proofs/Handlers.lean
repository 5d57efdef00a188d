import Packetry.Proofs.Lines

/-!
# Handlers that were written are found

The handlers that the generator writes are read off the text again by the two forms of
`Packetry.HandlerForm`, each under the name of its packet: if a text is made of them, its names
are those of the packets, in order (`Packetry.names_of_handlers`).

A scan that stands before a handler finds it and skips it up to some point inside; what is left
of the handler then has to be *quiet*, that is, nothing may be found in it. A text of word
characters is quiet unless it is the word `void`, since a handler begins with that word, and so
is any other character.
-/

namespace Packetry

open Text

variable {form : HandlerForm} {C : String} {before : Option Char} {text rest : List Char}

/-! ### The scan -/

/-- What stands before a text is the last character of what was read, if anything was. -/
theorem getLast?_cons_or (c : Char) (text : List Char) (before : Option Char) :
    (c :: text).getLast?.or before = text.getLast?.or (some c) := by
  cases text with
  | nil => rfl
  | cons d text =>
    rw [List.getLast?_cons_cons, List.getLast?_eq_some_getLast (List.cons_ne_nil d text)]
    rfl

/-- The characters of a handler that was met are skipped. -/
theorem HandlerForm.namesFrom_skip (form : HandlerForm) (before : Option Char)
    (skipped rest : List Char) : form.namesFrom before skipped.length (skipped ++ rest) =
      form.namesFrom (skipped.getLast?.or before) 0 rest := by
  induction skipped generalizing before with
  | nil => rfl
  | cons c skipped ih =>
    rw [List.length_cons, List.cons_append, namesFrom, ih, getLast?_cons_or]

/-- A handler that is met: its name, and what is found behind it. -/
theorem HandlerForm.namesFrom_found {c : Char} {name met : List Char}
    (h : form.here? before (c :: (met ++ rest)) = some (name, rest)) :
    form.namesFrom before 0 (c :: (met ++ rest)) =
      name :: form.namesFrom (met.getLast?.or (some c)) 0 rest := by
  rw [namesFrom, h]
  dsimp only
  rw [List.length_append, Nat.add_sub_cancel, form.namesFrom_skip]

/-- Where no handler is, the scan goes on. -/
theorem HandlerForm.namesFrom_none {c : Char} (h : form.here? before (c :: text) = none) :
    form.namesFrom before 0 (c :: text) = form.namesFrom (some c) 0 text := by
  rw [namesFrom, h]

/-! ### Pieces of a handler -/

theorem behind?_append (literal text : List Char) :
    behind? literal (literal ++ text) = some text :=
  behind?_eq_some_iff.mpr rfl

/-- A name is read as far as it goes. -/
theorem name?_append {name : List Char} {c : Char} (hne : name ≠ [])
    (hword : ∀ c ∈ name, isWord c = true) (hc : isWord c = false) :
    name? (name ++ c :: rest) = some (name, c :: rest) := by
  have htake : (name ++ c :: rest).takeWhile isWord = name := by
    rw [List.takeWhile_append_of_pos hword, List.takeWhile_cons_of_neg (by simp [hc]),
      List.append_nil]
  have hdrop : (name ++ c :: rest).dropWhile isWord = c :: rest := by
    rw [List.dropWhile_append_of_pos hword, List.dropWhile_cons_of_neg (by simp [hc])]
  obtain ⟨d, more, rfl⟩ := List.exists_cons_of_ne_nil hne
  rw [name?, htake, hdrop]

/-- The name of a handler, up to its parameters. -/
theorem handlerName?_eq {name : String} (h : IsName name) (rest : List Char) :
    handlerName? ("On".toList ++ (name.toList ++ '(' :: rest)) = some (name.toList, rest) := by
  have hblanks : behindBlanks ('(' :: rest) = '(' :: rest :=
    List.dropWhile_cons_of_neg (by decide)
  unfold handlerName?
  rw [behind?_append]
  simp only [bind, Option.bind, name?_append h.nonempty h.word (by decide : isWord '(' = false),
    hblanks, behind?, if_true, pure]

/-- Blanks before something else are left behind. -/
theorem behindSomeBlanks?_cons {c : Char} (hc : isBlank c = false) (rest : List Char) :
    behindSomeBlanks? (' ' :: c :: rest) = some (c :: rest) := by
  rw [behindSomeBlanks?, if_pos (by decide), behindBlanks,
    List.dropWhile_cons_of_neg (by simp [hc])]

/-! ### Declarations -/

/-- The line of a declaration, piece by piece. -/
theorem lineOf_declarationLine (p : Packet) : lineOf p.declarationLine =
    '\t' :: ("void".toList ++ ' ' :: ("On".toList ++ (p.name.toList ++ '(' ::
      (("const ".toList ++ (p.name.toList ++ "& packet".toList)) ++ ')' :: ';' :: ['\n'])))) := by
  have hline : p.declarationLine = "\tvoid On" ++ p.name ++ "(const " ++ p.name ++ "& packet);" :=
    rfl
  simp [lineOf, hline]

/-- A declaration at the start of a line is read. -/
theorem declaration?_line {p : Packet} (h : IsName p.name) (rest : List Char) :
    declaration? (lineOf p.declarationLine ++ rest) = some (p.name.toList, '\n' :: rest) := by
  have hno : ∀ c ∈ "const ".toList ++ (p.name.toList ++ "& packet".toList),
      decide (c ≠ ')') = true := by
    intro c hc
    rw [decide_eq_true_eq]
    rintro rfl
    simp only [List.mem_append] at hc
    rcases hc with hc | hc | hc
    · revert hc
      decide
    · exact h.not_mem (by decide) hc
    · revert hc
      decide
  have hparameters : List.dropWhile (fun c => decide (c ≠ ')'))
      (("const ".toList ++ (p.name.toList ++ "& packet".toList)) ++ ')' :: ';' :: '\n' :: rest) =
        ')' :: ';' :: '\n' :: rest := by
    rw [List.dropWhile_append_of_pos hno, List.dropWhile_cons_of_neg (by decide)]
  have hline : lineOf p.declarationLine ++ rest =
      '\t' :: ("void".toList ++ ' ' :: ("On".toList ++ (p.name.toList ++ '(' ::
        (("const ".toList ++ (p.name.toList ++ "& packet".toList)) ++ ')' :: ';' :: '\n' ::
          rest)))) := by
    rw [lineOf_declarationLine]
    simp
  rw [hline]
  -- Of the parameters, it matters only where they end.
  generalize ("const ".toList ++ (p.name.toList ++ "& packet".toList)) ++
    ')' :: ';' :: '\n' :: rest = parameters at hparameters ⊢
  unfold declaration?
  have hblanks : behindBlanks ('\t' :: ("void".toList ++ ' ' :: ("On".toList ++
      (p.name.toList ++ '(' :: parameters)))) =
      "void".toList ++ ' ' :: ("On".toList ++ (p.name.toList ++ '(' :: parameters)) := by
    rw [behindBlanks, List.dropWhile_cons_of_pos (by decide)]
    exact List.dropWhile_cons_of_neg (by decide)
  have hname : handlerName? ("On".toList ++ (p.name.toList ++ '(' :: parameters)) =
    some (p.name.toList, parameters) := handlerName?_eq h _
  have hsome : behindSomeBlanks? (' ' :: ("On".toList ++ (p.name.toList ++ '(' :: parameters))) =
      some ("On".toList ++ (p.name.toList ++ '(' :: parameters)) :=
    behindSomeBlanks?_cons (by decide) _
  have hsemicolon : behindBlanks (';' :: '\n' :: rest) = ';' :: '\n' :: rest :=
    List.dropWhile_cons_of_neg (by decide)
  simp only [hblanks, behind?_append, hsome, hname, hparameters, bind, Option.bind]
  simp [behind?, hsemicolon]

/-- A declaration that was written is found. -/
theorem namesFrom_declaration {p : Packet} (h : IsName p.name) (hbefore : startsLine before = true)
    (rest : List Char) :
    HandlerForm.declaration.namesFrom before 0 (lineOf p.declarationLine ++ rest) =
      p.name.toList :: HandlerForm.declaration.namesFrom (some '\n') 0 rest := by
  have hread := declaration?_line h rest
  have hline : lineOf p.declarationLine ++ rest =
      '\t' :: ((("void On".toList ++ (p.name.toList ++ ("(const ".toList ++ (p.name.toList ++
        "& packet)".toList)))) ++ [';']) ++ '\n' :: rest) := by
    rw [lineOf_declarationLine]
    simp
  rw [hline] at hread ⊢
  have hhere : HandlerForm.declaration.here? before _ = _ := (if_pos hbefore).trans hread
  have hend : HandlerForm.declaration.here? (some ';') ('\n' :: rest) = none := rfl
  have hlast : (some ';').or (some '\t') = some ';' := rfl
  rw [HandlerForm.namesFrom_found hhere, List.getLast?_concat, hlast,
    HandlerForm.namesFrom_none hend]

/-! ### Quiet texts -/

/-- A text in which no definition of a handler is found, wherever it stands. -/
def Quiet (C : String) (piece : List Char) : Prop :=
  ∀ before rest, (HandlerForm.definition C).namesFrom before 0 (piece ++ rest) =
    (HandlerForm.definition C).namesFrom (piece.getLast?.or before) 0 rest

theorem quiet_nil (C : String) : Quiet C [] :=
  fun _ _ => rfl

theorem Quiet.append {a b : List Char} (ha : Quiet C a) (hb : Quiet C b) : Quiet C (a ++ b) := by
  intro before rest
  rw [List.append_assoc, ha, hb, List.getLast?_append, Option.or_assoc]

/-- Where no definition begins, none is read, whatever stands before. -/
theorem here?_of_definition? (h : definition? C.toList text = none) (before : Option Char) :
    (HandlerForm.definition C).here? before text = none := by
  have hhere : (HandlerForm.definition C).here? before text =
    if startsWord before then definition? C.toList text else none := rfl
  rw [hhere, h, ite_self]

/-- No definition begins with a character that is no word character. -/
theorem here?_of_nonword {c : Char} (hc : isWord c = false) (before : Option Char)
    (text : List Char) : (HandlerForm.definition C).here? before (c :: text) = none := by
  have hnone : definition? C.toList (c :: text) = none := by
    have hbehind : behind? "void".toList (c :: text) = none := by
      refine if_neg ?_
      rintro rfl
      exact absurd hc (by decide)
    rw [definition?, hbehind]
    rfl
  exact here?_of_definition? hnone before

theorem quiet_nonword {c : Char} (hc : isWord c = false) : Quiet C [c] := by
  intro before rest
  rw [List.singleton_append, HandlerForm.namesFrom_none (here?_of_nonword hc _ _)]
  rfl

theorem quiet_nonwords {piece : List Char} (h : piece.any isWord = false) :
    Quiet C piece := by
  induction piece with
  | nil => exact quiet_nil C
  | cons c piece ih =>
    rw [List.any_cons, Bool.or_eq_false_iff] at h
    exact (quiet_nonword h.1).append (ih h.2)

/-- A word does not begin a definition, unless it is `void` and the session class follows. -/
theorem definition?_word {word : List Char} {c : Char} (hword : ∀ d ∈ word, isWord d = true)
    (hc : isWord c = false)
    (hvoid : word = "void".toList → isBlank c = true → member? C.toList rest = none) :
    definition? C.toList (word ++ c :: rest) = none := by
  cases hbehind : behind? "void".toList (word ++ c :: rest) with
  | none =>
    rw [definition?, hbehind]
    rfl
  | some text =>
    have hnone : word = "void".toList → text = c :: rest →
        definition? C.toList (word ++ c :: rest) = none := by
      rintro hw rfl
      rw [definition?, hbehind]
      dsimp only [bind, Option.bind]
      split
      · rename_i hblank
        exact hvoid hw hblank
      · rfl
    rcases List.append_eq_append_iff.mp (behind?_eq_some_iff.mp hbehind) with
      ⟨more, hw, htext⟩ | ⟨more, hw, htext⟩
    · cases more with
      | nil => exact hnone (by simpa using hw.symm) (by simpa using htext.symm)
      | cons d more =>
        -- The character behind the word would be one of `void`.
        have hmem : d ∈ "void".toList := by
          rw [hw]
          simp
        obtain rfl : c = d := (List.cons.inj htext).1
        have hall : ∀ d ∈ "void".toList, isWord d = true := List.all_eq_true.mp (by decide)
        rw [hall c hmem] at hc
        cases hc
    · cases more with
      | nil => exact hnone (by simpa using hw) (by simpa using htext)
      | cons d more =>
        subst htext
        have hd : isBlank d = false := isBlank_of_isWord (hword d (by simp [hw]))
        rw [definition?, hbehind]
        simp only [bind, Option.bind, List.cons_append, hd, Bool.false_eq_true, if_false]

/-- Behind a word character, a word goes on. -/
theorem namesFrom_inner {word : List Char} {b c : Char} (hb : isWord b = true)
    (hword : ∀ d ∈ word, isWord d = true) (hc : isWord c = false) :
    (HandlerForm.definition C).namesFrom (some b) 0 (word ++ c :: rest) =
      (HandlerForm.definition C).namesFrom (some c) 0 rest := by
  induction word generalizing b with
  | nil => exact HandlerForm.namesFrom_none (here?_of_nonword hc _ _)
  | cons d word ih =>
    have hhere : (HandlerForm.definition C).here? (some b) (d :: (word ++ c :: rest)) = none :=
      if_neg (by simp [startsWord, hb])
    rw [List.cons_append, HandlerForm.namesFrom_none hhere,
      ih (hword d (by simp)) fun d hd => hword d (by simp [hd])]

/-- A word is passed over, unless a definition begins with it. -/
theorem namesFrom_word {word : List Char} {c : Char} (hne : word ≠ [])
    (hword : ∀ d ∈ word, isWord d = true) (hc : isWord c = false)
    (hvoid : word = "void".toList → isBlank c = true → member? C.toList rest = none)
    (before : Option Char) :
    (HandlerForm.definition C).namesFrom before 0 (word ++ c :: rest) =
      (HandlerForm.definition C).namesFrom (some c) 0 rest := by
  have hnone := definition?_word hword hc hvoid
  obtain ⟨d, word, rfl⟩ := List.exists_cons_of_ne_nil hne
  have hhere : (HandlerForm.definition C).here? before (d :: (word ++ c :: rest)) = none :=
    here?_of_definition? hnone before
  rw [List.cons_append, HandlerForm.namesFrom_none hhere,
    namesFrom_inner (hword d (by simp)) (fun d hd => hword d (by simp [hd])) hc]

/-- A word is quiet if what follows it is no blank. -/
theorem quiet_word {word : List Char} {c : Char} (hne : word ≠ [])
    (hword : word.all isWord = true) (hc : isWord c = false)
    (hvoid : word = "void".toList → isBlank c = false) : Quiet C (word ++ [c]) := by
  intro before rest
  have hall : ∀ d ∈ word, isWord d = true := List.all_eq_true.mp hword
  rw [List.append_assoc, List.singleton_append, namesFrom_word hne hall hc fun hw hblank => by
    rw [hvoid hw] at hblank
    cases hblank]
  rw [List.getLast?_concat]
  rfl

/-! ### Definitions -/

/-- A text without white space, as what stands before `::` has to be. -/
def IsUnspaced (s : String) : Prop :=
  ∀ c ∈ s.toList, isBlank c = false

instance (s : String) : Decidable (IsUnspaced s) :=
  List.decidableBAll _ s.toList

theorem IsName.isUnspaced {s : String} (h : IsName s) : IsUnspaced s :=
  fun c hc => isBlank_of_isWord (h.word c hc)

theorem IsUnspaced.not_mem {s : String} (h : IsUnspaced s) {c : Char} (hc : isBlank c = true) :
    c ∉ s.toList := by
  intro hmem
  rw [h c hmem] at hc
  cases hc

theorem IsUnspaced.isSingle {s : String} (h : IsUnspaced s) : IsSingle s :=
  ⟨h.not_mem (by decide), h.not_mem (by decide)⟩

/-- Something that white space follows is no member function of a class, unless it has colons. -/
theorem member?_eq_none {piece : List Char} {c : Char} (hC : IsUnspaced C) (hne : piece ≠ [])
    (hpiece : piece.all (!isBlank ·) = true) (hcolon : ':' ∉ piece) (hc : isBlank c = true)
    (rest : List Char) : member? C.toList (piece ++ c :: rest) = none := by
  have hpiece : ∀ d ∈ piece, (!isBlank d) = true := List.all_eq_true.mp hpiece
  have hbehind : behind? (C.toList ++ "::".toList) (piece ++ c :: rest) = none := by
    by_contra hsome
    obtain ⟨text, htext⟩ := Option.ne_none_iff_exists'.mp hsome
    have heq := behind?_eq_some_iff.mp htext
    -- Up to the first white space, there is `piece` on the left, and two colons on the right.
    have htake := congrArg (List.takeWhile (!isBlank ·)) heq
    have hcolons : ∀ d ∈ "::".toList, (!isBlank d) = true := List.all_eq_true.mp (by decide)
    have hclass : ∀ d ∈ C.toList ++ "::".toList, (!isBlank d) = true := by
      intro d hd
      rcases List.mem_append.mp hd with hd | hd
      · rw [hC d hd]
        rfl
      · exact hcolons d hd
    rw [List.takeWhile_append_of_pos hpiece, List.takeWhile_cons_of_neg
      (by simp [hc]), List.append_nil, List.takeWhile_append_of_pos hclass] at htake
    exact hcolon (by rw [htake]; simp)
  obtain ⟨d, piece, rfl⟩ := List.exists_cons_of_ne_nil hne
  rw [List.cons_append] at hbehind ⊢
  have hd : isBlank d = false := by simpa using hpiece d List.mem_cons_self
  rw [member?, hbehind, Option.bind_none, if_neg (by simp [hd])]
  rfl

/-! ### Lines behind a definition -/

theorem quiet_lines {ss : List String} (h : ∀ s ∈ ss, Quiet C (lineOf s)) :
    Quiet C (ss.map lineOf).flatten := by
  induction ss with
  | nil => exact quiet_nil C
  | cons s ss ih =>
    exact (h s (by simp)).append (ih fun s hs => h s (by simp [hs]))

/-- The line that declares the reply is quiet, whatever the name of its class. -/
theorem quiet_reply {reply : String} (hC : IsUnspaced C) (h : IsName reply) :
    Quiet C (lineOf s!"\t{reply} reply;") := by
  have hvariable : Quiet C (reply.toList ++ ' ' :: ("reply".toList ++ [';'] ++ ['\n'])) := by
    intro before rest
    have hreply : Quiet C ("reply".toList ++ [';'] ++ ['\n']) :=
      (quiet_word (by decide) (by decide) (by decide) (by decide)).append
        (quiet_nonwords (by decide))
    have hmember : member? C.toList ("reply".toList ++ [';'] ++ ['\n'] ++ rest) = none := by
      rw [List.append_assoc]
      exact member?_eq_none hC (by decide) (by decide) (by decide) (by decide) rest
    rw [List.append_assoc, List.cons_append, namesFrom_word h.nonempty h.word (by decide)
      fun _ _ => hmember, hreply]
    simp
  have hline : lineOf s!"\t{reply} reply;" =
      ['\t'] ++ (reply.toList ++ ' ' :: ("reply".toList ++ [';'] ++ ['\n'])) := by
    have heq : s!"\t{reply} reply;" = "\t" ++ reply ++ " reply;" := rfl
    simp [lineOf, heq]
  rw [hline]
  exact (quiet_nonwords (by decide)).append hvariable

/-- The line that sends the reply is quiet. -/
theorem quiet_send (C : String) : Quiet C (lineOf "\tSendPacket(reply);") := by
  have hline : lineOf "\tSendPacket(reply);" = ['\t'] ++ ("SendPacket".toList ++ ['(']) ++
      ("reply".toList ++ [')']) ++ [';', '\n'] := by
    decide
  rw [hline]
  refine (((quiet_nonwords (by decide)).append ?_).append ?_).append (quiet_nonwords (by decide))
  · exact quiet_word (by decide) (by decide) (by decide) (by decide)
  · exact quiet_word (by decide) (by decide) (by decide) (by decide)

/-- The parameters of a definition, to the end of its first line. -/
theorem quiet_parameters {name : String} (h : IsName name) :
    Quiet C ("const ".toList ++ (name.toList ++ ['&']) ++ " packet)\n".toList) := by
  have hconst : Quiet C ("const".toList ++ [' ']) :=
    quiet_word (by decide) (by decide) (by decide) (by decide)
  have hpacket : Quiet C " packet)\n".toList := by
    have hparts : " packet)\n".toList = [' '] ++ ("packet".toList ++ [')']) ++ ['\n'] := by
      decide
    rw [hparts]
    refine ((quiet_nonwords (by decide)).append ?_).append (quiet_nonwords (by decide))
    exact quiet_word (by decide) (by decide) (by decide) (by decide)
  have hname : Quiet C (name.toList ++ ['&']) :=
    quiet_word h.nonempty (List.all_eq_true.mpr h.word) (by decide) fun _ => by decide
  exact (hconst.append hname).append hpacket

/-! ### Definitions that were written -/

/-- A definition is read. -/
theorem definition?_eq {name : String} (C : String) (h : IsName name) (rest : List Char) :
    definition? C.toList ("void".toList ++ ' ' :: ((C.toList ++ "::".toList) ++
      ("On".toList ++ (name.toList ++ '(' :: rest)))) = some (name.toList, rest) := by
  have hmember : ∀ text, handlerName? text = some (name.toList, rest) →
      member? C.toList ((C.toList ++ "::".toList) ++ text) = some (name.toList, rest) := by
    intro text hname
    have hbehind := behind?_append (C.toList ++ "::".toList) text
    obtain ⟨d, more, hd⟩ := List.exists_cons_of_ne_nil (by simp : C.toList ++ "::".toList ≠ [])
    rw [hd, List.cons_append] at hbehind ⊢
    rw [member?, hd, hbehind, Option.bind_some, hname]
    rfl
  unfold definition?
  rw [behind?_append]
  simp only [bind, Option.bind, if_pos (by decide : isBlank ' ' = true)]
  exact hmember _ (handlerName?_eq h rest)

/-- The first line of a definition, piece by piece. -/
theorem lineOf_stubLine (C name : String) :
    lineOf s!"void {C}::On{name}(const {name}& packet)" = 'v' :: (("oid ".toList ++ (C.toList ++
      ("::On".toList ++ name.toList)) ++ ['(']) ++
        ("const ".toList ++ (name.toList ++ ['&']) ++ " packet)\n".toList)) := by
  have heq : s!"void {C}::On{name}(const {name}& packet)" =
      "void " ++ C ++ "::On" ++ name ++ "(const " ++ name ++ "& packet)" := rfl
  simp [lineOf, heq]

/-- Behind its first line, a stub reads no handler. -/
theorem exists_stubLines {p : Packet} {reply? : Option String} (hC : IsUnspaced C)
    (hreply : ∀ reply ∈ reply?, IsName reply) : ∃ others, p.stubLines C reply? =
      s!"void {C}::On{p.name}(const {p.name}& packet)" :: (others ++ [""]) ∧
        ∀ s ∈ others, Quiet C (lineOf s) := by
  refine ⟨"\x7b" :: ((reply?.map fun reply =>
    [s!"\t{reply} reply;", "\tSendPacket(reply);"]).getD [] ++ ["\x7d"]), ?_, ?_⟩
  · simp [Packet.stubLines]
  · intro s hs
    simp only [List.mem_cons, List.mem_append, List.not_mem_nil, or_false] at hs
    rcases hs with rfl | hs | rfl
    · exact quiet_nonwords (by decide)
    · cases reply? with
      | none => cases hs
      | some reply =>
        simp only [Option.map_some, Option.getD_some, List.mem_cons, List.not_mem_nil,
          or_false] at hs
        rcases hs with rfl | rfl
        · exact quiet_reply hC (hreply reply rfl)
        · exact quiet_send C
    · exact quiet_nonwords (by decide)

/-- A definition that was written is found. -/
theorem namesFrom_stub {p : Packet} {reply? : Option String} (hC : IsUnspaced C) (h : IsName p.name)
    (hreply : ∀ reply ∈ reply?, IsName reply) (hbefore : startsWord before = true)
    (rest : List Char) :
    (HandlerForm.definition C).namesFrom before 0
        (((p.stubLines C reply?).map lineOf).flatten ++ rest) =
      p.name.toList :: (HandlerForm.definition C).namesFrom (some '\n') 0 rest := by
  obtain ⟨others, hlines, hothers⟩ := exists_stubLines (p := p) hC hreply
  have hquiet : Quiet C (("const ".toList ++ (p.name.toList ++ ['&']) ++ " packet)\n".toList) ++
      ((others.map lineOf).flatten ++ ['\n'])) :=
    (quiet_parameters h).append ((quiet_lines hothers).append (quiet_nonwords (by decide)))
  have htext : ((p.stubLines C reply?).map lineOf).flatten ++ rest =
      'v' :: (("oid ".toList ++ (C.toList ++ ("::On".toList ++ p.name.toList)) ++ ['(']) ++
        (("const ".toList ++ (p.name.toList ++ ['&']) ++ " packet)\n".toList) ++
          ((others.map lineOf).flatten ++ ['\n']) ++ rest)) := by
    have hempty : lineOf "" = ['\n'] := rfl
    rw [hlines, List.map_cons, List.flatten_cons, lineOf_stubLine]
    simp [hempty]
  rw [htext]
  generalize ("const ".toList ++ (p.name.toList ++ ['&']) ++ " packet)\n".toList) = parameters
    at hquiet ⊢
  have hhere : (HandlerForm.definition C).here? before ('v' :: (("oid ".toList ++ (C.toList ++
      ("::On".toList ++ p.name.toList)) ++ ['(']) ++ (parameters ++
        ((others.map lineOf).flatten ++ ['\n']) ++ rest))) =
      some (p.name.toList, parameters ++ ((others.map lineOf).flatten ++ ['\n']) ++ rest) := by
    have hread := definition?_eq C h (parameters ++ ((others.map lineOf).flatten ++ ['\n']) ++ rest)
    refine (if_pos hbefore).trans (Eq.trans (congrArg _ ?_) hread)
    simp
  rw [HandlerForm.namesFrom_found hhere, hquiet, ← List.append_assoc parameters,
    List.getLast?_concat]
  rfl

/-! ### Texts that are made of handlers -/

/-- A handler of a name, as the generator writes it in a form. -/
inductive IsHandler : HandlerForm → String → List String → Prop where
  /-- The declaration of the handler of a packet. -/
  | declaration {p : Packet} (h : IsName p.name) : IsHandler .declaration p.name [p.declarationLine]
  /-- The definition of the handler of a packet, with a reply or without one. -/
  | definition {p : Packet} {C : String} {reply? : Option String} (hC : IsUnspaced C)
    (h : IsName p.name) (hreply : ∀ reply ∈ reply?, IsName reply) :
    IsHandler (.definition C) p.name (p.stubLines C reply?)

/-- A handler that begins a line is found. -/
theorem IsHandler.namesFrom_eq {name : String} {block : List String}
    (h : IsHandler form name block) (hbefore : startsLine before = true) (rest : List Char) :
    form.namesFrom before 0 ((block.map lineOf).flatten ++ rest) =
      name.toList :: form.namesFrom (some '\n') 0 rest := by
  cases h with
  | declaration h =>
    rw [List.map_singleton, List.flatten_singleton]
    exact namesFrom_declaration h hbefore rest
  | definition hC h hreply =>
    refine namesFrom_stub hC h hreply ?_ rest
    cases before with
    | none => rfl
    | some c =>
      have hc : c = '\n' := by simpa [startsLine] using hbefore
      subst hc
      decide

/-- A scan at the start of a line finds the handlers that follow, in order. -/
theorem namesFrom_handlers {blocks : List (String × List String)}
    (h : ∀ block ∈ blocks, IsHandler form block.1 block.2) (hbefore : startsLine before = true) :
    form.namesFrom before 0 ((blocks.flatMap (·.2)).map lineOf).flatten =
      blocks.map (·.1.toList) := by
  induction blocks generalizing before with
  | nil => rfl
  | cons block blocks ih =>
    have hrest := @ih (some '\n') (fun b hb => h b (by simp [hb])) rfl
    rw [List.flatMap_cons, List.map_append, List.flatten_append,
      (h block (by simp)).namesFrom_eq hbefore, hrest, List.map_cons]

/-- **The handlers that were written are found**, in the order in which they stand. -/
theorem names_of_handlers {blocks : List (String × List String)}
    (h : ∀ block ∈ blocks, IsHandler form block.1 block.2) :
    form.names ((blocks.flatMap (·.2)).map lineOf).flatten = blocks.map (·.1) := by
  rw [HandlerForm.names, namesFrom_handlers h rfl, List.map_map]
  exact List.map_congr_left fun block _ => String.ofList_toList

end Packetry

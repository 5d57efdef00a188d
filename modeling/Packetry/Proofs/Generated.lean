import Packetry.Proofs.Enumerators
import Packetry.Proofs.Handlers
import Mathlib.Data.List.TakeWhile
import Mathlib.Data.Option.Basic

/-!
# Generated code is plain

No line of the code that is generated for packets can be taken for a sentinel, if the packets
are *plain*: their names and the names of their members are made of word characters, and the
types of the members are single lines that do not begin with a number sign
(`Packetry.contentOf_isPlain`). What is added to the handlers of a session is, besides, made of
handlers that are found again.

Enumerators are the one place where characters come in that are not in the schema, since a
letter may have an upper case form of its own; none of those ends a line or is a colon
(`Packetry.notMem_upperForm`).
-/

namespace Packetry

open Text

/-! ### Enumerators -/

theorem notMem_upperSnakeAfter {before e : Char} {text : List Char} (h : e ∉ text)
    (he : e ∈ strangers) (hword : isWord e = false) : e ∉ upperSnakeAfter before text := by
  induction text generalizing before with
  | nil => exact List.not_mem_nil
  | cons c text ih =>
    obtain ⟨hc, htext⟩ := not_or.mp (mt List.mem_cons.mpr h)
    rw [upperSnakeAfter, List.mem_append, List.mem_append, not_or, not_or]
    refine ⟨⟨?_, notMem_upperForm hc he⟩, ih htext⟩
    split
    · rw [List.mem_singleton]
      rintro rfl
      exact absurd hword (by decide)
    · exact List.not_mem_nil

/-- The enumerator of a packet has a stranger only if the name has it. -/
theorem notMem_enumeratorOf {name : String} {e : Char} (h : e ∉ name.toList)
    (he : e ∈ strangers) (hword : isWord e = false) : e ∉ (enumeratorOf name).toList := by
  rw [enumeratorOf, String.toList_ofList]
  cases hname : name.toList with
  | nil => exact List.not_mem_nil
  | cons c text =>
    rw [hname] at h
    obtain ⟨hc, htext⟩ := not_or.mp (mt List.mem_cons.mpr h)
    rw [upperSnake, List.mem_append, not_or]
    exact ⟨notMem_upperForm hc he, notMem_upperSnakeAfter htext he hword⟩

theorem IsName.notMem_enumerator {p : Packet} {e : Char} (h : IsName p.name)
    (he : e ∈ strangers) (hword : isWord e = false) : e ∉ p.enumerator.toList :=
  notMem_enumeratorOf (h.not_mem hword) he hword

theorem IsName.enumerator {p : Packet} (h : IsName p.name) : IsSingle p.enumerator :=
  ⟨h.notMem_enumerator (by decide) (by decide), h.notMem_enumerator (by decide) (by decide)⟩

/-! ### Plain packets -/

/-- A member that can be declared on one line. -/
structure Field.IsPlain (f : Field) : Prop where
  /-- Its name is made of word characters. -/
  name : IsName f.name
  /-- Its type is a single line. -/
  single : IsSingle f.type
  /-- Its type does not begin like a sentinel. -/
  noSign : (trim f.type.toList).head? ≠ some '#'

/-- A packet for which plain code is generated. -/
structure Packet.IsPlain (p : Packet) : Prop where
  /-- Its name is made of word characters. -/
  name : IsName p.name
  /-- Its members are plain. -/
  fields : ∀ f ∈ p.fields.getD [], f.IsPlain

/-! ### Lines that begin with a name -/

/-- A name opens a plain line. -/
theorem IsName.opens {s : String} (h : IsName s) : Opens s := by
  have hdrop : s.toList.dropWhile isBlank = s.toList := by
    obtain ⟨c, rest, hs⟩ := List.exists_cons_of_ne_nil h.nonempty
    have hc : isBlank c = false := isBlank_of_isWord (h.word c (by simp [hs]))
    rw [hs, List.dropWhile_cons_of_neg (by simp [hc])]
  have hsign : '#' ∉ s.toList := h.not_mem (by decide)
  have hopen : ∀ text : List Char, ¬('#' :: text <+: s.toList) ∧ ¬(s.toList <+: '#' :: text) := by
    intro text
    constructor
    · exact fun hp => hsign (hp.subset List.mem_cons_self)
    · intro hp
      obtain ⟨c, rest, hs⟩ := List.exists_cons_of_ne_nil h.nonempty
      rw [hs, List.cons_prefix_cons] at hp
      obtain rfl := hp.1
      exact hsign (by simp [hs])
  refine ⟨?_, ?_, ?_⟩
  · rw [hdrop]
    exact h.nonempty
  · rw [hdrop, opener_eq]
    exact hopen _
  · rw [hdrop, closer_eq]
    exact hopen _

/-- An indented line opens as it does without the indentation. -/
theorem Opens.indent {s : String} (h : Opens s) : Opens ("\t" ++ s) := by
  have hdrop : ("\t" ++ s).toList.dropWhile isBlank = s.toList.dropWhile isBlank := by
    rw [String.toList_append]
    exact List.dropWhile_cons_of_pos (by decide)
  exact ⟨hdrop ▸ h.nonempty, hdrop ▸ h.noBegin, hdrop ▸ h.noEnd⟩

/-- The first character of a trimmed text is the first one that is no white space. -/
theorem head?_trim (text : List Char) : (trim text).head? = (text.dropWhile isBlank).head? := by
  unfold trim
  cases hdrop : text.dropWhile isBlank with
  | nil => rfl
  | cons c rest =>
    have hc : isBlank c = false := by
      have hhead := List.head?_dropWhile_not isBlank text
      rw [hdrop] at hhead
      simpa using hhead
    have hkeep : (c :: rest).reverse.dropWhile isBlank ≠ [] := by
      rw [List.reverse_cons, List.dropWhile_append]
      split
      · rw [List.dropWhile_cons_of_neg (by simp [hc])]
        exact List.cons_ne_nil _ _
      · rename_i hne
        simp only [ne_eq, List.append_eq_nil_iff, not_and]
        exact fun _ => List.cons_ne_nil _ _
    obtain ⟨front, hfront⟩ := List.dropWhile_suffix isBlank (l := (c :: rest).reverse)
    have hrev := congrArg List.reverse hfront
    rw [List.reverse_append, List.reverse_reverse] at hrev
    rw [trimEnd]
    obtain ⟨d, more, hd⟩ := List.exists_cons_of_ne_nil (List.reverse_ne_nil_iff.mpr hkeep)
    rw [hd] at hrev ⊢
    rw [List.cons_append] at hrev
    rw [List.head?_cons, List.head?_cons, (List.cons.inj hrev).1]

/-- The declaration of a member is plain, even if its type is blank. -/
theorem Field.IsPlain.line {f : Field} (h : f.IsPlain) : IsPlainLine s!"\t{f.type} {f.name};" := by
  have hline : s!"\t{f.type} {f.name};" = "\t" ++ f.type ++ " " ++ f.name ++ ";" := rfl
  rw [hline]
  have hsingle : IsSingle ("\t" ++ f.type ++ " " ++ f.name ++ ";") := by
    refine IsSingle.append (IsSingle.append (IsSingle.append (IsSingle.append ?_ h.single) ?_)
      h.name.isSingle) ?_ <;> decide
  refine isPlainLine_of_head hsingle ?_
  by_cases hblank : f.type.toList.dropWhile isBlank = []
  · -- The type is skipped with the white space around it, so that the name comes first.
    have hall : ∀ c ∈ ("\t" ++ f.type ++ " ").toList, isBlank c = true := by
      rw [List.dropWhile_eq_nil_iff] at hblank
      intro c hc
      simp only [String.toList_append, List.mem_append] at hc
      rcases hc with (hc | hc) | hc
      · exact List.all_eq_true.mp (by decide) c hc
      · exact hblank c hc
      · exact List.all_eq_true.mp (by decide) c hc
    obtain ⟨d, rest, hd⟩ := List.exists_cons_of_ne_nil h.name.nonempty
    have hword := h.name.word d (by simp [hd])
    have hparts : lineOf ("\t" ++ f.type ++ " " ++ f.name ++ ";") =
        ("\t" ++ f.type ++ " ").toList ++ d :: (rest ++ [';', '\n']) := by
      simp [lineOf, hd]
    rw [hparts, List.dropWhile_append_of_pos hall,
      List.dropWhile_cons_of_neg (by simp [isBlank_of_isWord hword])]
    rintro ⟨rfl⟩
    exact absurd hword (by decide)
  · have hdrop : (lineOf ("\t" ++ f.type ++ " " ++ f.name ++ ";")).dropWhile isBlank =
        f.type.toList.dropWhile isBlank ++ (' ' :: (f.name.toList ++ [';', '\n'])) := by
      rw [← dropWhile_append_of_ne hblank]
      simp [lineOf, (by decide : isBlank '\t' = true)]
    have hsign := h.noSign
    rw [head?_trim] at hsign
    obtain ⟨c, rest, hc⟩ := List.exists_cons_of_ne_nil hblank
    rw [hdrop, hc]
    rw [hc] at hsign
    exact hsign

/-! ### Blocks -/

namespace Packet

variable {p : Packet} {C : String}

theorem enumeratorLine_isPlainLine (h : IsName p.name) : IsPlainLine p.enumeratorLine := by
  have hopens : Opens p.enumeratorLine := Opens.append (by decide) p.enumerator
  exact hopens.isPlainLine (IsSingle.append (by decide) h.enumerator)

theorem registrationLine_isPlainLine (h : IsName p.name) : IsPlainLine p.registrationLine := by
  have hopens : Opens p.registrationLine := Opens.append (Opens.append (by decide) p.name) _
  exact hopens.isPlainLine (IsSingle.append (IsSingle.append (by decide) h.isSingle) (by decide))

theorem constant_single (h : IsName p.name) : IsSingle p.constant := by
  refine IsSingle.append (IsSingle.append (IsSingle.append (IsSingle.append ?_ ?_) ?_) h.enumerator)
    ?_ <;> decide

theorem bindingLine_isPlainLine (hC : IsName C) (h : IsName p.name) :
    IsPlainLine (p.bindingLine C) := by
  have hbegin : Opens s!"\tRegisterPacketHandler<{C}, {p.name}>({p.constant}, " :=
    (((((Opens.append (by decide) C).append _).append p.name).append _).append _).append _
  have hfirst : IsSingle s!"\tRegisterPacketHandler<{C}, {p.name}>({p.constant}, " := by
    refine IsSingle.append (IsSingle.append (IsSingle.append (IsSingle.append (IsSingle.append
      (IsSingle.append ?_ hC.isSingle) ?_) h.isSingle) ?_) (constant_single h)) ?_ <;> decide
  have hsecond : IsSingle s!"&{C}::On{p.name});" := by
    refine IsSingle.append (IsSingle.append (IsSingle.append (IsSingle.append ?_ hC.isSingle) ?_)
      h.isSingle) ?_ <;> decide
  exact (hbegin.append _).isPlainLine (hfirst.append hsecond)

theorem classLines_isPlainLine (h : p.IsPlain) : ∀ s ∈ p.classLines, IsPlainLine s := by
  have hname := h.name.isSingle
  intro s hs
  simp only [classLines, List.mem_append, List.mem_cons, List.not_mem_nil, or_false] at hs
  rcases hs with ((rfl | rfl | rfl | rfl | rfl | rfl | rfl | rfl) | hs) | rfl | rfl
  · exact ((Opens.append (by decide) p.name).append _).isPlainLine
      ((IsSingle.append (by decide) hname).append (by decide))
  · decide
  · decide
  · exact (h.name.opens.indent.append _).isPlainLine
      ((IsSingle.append (by decide) hname).append (by decide))
  · exact ((Opens.append (by decide) p.name).append _).isPlainLine
      ((IsSingle.append (by decide) hname).append (by decide))
  · decide
  · decide
  · decide
  · cases hfields : p.fields with
    | none =>
      rw [hfields] at hs
      cases hs
    | some fields =>
      rw [hfields] at hs
      simp only [Option.map_some, Option.getD_some, memberLines, List.mem_append, List.mem_cons,
        List.not_mem_nil, or_false, List.mem_map] at hs
      rcases hs with (rfl | rfl | rfl | rfl) | ⟨field, hfield, rfl⟩
      · decide
      · decide
      · decide
      · decide
      · exact (h.fields field (by simp [hfields, hfield])).line
  · decide
  · decide

/-- What is put between the arguments of a call is a comma and a space. -/
theorem notMem_argumentList {c : Char} {arguments : List String} (hc : c ∉ ", ".toList)
    (h : ∀ s ∈ arguments, c ∉ s.toList) : c ∉ (argumentList arguments).toList := by
  unfold argumentList
  induction arguments with
  | nil => exact List.not_mem_nil
  | cons s rest ih =>
    cases rest with
    | nil =>
      rw [String.intercalate_singleton]
      exact h s (by simp)
    | cons t rest =>
      rw [String.intercalate_cons_cons, String.toList_append, String.toList_append,
        List.mem_append, List.mem_append, not_or, not_or]
      exact ⟨⟨h s (by simp), hc⟩, ih fun t ht => h t (by simp [ht])⟩

/-- A character that is in no name is not among the arguments. -/
theorem notMem_bufferArguments {c : Char} (h : ∀ f ∈ p.fields.getD [], IsName f.name)
    (hc : isWord c = false) (hcomma : c ∉ ", ".toList) :
    c ∉ (argumentList p.bufferArguments).toList := by
  refine notMem_argumentList hcomma fun s hs => ?_
  rcases List.mem_cons.mp hs with rfl | hs
  · exact IsName.not_mem (by decide) hc
  · obtain ⟨field, hfield, rfl⟩ := List.mem_map.mp hs
    exact (h field hfield).not_mem hc

theorem argumentList_single (h : ∀ f ∈ p.fields.getD [], IsName f.name) :
    IsSingle (argumentList p.bufferArguments) :=
  ⟨notMem_bufferArguments h (by decide) (by decide),
    notMem_bufferArguments h (by decide) (by decide)⟩

theorem Method.lines_isPlainLine {m : Method} (hsignature : IsPlainLine m.signature)
    (hstatement : IsPlainLine s!"\t{m.statement}") : ∀ s ∈ m.lines, IsPlainLine s := by
  intro s hs
  simp only [Method.lines, List.mem_cons, List.not_mem_nil, or_false] at hs
  rcases hs with rfl | rfl | rfl | rfl
  · exact hsignature
  · decide
  · exact hstatement
  · decide

theorem methods_isPlainLine (h : IsName p.name) (hfields : ∀ f ∈ p.fields.getD [], IsName f.name) :
    ∀ m ∈ p.methods, ∀ s ∈ m.lines, IsPlainLine s := by
  have hname := h.isSingle
  -- The two functions that carry the members differ in a name and in a helper only.
  have hbuffer : ∀ name helper : String, IsSingle name → IsSingle helper →
      Opens s!"\t{helper}" → ∀ s ∈ (p.bufferMethod name helper).lines, IsPlainLine s := by
    intro name helper hn hh hopens
    refine Method.lines_isPlainLine ?_ ?_
    · refine ((((Opens.append (by decide) p.name).append _).append name).append _).isPlainLine ?_
      exact (((IsSingle.append (by decide) hname).append (by decide)).append hn).append (by decide)
    · have hline : s!"\t{(p.bufferMethod name helper).statement}" =
          "\t" ++ helper ++ "(" ++ argumentList p.bufferArguments ++ ");" := by
        have hstatement : (p.bufferMethod name helper).statement =
          helper ++ "(" ++ argumentList p.bufferArguments ++ ");" := rfl
        rw [hstatement]
        simp only [String.append_assoc, toString]
      rw [hline]
      refine (((hopens.append _).append _).append _).isPlainLine ?_
      exact ((((IsSingle.append (by decide) hh).append (by decide)).append
        (argumentList_single hfields)).append (by decide))
  intro m hm
  rw [methods, List.mem_cons] at hm
  rcases hm with rfl | hm
  · refine Method.lines_isPlainLine ?_ ?_
    · exact ((Opens.append (by decide) p.name).append _).isPlainLine
        ((IsSingle.append (by decide) hname).append (by decide))
    · have hline : s!"\t{p.identifierMethod.statement}" = "\treturn " ++ p.constant ++ ";" := by
        have hstatement : p.identifierMethod.statement = "return " ++ p.constant ++ ";" := rfl
        have hreturn : "\treturn " = "\t" ++ "return " := rfl
        rw [hstatement, hreturn]
        simp only [String.append_assoc, toString]
      rw [hline]
      exact ((Opens.append (by decide) p.constant).append _).isPlainLine
        ((IsSingle.append (by decide) (constant_single h)).append (by decide))
  · split at hm
    · simp only [List.mem_cons, List.not_mem_nil, or_false] at hm
      rcases hm with rfl | rfl
      · exact hbuffer _ _ (by decide) (by decide) (by decide)
      · exact hbuffer _ _ (by decide) (by decide) (by decide)
    · cases hm

end Packet

/-! ### Handlers -/

/-- What a name ends in may be put for another ending. -/
theorem IsName.withEnding {request old new reply : String} (h : IsName request) (hnew : IsName new)
    (hreply : withEnding? request old new = some reply) : IsName reply := by
  obtain ⟨stem, hstem, rfl⟩ := Option.map_eq_some_iff.mp hreply
  have hrequest := stem?_eq_some_iff.mp hstem
  constructor
  · simp [hnew.nonempty]
  · intro c hc
    rw [String.toList_ofList] at hc
    rcases List.mem_append.mp hc with hc | hc
    · exact h.word c (by simp [hrequest, hc])
    · exact hnew.word c hc

/-- The conventional reply to a packet with a name has one, too. -/
theorem IsName.replyName {request reply : String} (h : IsName request)
    (hreply : replyName? request = some reply) : IsName reply := by
  unfold replyName? at hreply
  split at hreply
  · cases hreply
    decide
  · rcases (Option.orElse_eq_some ..).mp hreply with hreply | ⟨-, hreply⟩
    · exact h.withEnding (by decide) hreply
    · exact h.withEnding (by decide) hreply

theorem IsHandler.isPlainLine {form : HandlerForm} {name : String} {block : List String}
    (h : IsHandler form name block) : ∀ s ∈ block, IsPlainLine s := by
  intro s hs
  cases h with
  | @declaration p h =>
    obtain rfl := List.mem_singleton.mp hs
    refine ((((Opens.append (by decide) p.name).append _).append p.name).append _).isPlainLine ?_
    exact ((((IsSingle.append (by decide) h.isSingle).append (by decide)).append
      h.isSingle).append (by decide))
  | @definition p C reply? hC h hreply =>
    simp only [Packet.stubLines, List.mem_append, List.mem_cons, List.not_mem_nil, or_false] at hs
    rcases hs with ((rfl | rfl) | hs) | rfl | rfl
    · refine ((((((Opens.append (by decide) C).append _).append p.name).append _).append
        p.name).append _).isPlainLine ?_
      refine IsSingle.append (IsSingle.append (IsSingle.append (IsSingle.append (IsSingle.append
        (IsSingle.append ?_ hC.isSingle) ?_) h.isSingle) ?_) h.isSingle) ?_ <;> decide
    · decide
    · cases reply? with
      | none => cases hs
      | some reply =>
        have hname := hreply reply rfl
        simp only [Option.map_some, Option.getD_some, List.mem_cons, List.not_mem_nil,
          or_false] at hs
        rcases hs with rfl | rfl
        · exact (hname.opens.indent.append _).isPlainLine
            ((IsSingle.append (by decide) hname.isSingle).append (by decide))
        · decide
    · decide
    · decide

/-! ### Contents of regions -/

/-- The entry of a handler. -/
def entryOf (block : String × List String) : Entry :=
  ⟨block.1, unlines block.2⟩

/-- The keys of the entries are the names of the handlers. -/
theorem keys_entryOf (blocks : List (String × List String)) :
    (blocks.map entryOf).map (·.key) = blocks.map (·.1) := by
  rw [List.map_map]
  rfl

/-- The declarations that are generated are handlers under the names of the packets. -/
theorem exists_blocks_of_declarationEntries {packets : List Packet}
    (h : ∀ p ∈ dispatched packets, IsName p.name) : ∃ blocks : List (String × List String),
      declarationEntries packets = blocks.map entryOf ∧
      ∀ block ∈ blocks, IsHandler .declaration block.1 block.2 := by
  refine ⟨(dispatched packets).map fun p => (p.name, [p.declarationLine]), ?_, ?_⟩
  · rw [List.map_map]
    rfl
  · intro block hblock
    obtain ⟨p, hp, rfl⟩ := List.mem_map.mp hblock
    exact .declaration (h p hp)

/-- The reply to a packet has the conventional name, and the first packet of that name is a
reply. -/
theorem replyTo?_eq_some {packets : List Packet} {p : Packet} {reply : String} :
    replyTo? packets p = some reply ↔ replyName? p.name = some reply ∧
      ∃ q, find? packets reply = some q ∧ q.kind = .reply := by
  simp only [replyTo?, Option.bind_eq_bind, Option.bind_eq_some_iff, Option.ite_none_right_eq_some]
  constructor
  · rintro ⟨name, hname, q, hq, hkind, heq⟩
    have hqname : q.name = name := by simpa using List.find?_some hq
    obtain rfl : name = reply := hqname.symm.trans (Option.some.inj heq)
    exact ⟨hname, q, hq, hkind⟩
  · rintro ⟨hname, q, hq, hkind⟩
    have hqname : q.name = reply := by simpa using List.find?_some hq
    exact ⟨reply, hname, q, hq, hkind, congrArg some hqname⟩

/-- The definition of one handler. The name of the reply in it comes from that of the packet. -/
theorem isHandler_stub {C : String} {p : Packet} (hC : IsUnspaced C) (h : IsName p.name)
    (packets : List Packet) :
    IsHandler (.definition C) p.name (p.stubLines C (replyTo? packets p)) :=
  .definition hC h fun _ hreply => h.replyName (replyTo?_eq_some.mp hreply).1

/-- The definitions that are generated are handlers under the names of the packets. -/
theorem exists_blocks_of_stubEntries {C : String} {packets : List Packet} (hC : IsUnspaced C)
    (h : ∀ p ∈ dispatched packets, IsName p.name) : ∃ blocks : List (String × List String),
      stubEntries C packets = blocks.map entryOf ∧
      ∀ block ∈ blocks, IsHandler (.definition C) block.1 block.2 := by
  refine ⟨(dispatched packets).map fun p => (p.name, p.stubLines C (replyTo? packets p)), ?_, ?_⟩
  · rw [List.map_map]
    rfl
  · intro block hblock
    obtain ⟨p, hp, rfl⟩ := List.mem_map.mp hblock
    exact isHandler_stub hC (h p hp) packets

/-- A content of a region that does not disturb the sentinels: it is plain lines or, where
handlers are added to a region, handlers under the names of their packets. -/
inductive Content.IsPlain (form : HandlerForm) : Content → Prop where
  /-- A whole interior. -/
  | replace {ss : List String} (h : ∀ s ∈ ss, IsPlainLine s) : IsPlain form (.replace (unlines ss))
  /-- Handlers. -/
  | additive {blocks : List (String × List String)}
    (h : ∀ block ∈ blocks, IsHandler form block.1 block.2) :
    IsPlain form (.additive (blocks.map entryOf))

/-- The functions that are written are functions of the list. -/
theorem newMethods_subset (written : List String) (ms : List Packet.Method) :
    ∀ m ∈ newMethods written ms, m ∈ ms := by
  induction ms generalizing written with
  | nil => exact fun m hm => hm
  | cons n ms ih =>
    intro m hm
    rw [newMethods] at hm
    split at hm
    · exact List.mem_cons_of_mem _ (ih written m hm)
    · rcases List.mem_cons.mp hm with rfl | hm
      · exact List.mem_cons_self
      · exact List.mem_cons_of_mem _ (ih _ m hm)

/-- **What is generated is plain**, for plain packets. -/
theorem contentOf_isPlain {C : String} {packets : List Packet} (hC : IsName C)
    (h : ∀ p ∈ packets, p.IsPlain) (a : Artifact) :
    (contentOf C packets a).IsPlain (handlerForm C a) := by
  have hdispatched : ∀ p ∈ dispatched packets, IsName p.name :=
    fun p hp => (h p (List.mem_filter.mp hp).1).name
  cases a with
  | packetId =>
    refine .replace fun s hs => ?_
    rcases List.mem_cons.mp hs with rfl | hs
    · decide
    · obtain ⟨p, hp, rfl⟩ := List.mem_map.mp hs
      exact Packet.enumeratorLine_isPlainLine (h p hp).name
  | protocolHeader =>
    refine .replace fun s hs => ?_
    obtain ⟨p, hp, hs⟩ := List.mem_flatMap.mp hs
    exact Packet.classLines_isPlainLine (h p hp) s hs
  | protocolSource =>
    refine .replace fun s hs => ?_
    obtain ⟨m, hm, hs⟩ := List.mem_flatMap.mp hs
    obtain ⟨p, hp, hm⟩ := List.mem_flatMap.mp (newMethods_subset _ _ m hm)
    exact Packet.methods_isPlainLine (h p hp).name
      (fun f hf => ((h p hp).fields f hf).name) m hm s hs
  | packetRegister =>
    refine .replace fun s hs => ?_
    obtain ⟨p, hp, rfl⟩ := List.mem_map.mp hs
    exact Packet.registrationLine_isPlainLine (hdispatched p hp)
  | sessionHeader =>
    obtain ⟨blocks, hblocks, hhandlers⟩ := exists_blocks_of_declarationEntries hdispatched
    rw [contentOf, hblocks]
    exact .additive hhandlers
  | sessionSource =>
    obtain ⟨blocks, hblocks, hhandlers⟩ :=
      exists_blocks_of_stubEntries hC.isUnspaced hdispatched
    rw [contentOf, hblocks]
    exact .additive hhandlers
  | sessionRegister =>
    refine .replace fun s hs => ?_
    obtain ⟨p, hp, rfl⟩ := List.mem_map.mp hs
    exact Packet.bindingLine_isPlainLine hC (hdispatched p hp)

end Packetry

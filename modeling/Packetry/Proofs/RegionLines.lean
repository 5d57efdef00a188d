import Packetry.Proofs.Blocks
import Packetry.Proofs.Validated
import Mathlib.Data.List.Count

/-!
# The lines of a region

What is generated for a region, read line by line (`Packetry.Content.lines`). If names are made of
word characters and no type of a member runs over several lines, then the lines are those of the
blocks of the packets (`Packetry.WellNamed.lines_eq`).

A block of several lines has one by which its packet is known: the heading of a class, the signature
of a function. Such a line begins with a letter of its own, while members and statements are
indented. Whatever the type of a member is, it cannot be taken for the heading of a class
(`Packetry.headings_eq`, `Packetry.signatures_eq`, `Packetry.stubs_eq`).
-/

namespace Packetry

open Text

variable {C : String} {all packets : List Packet} {p : Packet} {a : Artifact} {s t : String}

/-! ### Lines -/

/-- The text of a content: the interior, or the entries one after the other. -/
def Content.text : Content → String
  | .replace text => text
  | .additive entries => String.join (entries.map (·.text))

/-- The lines of a content, without their ends. -/
def Content.lines (content : Content) : List String :=
  (Text.lines content.text.toList).map fun line => String.ofList (line.takeWhile (· != '\n'))

theorem takeWhile_lineOf (h : '\n' ∉ s.toList) :
    String.ofList ((lineOf s).takeWhile (· != '\n')) = s := by
  have hall : ∀ c ∈ s.toList, (c != '\n') = true := by
    intro c hc
    simp only [bne_iff_ne, ne_eq]
    rintro rfl
    exact h hc
  rw [lineOf, List.takeWhile_append_of_pos hall, List.takeWhile_cons_of_neg (by decide),
    List.append_nil, String.ofList_toList]

/-- The lines of a content are those that it was written from. -/
theorem Content.lines_of_text {content : Content} {ss : List String}
    (htext : content.text = unlines ss) (h : ∀ s ∈ ss, '\n' ∉ s.toList) : content.lines = ss := by
  have hlines := lines_append h []
  rw [List.append_nil] at hlines
  rw [Content.lines, htext, toList_unlines, hlines, show Text.lines [] = [] from rfl,
    List.append_nil, List.map_map]
  conv_rhs => rw [← ss.map_id]
  exact List.map_congr_left fun s hs => takeWhile_lineOf (h s hs)

theorem unlines_flatMap {α : Type} (xs : List α) (f : α → List String) :
    unlines (xs.flatMap f) = String.join (xs.map fun x => unlines (f x)) := by
  induction xs with
  | nil => rfl
  | cons x xs ih =>
    rw [List.flatMap_cons, unlines_append, ih, List.map_cons, String.join_cons]

/-- The text of a content is the code of the packets. -/
theorem text_contentOf (h : (packets.map (·.name)).Nodup) :
    (contentOf C packets a).text = unlines (a.firstLines ++ codeOf C packets packets a) := by
  cases hd : a.discipline with
  | replace =>
    rw [contentOf_replace h hd packets]
    rfl
  | additive =>
    rw [contentOf_additive hd, firstLines_eq_nil hd, List.nil_append, ← flatMap_handlersOf hd,
      unlines_flatMap, Content.text, List.map_map]
    rfl

/-! ### Packets with names -/

/-- A session class and packets with names. The type of a member may be anything on one line. -/
structure WellNamed (C : String) (packets : List Packet) : Prop where
  /-- The session class has a name. -/
  session : IsName C
  /-- The packets have names. -/
  packet : ∀ p ∈ packets, IsName p.name
  /-- So have their members. -/
  field : ∀ p ∈ packets, ∀ f ∈ p.fields.getD [], IsName f.name
  /-- The types of these are single lines. -/
  type : ∀ p ∈ packets, ∀ f ∈ p.fields.getD [], '\n' ∉ f.type.toList

/-- The lines of a class are those of a class without members, and the members. -/
theorem Packet.mem_classLines (h : s ∈ p.classLines) :
    s ∈ Packet.classLines { p with fields := none } ∨
      ∃ fields, p.fields = some fields ∧ s ∈ memberLines fields := by
  rw [classLines, List.append_assoc, List.mem_append, List.mem_append] at h
  rcases h with h | h | h
  · exact Or.inl (List.mem_append_left _ (List.mem_append_left _ h))
  · cases hfields : p.fields with
    | none =>
      rw [hfields] at h
      cases h
    | some fields =>
      rw [hfields] at h
      exact Or.inr ⟨fields, rfl, h⟩
  · exact Or.inl (List.mem_append_right _ h)

/-- The lines of the members are single ones. -/
theorem feed_notMem_memberLines {fields : List Field} (hname : ∀ f ∈ fields, IsName f.name)
    (htype : ∀ f ∈ fields, '\n' ∉ f.type.toList) :
    ∀ s ∈ Packet.memberLines fields, '\n' ∉ s.toList := by
  intro s hs
  rcases List.mem_append.mp hs with hs | hs
  · have hfixed : ∀ s ∈ Packet.memberLines [], '\n' ∉ s.toList := by decide
    exact hfixed s hs
  · obtain ⟨f, hf, rfl⟩ := List.mem_map.mp hs
    have hline : s!"\t{f.type} {f.name};" = "\t" ++ f.type ++ " " ++ f.name ++ ";" := rfl
    simp only [hline, String.toList_append, List.mem_append, not_or]
    exact ⟨⟨⟨⟨by decide, htype f hf⟩, by decide⟩, (hname f hf).isSingle.feed⟩, by decide⟩

namespace WellNamed

/-- All lines of a block are single ones. -/
theorem feed_notMem (h : WellNamed C packets) (hp : p ∈ packets) (a : Artifact) :
    ∀ s ∈ p.block C (replyTo? packets p) a, '\n' ∉ s.toList := by
  intro s hs
  by_cases ha : a = .protocolHeader
  · subst ha
    rcases Packet.mem_classLines hs with hbare | ⟨fields, hfields, hmember⟩
    · have hplain : Packet.IsPlain { p with fields := none } := ⟨h.packet p hp, by simp⟩
      exact (Packet.classLines_isPlainLine hplain s hbare).single.feed
    · have hgetD : p.fields.getD [] = fields := by rw [hfields, Option.getD_some]
      exact feed_notMem_memberLines (hgetD ▸ h.field p hp) (hgetD ▸ h.type p hp) s hmember
  · exact (Packet.block_isPlainLine_of_ne h.session (h.packet p hp) (h.field p hp) packets ha s
      hs).single.feed

/-- **The lines of a region** are those of the blocks. -/
theorem lines_eq (h : WellNamed C packets) (hnodup : (packets.map (·.name)).Nodup)
    (a : Artifact) :
    (contentOf C packets a).lines = a.firstLines ++ codeOf C packets packets a := by
  refine Content.lines_of_text (text_contentOf hnodup) fun s hs => ?_
  rcases List.mem_append.mp hs with hs | hs
  · exact (a.firstLines_isPlainLine s hs).single.feed
  · obtain ⟨p, hp, hs⟩ := List.mem_flatMap.mp hs
    exact h.feed_notMem hp a s hs

end WellNamed

/-! ### How lines begin -/

/-- The first character of a line. -/
def first? (s : String) : Option Char :=
  s.toList.head?

theorem first?_append {c : Char} (h : first? s = some c) (t : String) :
    first? (s ++ t) = some c := by
  rw [first?, String.toList_append, List.head?_append, ← first?, h]
  rfl

/-- Lines that are picked from the blocks. -/
theorem filter_codeOf {P : String → Bool} {f : Packet → List String}
    (h : ∀ p ∈ packets, (p.block C (replyTo? all p) a).filter P = f p) :
    (codeOf C all packets a).filter P = packets.flatMap f := by
  rw [codeOf, List.filter_flatMap]
  exact List.flatMap_congr h

/-! ### Classes -/

/-- The heading of the class of a packet. -/
def headingLine (name : String) : String :=
  s!"class {name} : public IPacket"

/-- The line that ends a class. -/
def endLine : String :=
  "\x7d;"

namespace Packet

/-- The lines of a class between these. -/
def innerLines (p : Packet) : List String :=
  ["\x7b", "public:", s!"\t{p.name}() = default;", s!"\tvirtual ~{p.name}() override = default;",
    "", "public:", "\tvirtual PacketId GetPacketId() const override;"] ++
  (p.fields.map memberLines).getD []

theorem classLines_eq (p : Packet) :
    p.classLines = headingLine p.name :: (p.innerLines ++ [endLine, ""]) :=
  rfl

/-- They begin with other characters than a heading or an end. -/
theorem first?_innerLines (p : Packet) :
    ∀ s ∈ p.innerLines, first? s ∈ [none, some '\x7b', some 'p', some '\t'] := by
  have hindented : ∀ s, first? s = some '\t' →
      first? s ∈ [none, some '\x7b', some 'p', some '\t'] := by
    intro s h
    simp [h]
  intro s hs
  rcases List.mem_append.mp hs with hs | hs
  · simp only [List.mem_cons, List.not_mem_nil, or_false] at hs
    rcases hs with rfl | rfl | rfl | rfl | rfl | rfl | rfl
    · decide
    · decide
    · exact hindented _ (first?_append (first?_append rfl _) _)
    · exact hindented _ (first?_append (first?_append rfl _) _)
    · decide
    · decide
    · decide
  · cases hfields : p.fields with
    | none =>
      rw [hfields] at hs
      cases hs
    | some fields =>
      rw [hfields] at hs
      rcases List.mem_append.mp hs with hs | hs
      · have hfixed : ∀ s ∈ memberLines [],
            first? s ∈ [none, some '\x7b', some 'p', some '\t'] := by
          decide
        exact hfixed s hs
      · obtain ⟨f, hf, rfl⟩ := List.mem_map.mp hs
        exact hindented _
          (first?_append (first?_append (first?_append (first?_append rfl _) _) _) _)

end Packet

theorem first?_headingLine (name : String) : first? (headingLine name) = some 'c' :=
  first?_append (first?_append rfl name) _

/-- **The headings of classes** in the code, in the order of the packets. -/
theorem headings_eq : (codeOf C all packets .protocolHeader).filter (first? · = some 'c') =
    packets.map (headingLine ·.name) := by
  have hblock : ∀ p ∈ packets, (p.block C (replyTo? all p) .protocolHeader).filter
      (first? · = some 'c') = [headingLine p.name] := by
    intro p _
    have hinner : p.innerLines.filter (first? · = some 'c') = [] := by
      refine List.filter_eq_nil_iff.mpr fun s hs heq => ?_
      have hfirst := p.first?_innerLines s hs
      rw [of_decide_eq_true heq] at hfirst
      exact absurd hfirst (by decide)
    rw [Packet.block, p.classLines_eq, List.filter_cons,
      if_pos (decide_eq_true (first?_headingLine p.name)), List.filter_append, hinner]
    rfl
  rw [filter_codeOf hblock, List.map_eq_flatMap]

/-! ### Functions -/

/-- The signature of the function that tells the enumerator of a packet. -/
def identifierLine (name : String) : String :=
  s!"PacketId {name}::GetPacketId() const"

/-- The signature of a function that carries the members of a packet over a buffer. -/
def bufferLine (name method : String) : String :=
  s!"void {name}::{method}(NetBuffer& buffer)"

theorem first?_signature {m : Packet.Method} (hm : m ∈ p.methods) :
    first? m.signature ∈ [some 'P', some 'v'] := by
  obtain ⟨form, hform, heq⟩ :=
    List.mem_map.mp (p.signatures_sublist.subset (List.mem_map_of_mem hm))
  have hforms : ∀ form ∈ Packet.signatureForms, first? form.1 = some 'P' ∨
      first? form.1 = some 'v' := by
    decide
  rw [← heq]
  rcases hforms form hform with h | h
  · simp [first?_append (first?_append h p.name) form.2]
  · simp [first?_append (first?_append h p.name) form.2]

/-- The other lines of functions are indented, or braces. -/
theorem filter_lines {ms : List Packet.Method}
    (h : ∀ m ∈ ms, first? m.signature ∈ [some 'P', some 'v']) :
    (ms.flatMap (·.lines)).filter (first? · ∈ [some 'P', some 'v']) = ms.map (·.signature) := by
  rw [List.filter_flatMap, List.map_eq_flatMap]
  refine List.flatMap_congr fun m hm => ?_
  have hindented : first? s!"\t{m.statement}" = some '\t' := first?_append rfl _
  rw [Packet.Method.lines, List.filter_cons, if_pos (decide_eq_true (h m hm))]
  simp only [List.filter_cons, hindented]
  rfl

/-- **The signatures of functions** in the code, in the order of the packets. -/
theorem signatures_eq : (codeOf C all packets .protocolSource).filter
    (first? · ∈ [some 'P', some 'v']) = (packets.flatMap (·.methods)).map (·.signature) := by
  have hcode : codeOf C all packets .protocolSource =
      (packets.flatMap (·.methods)).flatMap (·.lines) :=
    List.flatMap_assoc.symm
  rw [hcode, filter_lines]
  intro m hm
  obtain ⟨p, -, hm⟩ := List.mem_flatMap.mp hm
  exact first?_signature hm

/-- Among them, those of the functions that tell the enumerators. -/
theorem identifiers_eq : (codeOf C all packets .protocolSource).filter (first? · = some 'P') =
    packets.map (identifierLine ·.name) := by
  have hsame : (codeOf C all packets .protocolSource).filter (first? · = some 'P') =
      ((codeOf C all packets .protocolSource).filter (first? · ∈ [some 'P', some 'v'])).filter
        (first? · = some 'P') := by
    rw [List.filter_filter]
    refine List.filter_congr fun s _ => ?_
    by_cases h : first? s = some 'P'
    · simp [h]
    · simp [h]
  rw [hsame, signatures_eq, List.map_flatMap, List.filter_flatMap, List.map_eq_flatMap]
  refine List.flatMap_congr fun p _ => ?_
  have hidentifier : first? p.identifierMethod.signature = some 'P' :=
    first?_append (first?_append rfl p.name) _
  have hbuffer : ∀ name helper, first? (p.bufferMethod name helper).signature = some 'v' :=
    fun name helper => first?_append (first?_append (first?_append (first?_append rfl _) _) _) _
  rw [Packet.methods, List.map_cons, List.filter_cons, if_pos (decide_eq_true hidentifier)]
  split
  · simp only [List.map_cons, List.map_nil, List.filter_cons, hbuffer]
    rfl
  · rfl

/-! ### Handlers -/

/-- The first line of the definition of a handler. -/
def stubLine (C name : String) : String :=
  s!"void {C}::On{name}(const {name}& packet)"

/-- The lines by which a handler sends a reply. -/
def replyLines (reply : String) : List String :=
  [s!"\t{reply} reply;", "\tSendPacket(reply);"]

theorem Packet.stubLines_eq (C : String) (reply? : Option String) (p : Packet) :
    p.stubLines C reply? = stubLine C p.name ::
      (["\x7b"] ++ ((reply?.map replyLines).getD [] ++ ["\x7d", ""])) := by
  rw [← List.append_assoc]
  rfl

theorem first?_stubLine (C name : String) : first? (stubLine C name) = some 'v' :=
  first?_append (first?_append (first?_append (first?_append (first?_append (first?_append rfl _)
    _) _) _) _) _

theorem codeOf_sessionSource : codeOf C all packets .sessionSource =
    (dispatched packets).flatMap fun p => p.stubLines C (replyTo? all p) :=
  (flatMap_dispatched _).symm

/-- **The first lines of definitions** in the code, in the order of the packets. -/
theorem stubs_eq : (codeOf C all packets .sessionSource).filter (first? · = some 'v') =
    (dispatched packets).map (stubLine C ·.name) := by
  rw [codeOf_sessionSource, List.filter_flatMap, List.map_eq_flatMap]
  refine List.flatMap_congr fun p _ => ?_
  rw [p.stubLines_eq, List.filter_cons, if_pos (decide_eq_true (first?_stubLine C p.name)),
    List.filter_append, List.filter_append]
  cases replyTo? all p with
  | none => rfl
  | some reply =>
    have hreply : first? s!"\t{reply} reply;" = some '\t' := first?_append (first?_append rfl _) _
    simp only [Option.map_some, Option.getD_some, replyLines, List.filter_cons, hreply]
    rfl

end Packetry

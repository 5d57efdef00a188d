import Packetry.Proofs.Agreement

/-!
# Functions of packets with one name

Before it is validated, a schema may have any number of packets of one name, and all of them ask for
functions with the same signatures. A function is written unless there was one with its signature,
so that among the functions with one signature it is the first that counts
(`Packetry.mem_newMethods_iff`).

This goes by signatures and not by packets. The function that tells the enumerator is that of the
first packet of a name, while those that carry the members over a buffer come from the first one
that declares members, which may stand behind it. A name need not be made of word characters for
that: signatures tell the names in them apart, whatever these are (`Packetry.Packet.signatureForms`,
`Packetry.Packet.signatureForms_inj`). All that is asked of names is that they do not end a line,
for else a signature would be no line.

* `Packetry.methodCode_writtenOnce`: how often each signature is written, and with which body.
-/

namespace Packetry

variable {packets : List Packet} {p : Packet} {m : Packet.Method} {name : String}

/-! ### The first of each signature -/

/-- **Of the functions with one signature**, the first is written. -/
theorem mem_newMethods_iff {written : List String} {ms : List Packet.Method} :
    m ∈ newMethods written ms ↔
      m.signature ∉ written ∧ ms.find? (·.signature = m.signature) = some m := by
  fun_induction newMethods written ms with
  | case1 => simp
  | case2 written n rest hwritten ih =>
    rw [ih, List.find?_cons]
    refine and_congr_right fun hm => ?_
    have hne : n.signature ≠ m.signature := fun heq => hm (heq ▸ hwritten)
    simp only [hne, decide_false]
  | case3 written n rest hwritten ih =>
    -- A function with the signature of the first one is written only if it is the first one.
    rw [List.mem_cons, ih, List.find?_cons]
    by_cases heq : n.signature = m.signature
    · simp only [heq, decide_true, Option.some.injEq, false_and, or_false, List.mem_cons,
        true_or, not_true_eq_false]
      exact ⟨fun h => ⟨h ▸ hwritten, h.symm⟩, fun h => h.2.symm⟩
    · have hne : m ≠ n := fun h => heq (h ▸ rfl)
      simp only [hne, heq, decide_false, false_or, List.mem_cons, Ne.symm heq]

/-- No signature is written twice. -/
theorem nodup_newMethods (written : List String) (ms : List Packet.Method) :
    ((newMethods written ms).map (·.signature)).Nodup := by
  fun_induction newMethods written ms with
  | case1 => exact List.nodup_nil
  | case2 written n rest hwritten ih => exact ih
  | case3 written n rest hwritten ih =>
    refine List.nodup_cons.mpr ⟨fun hmem => ?_, ih⟩
    obtain ⟨m, hm, heq⟩ := List.mem_map.mp hmem
    exact (mem_newMethods_iff.mp hm).1 (heq ▸ List.mem_cons_self)

/-- A signature is written if a function has it. -/
theorem mem_signatures_newMethods {ms : List Packet.Method} {signature : String} :
    signature ∈ (newMethods [] ms).map (·.signature) ↔ signature ∈ ms.map (·.signature) := by
  rw [List.mem_map, List.mem_map]
  constructor
  · rintro ⟨m, hm, rfl⟩
    exact ⟨m, newMethods_subset [] ms m hm, rfl⟩
  · rintro ⟨m, hm, rfl⟩
    have hsome : (ms.find? (·.signature = m.signature)).isSome :=
      List.find?_isSome.mpr ⟨m, hm, decide_eq_true rfl⟩
    obtain ⟨first, hfirst⟩ := Option.isSome_iff_exists.mp hsome
    have heq : first.signature = m.signature := by simpa using List.find?_some hfirst
    exact ⟨first, mem_newMethods_iff.mpr ⟨List.not_mem_nil, heq ▸ hfirst⟩, heq⟩

/-! ### Lines -/

/-- Names that do not end a line make functions of single lines. -/
theorem Packet.feed_notMem_methods (hname : '\n' ∉ p.name.toList)
    (hfield : ∀ field ∈ p.fieldNames, '\n' ∉ field.toList) (hm : m ∈ p.methods) :
    ∀ s ∈ m.lines, '\n' ∉ s.toList := by
  have hlines : '\n' ∉ m.signature.toList → '\n' ∉ m.statement.toList →
      ∀ s ∈ m.lines, '\n' ∉ s.toList := by
    intro hsignature hstatement
    simp only [Method.lines, List.forall_mem_cons]
    exact ⟨hsignature, by decide, notMem_append (by decide) hstatement, by decide, by simp⟩
  rw [methods] at hm
  rcases List.mem_cons.mp hm with rfl | hm
  · have henumerator : '\n' ∉ p.enumerator.toList := by
      rw [enumerator]
      exact notMem_enumeratorOf hname (by decide) (by decide)
    refine hlines (notMem_append (notMem_append (by decide) hname) (by decide))
      (notMem_append (notMem_append (by decide) ?_) (by decide))
    refine notMem_append (notMem_append (notMem_append (notMem_append ?_ ?_) ?_) henumerator) ?_
    all_goals decide
  · have harguments : '\n' ∉ (argumentList p.bufferArguments).toList :=
      notMem_argumentList (by decide) (List.forall_mem_cons.mpr ⟨by decide, hfield⟩)
    obtain ⟨-, hm⟩ := List.mem_ite_nil_right.mp hm
    simp only [List.mem_cons, List.not_mem_nil, or_false] at hm
    rcases hm with rfl | rfl
    all_goals
      refine hlines ?_ (notMem_append (notMem_append (notMem_append ?_ ?_) harguments) ?_)
      refine notMem_append (notMem_append (notMem_append (notMem_append ?_ hname) ?_) ?_) ?_
    all_goals decide

section Lines

variable (hname : ∀ p ∈ packets, '\n' ∉ p.name.toList)
  (hfield : ∀ p ∈ packets, ∀ field ∈ p.fieldNames, '\n' ∉ field.toList)

include hname hfield

/-- The lines of the code are those of the functions that are written. -/
theorem lines_methodCode : (Content.replace (methodCode packets)).lines =
    (newMethods [] (packets.flatMap (·.methods))).flatMap (·.lines) := by
  refine Content.lines_of_text rfl fun s hs => ?_
  obtain ⟨m, hm, hs⟩ := List.mem_flatMap.mp hs
  obtain ⟨p, hp, hm⟩ := List.mem_flatMap.mp (newMethods_subset _ _ m hm)
  exact Packet.feed_notMem_methods (hname p hp) (hfield p hp) hm s hs

/-- **A signature** is a line of the code once, if some packet has a function with it. -/
theorem count_signature {signature : String}
    (hfirst : first? signature ∈ [some 'P', some 'v']) :
    (Content.replace (methodCode packets)).lines.count signature =
      if signature ∈ (packets.flatMap (·.methods)).map (·.signature) then 1 else 0 := by
  have hsignatures : ∀ m ∈ newMethods [] (packets.flatMap (·.methods)),
      first? m.signature ∈ [some 'P', some 'v'] := by
    intro m hm
    obtain ⟨p, -, hm⟩ := List.mem_flatMap.mp (newMethods_subset _ _ m hm)
    exact first?_signature hm
  rw [lines_methodCode hname hfield,
    count_of_filter (filter_lines hsignatures) (decide_eq_true hfirst),
    (nodup_newMethods _ _).count]
  exact if_congr mem_signatures_newMethods rfl rfl

end Lines

/-! ### The packet that supplies a function -/

/-- The function that tells the enumerator is that of any packet of the name. -/
theorem identifierLine_mem_signatures_iff :
    identifierLine name ∈ (packets.flatMap (·.methods)).map (·.signature) ↔
      ∃ p ∈ packets, p.name = name := by
  have hform : ("PacketId ", "::GetPacketId() const") ∈ Packet.signatureForms :=
    List.mem_cons_self
  rw [List.map_flatMap, List.mem_flatMap]
  constructor
  · rintro ⟨p, hp, hmem⟩
    obtain ⟨form, hform', heq⟩ := List.mem_map.mp (p.signatures_sublist.subset hmem)
    exact ⟨p, hp, (Packet.signatureForms_inj hform' hform heq).2⟩
  · rintro ⟨p, hp, rfl⟩
    exact ⟨p, hp, List.mem_cons_self⟩

/-- The functions that carry the members over a buffer, each with the one that it calls. -/
def carriers : List (String × String) :=
  [("BufferToPacket", "SetBufferToParameters"), ("PacketToBuffer", "SetParametersToBuffer")]

/-- The first packet of a name that declares members. -/
def supplier? (packets : List Packet) (name : String) : Option Packet :=
  packets.find? fun p => p.name = name && p.hasFields

/-- A function that carries the members of a packet over a buffer, line by line. It passes them in
their order, behind the buffer. -/
def Packet.carrierLines (p : Packet) (method helper : String) : List String :=
  let arguments := argumentList ("buffer" :: p.fieldNames)
  [bufferLine p.name method, "\x7b", s!"\t{helper}({arguments});", "\x7d"]

theorem Packet.lines_bufferMethod (p : Packet) (method helper : String) :
    (p.bufferMethod method helper).lines = p.carrierLines method helper := by
  simp only [Method.lines, bufferMethod, carrierLines, bufferLine, bufferArguments, toString,
    String.append_assoc]

theorem Packet.bufferMethod_mem {carrier : String × String} (hcarrier : carrier ∈ carriers)
    (hp : p.hasFields = true) : p.bufferMethod carrier.1 carrier.2 ∈ p.methods := by
  rw [methods, if_pos hp]
  simp only [carriers, List.mem_cons, List.not_mem_nil, or_false] at hcarrier
  rcases hcarrier with rfl | rfl
  · exact List.mem_cons_of_mem _ List.mem_cons_self
  · exact List.mem_cons_of_mem _ (List.mem_cons_of_mem _ List.mem_cons_self)

/-- **The functions that carry members over a buffer** are those of the packet that supplies
them. -/
theorem bufferMethod_mem_newMethods {carrier : String × String} (hcarrier : carrier ∈ carriers)
    (hp : supplier? packets name = some p) :
    p.bufferMethod carrier.1 carrier.2 ∈ newMethods [] (packets.flatMap (·.methods)) := by
  obtain ⟨hname, s₁, s₂, rfl, hbefore⟩ := List.find?_eq_some_iff_append.mp hp
  obtain ⟨rfl, hfields⟩ : p.name = name ∧ p.hasFields = true := by simpa using hname
  have hmethod : carrier.1 ∈ bufferMethods := by
    revert carrier
    decide
  have hsignature : (p.bufferMethod carrier.1 carrier.2).signature = bufferLine p.name carrier.1 :=
    rfl
  -- No packet before this one has the signature, since none of its name declares members.
  have hnone : (s₁.flatMap (·.methods)).find?
      (·.signature = (p.bufferMethod carrier.1 carrier.2).signature) = none := by
    refine List.find?_eq_none.mpr fun m hm heq => ?_
    have hmem := List.mem_map_of_mem (f := (·.signature)) hm
    rw [of_decide_eq_true heq, hsignature, bufferLine_mem_signatures_iff hmethod] at hmem
    obtain ⟨q, hq, hq'⟩ := hmem
    have hother := hbefore q hq
    simp [hq'.1, Packet.hasFields, hq'.2] at hother
  have hfound : p.methods.find?
      (·.signature = (p.bufferMethod carrier.1 carrier.2).signature) =
        some (p.bufferMethod carrier.1 carrier.2) :=
    (find?_eq_some_iff_of_nodup p.nodup_signatures).mpr
      ⟨Packet.bufferMethod_mem hcarrier hfields, rfl⟩
  refine mem_newMethods_iff.mpr ⟨List.not_mem_nil, ?_⟩
  rw [List.flatMap_append, List.find?_append, hnone, Option.none_or, List.flatMap_cons,
    List.find?_append, hfound, Option.some_or]

/-! ### What is written -/

/-- The functions among some lines, for packets whose names may repeat. -/
structure WrittenOnce (packets : List Packet) (lines : List String) : Prop where
  /-- One function tells the enumerator of the packets of a name. -/
  identifiers : ∀ name, lines.count (identifierLine name) =
    if ∃ p ∈ packets, p.name = name then 1 else 0
  /-- One function carries members each way, if some packet of the name declares members. -/
  buffers : ∀ name, ∀ method ∈ bufferMethods, lines.count (bufferLine name method) =
    if ∃ p ∈ packets, p.name = name ∧ p.hasFields = true then 1 else 0
  /-- The members are those of the first such packet. -/
  bodies : ∀ name p, supplier? packets name = some p → ∀ carrier ∈ carriers,
    p.carrierLines carrier.1 carrier.2 <:+: lines

/-- **Every signature is written once**, and the first packet that has a function with it supplies
the function. If no name repeats, then the code is that of the packets one by one. -/
theorem methodCode_writtenOnce (hname : ∀ p ∈ packets, '\n' ∉ p.name.toList)
    (hfield : ∀ p ∈ packets, ∀ field ∈ p.fieldNames, '\n' ∉ field.toList) :
    WrittenOnce packets (Content.replace (methodCode packets)).lines ∧
      ((packets.map (·.name)).Nodup →
        methodCode packets = String.join (packets.map fun p => methodCode [p])) := by
  refine ⟨⟨?identifiers, ?buffers, ?bodies⟩, ?blocks⟩
  case identifiers =>
    intro name
    have hfirst : first? (identifierLine name) = some 'P' :=
      first?_append (first?_append rfl name) _
    rw [count_signature hname hfield (by simp [hfirst])]
    exact if_congr identifierLine_mem_signatures_iff rfl rfl
  case buffers =>
    intro name method hmethod
    have hfirst : first? (bufferLine name method) = some 'v' := by
      rw [bufferLine_eq]
      exact first?_append (first?_append rfl name) _
    rw [count_signature hname hfield (by simp [hfirst])]
    exact if_congr (bufferLine_mem_signatures_iff hmethod) rfl rfl
  case bodies =>
    intro name p hp carrier hcarrier
    rw [lines_methodCode hname hfield, ← Packet.lines_bufferMethod]
    obtain ⟨s₁, s₂, heq⟩ := List.append_of_mem (bufferMethod_mem_newMethods hcarrier hp)
    rw [heq, List.flatMap_append, List.flatMap_cons, ← List.append_assoc]
    exact ⟨_, _, rfl⟩
  case blocks =>
    intro hnodup
    have hblock : ∀ p, methodCode [p] = unlines (p.methods.flatMap (·.lines)) := by
      intro p
      rw [methodCode, List.flatMap_singleton, newMethods_eq_self p.nodup_signatures (by simp)]
    rw [methodCode, newMethods_eq_self (nodup_signatures hnodup) (by simp), List.flatMap_assoc,
      unlines_flatMap]
    simp only [hblock]

/-- Three packets of one name. The first declares no members, and the members of the others
differ. -/
def namesakes : List Packet :=
  [⟨.request, "Move", none, none⟩, ⟨.request, "Move", none, some [⟨"int", "x"⟩, ⟨"int", "y"⟩]⟩,
    ⟨.reply, "Stop", none, none⟩, ⟨.unique, "Move", none, some [⟨"int", "z"⟩]⟩]

/-- The second one supplies the functions that carry members. If no name repeats, as in the other
list, then there is nothing to choose. -/
theorem methodCode_writtenOnce_namesakes :
    (∀ packets ∈ [namesakes, pingPong], (∀ p ∈ packets, '\n' ∉ p.name.toList) ∧
      ∀ p ∈ packets, ∀ field ∈ p.fieldNames, '\n' ∉ field.toList) ∧
    WrittenOnce namesakes (Content.replace (methodCode namesakes)).lines ∧
    supplier? namesakes "Move" = namesakes[1]? ∧ supplier? namesakes "Stop" = none ∧
    ["void Move::BufferToPacket(NetBuffer& buffer)", "\x7b",
      "\tSetBufferToParameters(buffer, x, y);", "\x7d"] <:+:
        (Content.replace (methodCode namesakes)).lines ∧
    ["void Move::PacketToBuffer(NetBuffer& buffer)", "\x7b",
      "\tSetParametersToBuffer(buffer, x, y);", "\x7d"] <:+:
        (Content.replace (methodCode namesakes)).lines ∧
    (pingPong.map (·.name)).Nodup ∧
    methodCode pingPong = String.join (pingPong.map fun p => methodCode [p]) := by
  have hnames : ∀ packets ∈ [namesakes, pingPong], (∀ p ∈ packets, '\n' ∉ p.name.toList) ∧
      ∀ p ∈ packets, ∀ field ∈ p.fieldNames, '\n' ∉ field.toList := by
    decide
  have hrepeated := hnames namesakes (by simp)
  have hdifferent := hnames pingPong (by simp)
  have hnodup : (pingPong.map (·.name)).Nodup := by decide
  have hwritten := (methodCode_writtenOnce hrepeated.1 hrepeated.2).1
  have hsupplier : supplier? namesakes "Move" = namesakes[1]? := by decide
  have hbodies := hwritten.bodies "Move" _ hsupplier
  exact ⟨hnames, hwritten, hsupplier, by decide,
    hbodies ("BufferToPacket", "SetBufferToParameters") List.mem_cons_self,
    hbodies ("PacketToBuffer", "SetParametersToBuffer") (by simp [carriers]), hnodup,
    (methodCode_writtenOnce hdifferent.1 hdifferent.2).2 hnodup⟩

end Packetry

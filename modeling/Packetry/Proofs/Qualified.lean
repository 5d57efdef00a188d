import Packetry.Proofs.RegionLines

/-!
# Qualified names

In the code of the functions and of the bindings of handlers, the name of the enumeration and two
colons stand before the enumerator of a packet, wherever a constant is meant
(`Packetry.Qualified.constant`). The same characters may stand there for another reason, namely if
the name of a class ends like that of the enumeration, and one of its functions is meant. There is
no third case (`Packetry.qualified_methods`, `Packetry.qualified_binding`): apart from the colons
that the generator writes there are none, since names have none, and neither have enumerators.
-/

namespace Packetry

variable {C : String} {packets : List Packet} {p : Packet} {ids : List String}
  {a b s x y before after : String}

/-! ### Colons -/

/-- Two colons in a text that begins without a colon are the first two, or stand behind these. -/
theorem eq_or_of_colons (ha : ':' ∉ a.toList) (hb : b.toList.head? ≠ some ':')
    (h : a ++ "::" ++ b = x ++ "::" ++ y) :
    x = a ∧ y = b ∨ ∃ more, x = a ++ "::" ++ more ∧ b = more ++ "::" ++ y := by
  have hlists : a.toList ++ ':' :: ':' :: b.toList = x.toList ++ ':' :: ':' :: y.toList := by
    simpa using congrArg String.toList h
  rcases List.append_eq_append_iff.mp hlists with ⟨more, hx, hrest⟩ | ⟨more, hx, hrest⟩
  -- The first text goes on behind the beginning, by no character, by one or by two and more.
  · rcases more with _ | ⟨c, _ | ⟨d, more⟩⟩
    · simp only [List.nil_append, List.cons.injEq, true_and] at hrest
      exact Or.inl ⟨String.toList_inj.mp (by simpa using hx), String.toList_inj.mp hrest.symm⟩
    · simp only [List.cons_append, List.nil_append, List.cons.injEq] at hrest
      simp [hrest.2.2] at hb
    · simp only [List.cons_append, List.cons.injEq] at hrest
      obtain ⟨rfl, rfl, hrest⟩ := hrest
      refine Or.inr ⟨String.ofList more, String.toList_inj.mp ?_, String.toList_inj.mp ?_⟩
      · simpa using hx
      · simpa using hrest
  · rcases more with _ | ⟨c, more⟩
    · simp only [List.nil_append, List.cons.injEq, true_and] at hrest
      exact Or.inl ⟨String.toList_inj.mp (by simpa using hx.symm), String.toList_inj.mp hrest⟩
    · simp only [List.cons_append, List.cons.injEq] at hrest
      exact absurd (by simp [hx, ← hrest.1]) ha

/-- If there are no others, they are the first two. -/
theorem eq_of_colons (ha : ':' ∉ a.toList) (hb : ':' ∉ b.toList)
    (h : a ++ "::" ++ b = x ++ "::" ++ y) : x = a ∧ y = b := by
  rcases eq_or_of_colons ha (fun heq => hb (List.mem_of_mem_head? heq)) h with h | ⟨more, -, rfl⟩
  · exact h
  · exact absurd (by simp) hb

/-! ### What is qualified -/

/-- What the name of the enumeration, followed by two colons, is in a line, between what stands
before it and what follows. -/
inductive Qualified (C : String) (packets : List Packet) (ids : List String)
    (before after : String) : Prop where
  /-- It qualifies a constant, which is one of the enumerators. -/
  | constant (name front rest : String) (hbefore : before = front ++ "static_cast<PacketId>(")
    (hafter : after = name ++ ")" ++ rest) (hname : s!"\t, {name}" ∈ ids)
  /-- It is what the class of a packet, whose function is meant, has at the end of its name. -/
  | function (front : String) (p : Packet) (hp : p ∈ packets)
    (h : before ++ "PACKET_ID" = front ++ " " ++ p.name)
  /-- It is what the session class, whose function is meant, has at the end of its name. -/
  | handler (front : String) (h : before ++ "PACKET_ID" = front ++ "&" ++ C)

/-- There are colons where there is a qualified name. -/
theorem colon_mem_of_eq (h : s = before ++ "PACKET_ID::" ++ after) : ':' ∈ s.toList := by
  simp [h]

theorem qualifier_eq (before after : String) :
    before ++ "PACKET_ID::" ++ after = before ++ "PACKET_ID" ++ "::" ++ after := by
  simp only [String.append_assoc]
  rfl

/-! ### Functions -/

/-- A class is qualified in a signature, and nothing else. -/
theorem signatureForms_colons : ∀ form ∈ Packet.signatureForms, ':' ∉ form.1.toList ∧
    (∃ front ∈ ["PacketId", "void"], form.1 = front ++ " ") ∧
    ∃ rest ∈ ["GetPacketId() const", "BufferToPacket(NetBuffer& buffer)",
      "PacketToBuffer(NetBuffer& buffer)"], form.2 = "::" ++ rest ∧ ':' ∉ rest.toList := by
  decide

theorem qualified_signature (hp : p ∈ packets) (hname : IsName p.name) {m : Packet.Method}
    (hm : m ∈ p.methods) (h : m.signature = before ++ "PACKET_ID::" ++ after) :
    Qualified C packets ids before after := by
  obtain ⟨form, hform, heq⟩ :=
    List.mem_map.mp (p.signatures_sublist.subset (List.mem_map_of_mem hm))
  obtain ⟨hfirst, ⟨front, -, hfront⟩, rest, -, hrest, hcolon⟩ := signatureForms_colons form hform
  rw [qualifier_eq, ← heq, hrest, ← String.append_assoc] at h
  have hclass : ':' ∉ (form.1 ++ p.name).toList := by
    rw [String.toList_append, List.mem_append, not_or]
    exact ⟨hfirst, hname.not_mem (by decide)⟩
  have hbefore := (eq_of_colons hclass hcolon h).1
  exact .function front p hp (by rw [hbefore, hfront])

theorem qualified_identifier (hname : IsName p.name) (hids : p.enumeratorLine ∈ ids)
    (h : s!"\t{p.identifierMethod.statement}" = before ++ "PACKET_ID::" ++ after) :
    Qualified C packets ids before after := by
  have hline : s!"\t{p.identifierMethod.statement}" =
      "\treturn static_cast<PacketId>(PACKET_ID" ++ "::" ++ (p.enumerator ++ ");") := by
    have hstatement : p.identifierMethod.statement = "return " ++
        ("static_cast<PacketId>(" ++ "PACKET_ID" ++ "::" ++ p.enumerator ++ ")") ++ ";" := rfl
    have hbegin : "\treturn static_cast<PacketId>(PACKET_ID" =
        "\t" ++ ("return " ++ ("static_cast<PacketId>(" ++ "PACKET_ID")) := rfl
    have hend : ");" = ")" ++ ";" := rfl
    rw [hstatement, hbegin, hend]
    simp only [String.append_assoc, toString]
  have hcolon : ':' ∉ (p.enumerator ++ ");").toList := by
    rw [String.toList_append, List.mem_append, not_or]
    exact ⟨hname.notMem_enumerator (by decide) (by decide), by decide⟩
  rw [qualifier_eq, hline] at h
  obtain ⟨hbefore, hafter⟩ := eq_of_colons (by decide) hcolon h
  have hfront : before = "\treturn " ++ "static_cast<PacketId>(" := by
    refine (String.append_left_inj "PACKET_ID").mp (hbefore.trans ?_)
    rfl
  refine .constant p.enumerator "\treturn " ";" hfront ?_ hids
  rw [hafter, String.append_assoc]
  rfl

theorem colon_notMem_bufferStatement (hfields : ∀ f ∈ p.fields.getD [], IsName f.name)
    (name : String) {helper : String} (hhelper : ':' ∉ helper.toList) :
    ':' ∉ s!"\t{(p.bufferMethod name helper).statement}".toList := by
  have hline : s!"\t{(p.bufferMethod name helper).statement}" =
      "\t" ++ (helper ++ "(" ++ Packet.argumentList p.bufferArguments ++ ");") :=
    rfl
  have harguments : ':' ∉ (Packet.argumentList p.bufferArguments).toList :=
    Packet.notMem_bufferArguments hfields (by decide) (by decide)
  simp only [hline, String.toList_append, List.mem_append, not_or]
  exact ⟨by decide, ⟨⟨hhelper, by decide⟩, harguments⟩, by decide⟩

/-- **In the code of functions**, the name of the enumeration qualifies constants, but for the
classes whose names end like it. -/
theorem qualified_methods (hp : p ∈ packets) (hname : IsName p.name)
    (hfields : ∀ f ∈ p.fields.getD [], IsName f.name) (hids : p.enumeratorLine ∈ ids)
    {m : Packet.Method} (hm : m ∈ p.methods) (hs : s ∈ m.lines)
    (h : s = before ++ "PACKET_ID::" ++ after) : Qualified C packets ids before after := by
  have hcolon := colon_mem_of_eq h
  simp only [Packet.Method.lines, List.mem_cons, List.not_mem_nil, or_false] at hs
  rcases hs with rfl | rfl | rfl | rfl
  · exact qualified_signature hp hname hm h
  · exact absurd hcolon (by decide)
  · rcases List.mem_cons.mp hm with rfl | hm
    · exact qualified_identifier hname hids h
    -- The members are carried over the buffer by a statement without any colon.
    · obtain ⟨-, hm⟩ := List.mem_ite_nil_right.mp hm
      simp only [List.mem_cons, List.not_mem_nil, or_false] at hm
      rcases hm with rfl | rfl
      · exact absurd hcolon (colon_notMem_bufferStatement hfields _ (by decide))
      · exact absurd hcolon (colon_notMem_bufferStatement hfields _ (by decide))
  · exact absurd hcolon (by decide)

/-! ### Bindings -/

/-- **In the binding of a handler**, the name of the enumeration qualifies the constant of the
packet, but for a session class whose name ends like it. -/
theorem qualified_binding (hC : IsName C) (hname : IsName p.name) (hids : p.enumeratorLine ∈ ids)
    (h : p.bindingLine C = before ++ "PACKET_ID::" ++ after) :
    Qualified C packets ids before after := by
  -- The line is cut at its two pairs of colons.
  have hline : p.bindingLine C = "\tRegisterPacketHandler<" ++ C ++ ", " ++ p.name ++
      ">(static_cast<PacketId>(" ++ "PACKET_ID" ++ "::" ++
        (p.enumerator ++ "), &" ++ C ++ "::" ++ ("On" ++ p.name ++ ");")) := by
    have hbinding : p.bindingLine C = "\tRegisterPacketHandler<" ++ C ++ ", " ++ p.name ++ ">(" ++
        ("static_cast<PacketId>(" ++ "PACKET_ID" ++ "::" ++ p.enumerator ++ ")") ++ ", " ++
          ("&" ++ C ++ "::On" ++ p.name ++ ");") := rfl
    have hcast : ">(static_cast<PacketId>(" = ">(" ++ "static_cast<PacketId>(" := rfl
    have hnext : "), &" = ")" ++ (", " ++ "&") := rfl
    have hon : "::On" = "::" ++ "On" := rfl
    rw [hbinding, hcast, hnext, hon]
    simp only [String.append_assoc]
  have hfirst : ':' ∉ ("\tRegisterPacketHandler<" ++ C ++ ", " ++ p.name ++
      ">(static_cast<PacketId>(" ++ "PACKET_ID").toList := by
    simp only [String.toList_append, List.mem_append, not_or]
    exact ⟨⟨⟨⟨⟨by decide, hC.not_mem (by decide)⟩, by decide⟩, hname.not_mem (by decide)⟩,
      by decide⟩, by decide⟩
  have hsecond : ':' ∉ (p.enumerator ++ "), &" ++ C).toList := by
    simp only [String.toList_append, List.mem_append, not_or]
    exact ⟨⟨hname.notMem_enumerator (by decide) (by decide), by decide⟩, hC.not_mem (by decide)⟩
  have hthird : ':' ∉ ("On" ++ p.name ++ ");").toList := by
    simp only [String.toList_append, List.mem_append, not_or]
    exact ⟨⟨by decide, hname.not_mem (by decide)⟩, by decide⟩
  have hhead : (p.enumerator ++ "), &" ++ C ++ "::" ++ ("On" ++ p.name ++ ");")).toList.head? ≠
      some ':' := by
    rw [String.toList_append, String.toList_append, List.append_assoc,
      List.head?_append_of_ne_nil _ (by simp)]
    exact fun heq => hsecond (List.mem_of_mem_head? heq)
  rw [qualifier_eq, hline] at h
  -- The name of the enumeration stands before the first pair, or the class ends in that name and
  -- stands before the second.
  rcases eq_or_of_colons hfirst hhead h with ⟨hbefore, hafter⟩ | ⟨more, hbefore, hmore⟩
  · have hfront := (String.append_left_inj "PACKET_ID").mp hbefore
    have hcast : ">(static_cast<PacketId>(" = ">(" ++ "static_cast<PacketId>(" := rfl
    rw [hcast, ← String.append_assoc] at hfront
    refine .constant p.enumerator _ (", &" ++ C ++ "::" ++ ("On" ++ p.name ++ ");")) hfront ?_ hids
    have hnext : "), &" = ")" ++ ", &" := rfl
    rw [hafter, hnext]
    simp only [String.append_assoc]
  · have hclass := (eq_of_colons hsecond hthird hmore).1
    have hnext : "), &" = "), " ++ "&" := rfl
    refine .handler ("\tRegisterPacketHandler<" ++ C ++ ", " ++ p.name ++
      ">(static_cast<PacketId>(" ++ "PACKET_ID" ++ "::" ++ (p.enumerator ++ "), ")) ?_
    rw [hbefore, hclass, hnext]
    simp only [String.append_assoc]

end Packetry

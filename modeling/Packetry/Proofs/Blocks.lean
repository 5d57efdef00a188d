import Packetry.Proofs.Generated
import Mathlib.Data.List.Nodup

/-!
# Code in blocks

The code of a region is a concatenation of blocks, one for each packet, in the order of the packets
(`Packetry.contentOf_replace`, `Packetry.contentOf_additive`). A block has nothing to do with the
other packets, but for the definition of a handler, which names the reply.

What could get in the way are functions that are written only once: had the functions of two
packets a signature in common, then the block of one packet would lack what is in that of the
other. They have none if their names are different (`Packetry.Packet.name_eq_of_signature`).
-/

namespace Packetry

/-! ### Packets that are dispatched -/

/-- A packet is dispatched unless it is a reply. -/
theorem isDispatched_iff {p : Packet} : p.isDispatched = true ↔ p.kind ≠ .reply := by
  unfold Packet.isDispatched Kind.isDispatched
  cases p.kind <;> simp

theorem mem_dispatched {packets : List Packet} {p : Packet} :
    p ∈ dispatched packets ↔ p ∈ packets ∧ p.kind ≠ .reply := by
  rw [dispatched, List.mem_filter, isDispatched_iff]

/-! ### Blocks -/

/-- The lines of a packet in the region of an artifact, if it is answered by some reply. -/
def Packet.block (C : String) (reply? : Option String) (p : Packet) : Artifact → List String
  | .packetId => [p.enumeratorLine]
  | .protocolHeader => p.classLines
  | .protocolSource => p.methods.flatMap (·.lines)
  | .packetRegister => if p.kind = .reply then [] else [p.registrationLine]
  | .sessionHeader => if p.kind = .reply then [] else [p.declarationLine]
  | .sessionSource => if p.kind = .reply then [] else p.stubLines C reply?
  | .sessionRegister => if p.kind = .reply then [] else [p.bindingLine C]

/-- The lines of a region before those of the packets. -/
def Artifact.firstLines : Artifact → List String
  | .packetId => [s!"\t{noPacket} = 0"]
  | _ => []

theorem firstLines_eq_nil {a : Artifact} (h : a.discipline = .additive) : a.firstLines = [] := by
  cases a with
  | packetId => cases h
  | _ => rfl

/-- The code of some packets in the region of an artifact. Replies are looked up among all packets,
which may be more. -/
def codeOf (C : String) (all packets : List Packet) (a : Artifact) : List String :=
  packets.flatMap fun p => p.block C (replyTo? all p) a

/-- The handlers of some packets, under the names of the packets. -/
def handlersOf (C : String) (all packets : List Packet) (a : Artifact) :
    List (String × List String) :=
  packets.map fun p => (p.name, p.block C (replyTo? all p) a)

/-- No block of a region that is replaced has to do with the reply. -/
theorem Packet.block_eq_of_replace {a : Artifact} (h : a.discipline = .replace) (C : String)
    (reply? : Option String) (p : Packet) : p.block C reply? a = p.block C none a := by
  cases a with
  | sessionSource => cases h
  | _ => rfl

/-! ### Blocks are plain -/

section Plain

variable {C : String} {p : Packet}

theorem Artifact.firstLines_isPlainLine (a : Artifact) : ∀ s ∈ a.firstLines, IsPlainLine s := by
  cases a <;> decide

/-- Whatever the types of the members are, they show in the classes only. -/
theorem Packet.block_isPlainLine_of_ne (hC : IsName C) (h : IsName p.name)
    (hfields : ∀ f ∈ p.fields.getD [], IsName f.name) (all : List Packet) {a : Artifact}
    (ha : a ≠ .protocolHeader) : ∀ s ∈ p.block C (replyTo? all p) a, IsPlainLine s := by
  intro s hs
  cases a with
  | packetId =>
    obtain rfl := List.mem_singleton.mp hs
    exact enumeratorLine_isPlainLine h
  | protocolHeader => exact absurd rfl ha
  | protocolSource =>
    obtain ⟨m, hm, hs⟩ := List.mem_flatMap.mp hs
    exact methods_isPlainLine h hfields m hm s hs
  | packetRegister =>
    obtain ⟨-, hs⟩ := List.mem_ite_nil_left.mp hs
    obtain rfl := List.mem_singleton.mp hs
    exact registrationLine_isPlainLine h
  | sessionHeader =>
    obtain ⟨-, hs⟩ := List.mem_ite_nil_left.mp hs
    exact (IsHandler.declaration h).isPlainLine s hs
  | sessionSource =>
    obtain ⟨-, hs⟩ := List.mem_ite_nil_left.mp hs
    exact (isHandler_stub hC.isUnspaced h all).isPlainLine s hs
  | sessionRegister =>
    obtain ⟨-, hs⟩ := List.mem_ite_nil_left.mp hs
    obtain rfl := List.mem_singleton.mp hs
    exact bindingLine_isPlainLine hC h

/-- No line of a block can be taken for a sentinel. -/
theorem Packet.block_isPlainLine (hC : IsName C) (h : p.IsPlain) (all : List Packet)
    (a : Artifact) : ∀ s ∈ p.block C (replyTo? all p) a, IsPlainLine s := by
  by_cases ha : a = .protocolHeader
  · rw [ha]
    exact classLines_isPlainLine h
  · exact block_isPlainLine_of_ne hC h.name (fun f hf => (h.fields f hf).name) all ha

end Plain

/-! ### Signatures -/

/-- Where elements of a list are told apart by something, they are found by it. -/
theorem find?_eq_some_iff_of_nodup {α β : Type} [DecidableEq β] {f : α → β} {xs : List α} {x : α}
    {b : β} (h : (xs.map f).Nodup) :
    xs.find? (fun y => f y = b) = some x ↔ x ∈ xs ∧ f x = b := by
  constructor
  · intro hx
    exact ⟨List.mem_of_find?_eq_some hx, by simpa using List.find?_some hx⟩
  · rintro ⟨hx, rfl⟩
    obtain ⟨y, hy⟩ := Option.isSome_iff_exists.mp
      (List.find?_isSome.mpr ⟨x, hx, by simp⟩ : (xs.find? (fun y => f y = f x)).isSome)
    have heq : f y = f x := by simpa using List.find?_some hy
    rw [hy, List.inj_on_of_nodup_map h (List.mem_of_find?_eq_some hy) hx heq]

namespace Packet

variable {p q : Packet} {m n : Method}

/-- What stands before and behind the name of a packet in the signatures of its functions. -/
def signatureForms : List (String × String) :=
  [("PacketId ", "::GetPacketId() const"), ("void ", "::BufferToPacket(NetBuffer& buffer)"),
    ("void ", "::PacketToBuffer(NetBuffer& buffer)")]

/-- Two of the forms begin with different letters, or end differently at the same length. -/
theorem signatureForms_apart : ∀ form ∈ signatureForms, form.1.toList ≠ [] ∧
    ∀ form' ∈ signatureForms, form = form' ∨ form.1.toList.head? ≠ form'.1.toList.head? ∨
      form.2.toList.length = form'.2.toList.length ∧ form.2 ≠ form'.2 := by
  decide

/-- A signature tells its form and the name in it. -/
theorem signatureForms_inj {form form' : String × String} {name name' : String}
    (hform : form ∈ signatureForms) (hform' : form' ∈ signatureForms)
    (h : form.1 ++ name ++ form.2 = form'.1 ++ name' ++ form'.2) :
    form = form' ∧ name = name' := by
  obtain ⟨hnil, hapart⟩ := signatureForms_apart form hform
  have hnil' := (signatureForms_apart form' hform').1
  have heq := congrArg String.toList h
  simp only [String.toList_append] at heq
  rcases hapart form' hform' with rfl | hhead | ⟨hlength, hne⟩
  · refine ⟨rfl, String.toList_inj.mp ?_⟩
    exact List.append_cancel_left (List.append_cancel_right heq)
  · have hfirst := congrArg List.head? heq
    rw [List.append_assoc, List.append_assoc, List.head?_append_of_ne_nil _ hnil,
      List.head?_append_of_ne_nil _ hnil'] at hfirst
    exact absurd hfirst hhead
  · exact absurd (String.toList_inj.mp (List.append_inj' heq hlength).2) hne

/-- The signatures of the functions of a packet. -/
theorem signatures_sublist (p : Packet) : (p.methods.map (·.signature)).Sublist
    (signatureForms.map fun form => form.1 ++ p.name ++ form.2) := by
  have hbuffer : ∀ name helper, (p.bufferMethod name helper).signature =
      "void " ++ p.name ++ ("::" ++ name ++ "(NetBuffer& buffer)") := by
    intro name helper
    simp only [bufferMethod, String.append_assoc, toString]
  unfold methods
  split
  · rw [List.map_cons, List.map_cons, List.map_cons, hbuffer, hbuffer]
    exact List.Sublist.refl _
  · exact (List.nil_sublist _).cons_cons _

/-- **A signature tells the name of the packet.** -/
theorem name_eq_of_signature (hm : m ∈ p.methods) (hn : n ∈ q.methods)
    (h : m.signature = n.signature) : p.name = q.name := by
  obtain ⟨form, hform, hp⟩ :=
    List.mem_map.mp (p.signatures_sublist.subset (List.mem_map_of_mem hm))
  obtain ⟨form', hform', hq⟩ :=
    List.mem_map.mp (q.signatures_sublist.subset (List.mem_map_of_mem hn))
  exact (signatureForms_inj hform hform' (hp.trans (h.trans hq.symm))).2

/-- The functions of one packet have different signatures. -/
theorem nodup_signatures (p : Packet) : (p.methods.map (·.signature)).Nodup := by
  refine List.Nodup.sublist p.signatures_sublist (List.Nodup.map_on ?_ (by decide))
  exact fun form hform form' hform' heq => (signatureForms_inj hform hform' heq).1

end Packet

/-- The functions of packets with different names have different signatures. -/
theorem nodup_signatures {packets : List Packet} (h : (packets.map (·.name)).Nodup) :
    ((packets.flatMap (·.methods)).map (·.signature)).Nodup := by
  rw [List.map_flatMap, List.nodup_flatMap]
  refine ⟨fun p _ => p.nodup_signatures, (List.pairwise_map.mp h).imp fun {p q} hne => ?_⟩
  rw [Function.onFun_apply, List.disjoint_left]
  intro signature hp hq
  obtain ⟨m, hm, rfl⟩ := List.mem_map.mp hp
  obtain ⟨n, hn, heq⟩ := List.mem_map.mp hq
  exact hne (Packet.name_eq_of_signature hm hn heq.symm)

/-- Functions with different signatures are all written. -/
theorem newMethods_eq_self {written : List String} {ms : List Packet.Method}
    (h : (ms.map (·.signature)).Nodup) (hnew : ∀ m ∈ ms, m.signature ∉ written) :
    newMethods written ms = ms := by
  induction ms generalizing written with
  | nil => rfl
  | cons m ms ih =>
    obtain ⟨hm, h⟩ := List.nodup_cons.mp h
    rw [newMethods, if_neg (hnew m List.mem_cons_self), ih h]
    intro n hn hwritten
    rcases List.mem_cons.mp hwritten with heq | hwritten
    · exact hm (List.mem_map.mpr ⟨n, hn, heq⟩)
    · exact hnew n (List.mem_cons_of_mem _ hn) hwritten

/-! ### Contents -/

section Contents

variable {C : String} {packets : List Packet} {a : Artifact}

theorem flatMap_dispatched (f : Packet → List String) : (dispatched packets).flatMap f =
    packets.flatMap fun p => if p.kind = .reply then [] else f p := by
  unfold dispatched
  induction packets with
  | nil => rfl
  | cons p packets ih =>
    rw [List.flatMap_cons, List.filter_cons, ← ih]
    by_cases hkind : p.kind = .reply
    · rw [if_pos hkind, if_neg fun hp => isDispatched_iff.mp hp hkind, List.nil_append]
    · rw [if_neg hkind, if_pos (isDispatched_iff.mpr hkind), List.flatMap_cons]

/-- Lines, one for each packet that is dispatched. -/
theorem map_dispatched (f : Packet → String) : (dispatched packets).map f =
    packets.flatMap fun p => if p.kind = .reply then [] else [f p] := by
  rw [List.map_eq_flatMap, flatMap_dispatched]

/-- **The code that replaces an interior** is made of blocks that have nothing to do with each
other. -/
theorem contentOf_replace (h : (packets.map (·.name)).Nodup) (ha : a.discipline = .replace)
    (all : List Packet) :
    contentOf C packets a = .replace (unlines (a.firstLines ++ codeOf C all packets a)) := by
  cases a with
  | packetId =>
    rw [contentOf, enumerationCode, List.map_eq_flatMap]
    rfl
  | protocolHeader => rfl
  | protocolSource =>
    rw [contentOf, methodCode, newMethods_eq_self (nodup_signatures h) (by simp),
      List.flatMap_assoc]
    rfl
  | packetRegister =>
    rw [contentOf, registrationCode, map_dispatched]
    rfl
  | sessionRegister =>
    rw [contentOf, bindingCode, map_dispatched]
    rfl
  | _ => cases ha

/-- **The entries that are added to an interior** are the handlers of the packets. -/
theorem contentOf_additive (ha : a.discipline = .additive) : contentOf C packets a =
    .additive ((handlersOf C packets (dispatched packets) a).map entryOf) := by
  have hentries : ∀ f g : Packet → Entry, (∀ p, p.kind ≠ .reply → f p = g p) →
      (dispatched packets).map f = (dispatched packets).map g := fun f g hfg =>
    List.map_congr_left fun p hp => hfg p (mem_dispatched.mp hp).2
  rw [handlersOf, List.map_map]
  cases a with
  | sessionHeader =>
    refine congrArg Content.additive (hentries _ _ fun p hp => ?_)
    rw [Function.comp, Packet.block, if_neg hp, entryOf]
  | sessionSource =>
    refine congrArg Content.additive (hentries _ _ fun p hp => ?_)
    rw [Function.comp, Packet.block, if_neg hp, entryOf]
  | _ => cases ha

/-- The lines of the handlers are the code of the packets. -/
theorem flatMap_handlersOf (ha : a.discipline = .additive) (all : List Packet) :
    (handlersOf C all (dispatched packets) a).flatMap (·.2) = codeOf C all packets a := by
  rw [handlersOf, List.flatMap_map, flatMap_dispatched, codeOf]
  congr 1
  funext p
  cases a with
  | sessionHeader => exact ite_eq_right_iff.mpr fun h => (if_pos h).symm
  | sessionSource => exact ite_eq_right_iff.mpr fun h => (if_pos h).symm
  | _ => cases ha

/-- The handlers of packets with names are handlers under these names. -/
theorem isHandler_of_mem_handlersOf (hC : IsUnspaced C) (ha : a.discipline = .additive)
    (h : ∀ p ∈ dispatched packets, IsName p.name) (all : List Packet) :
    ∀ block ∈ handlersOf C all (dispatched packets) a,
      IsHandler (handlerForm C a) block.1 block.2 := by
  intro block hblock
  obtain ⟨p, hp, rfl⟩ := List.mem_map.mp hblock
  have hdispatched := (mem_dispatched.mp hp).2
  cases a with
  | sessionHeader =>
    rw [Packet.block, if_neg hdispatched]
    exact .declaration (h p hp)
  | sessionSource =>
    rw [Packet.block, if_neg hdispatched]
    exact isHandler_stub hC (h p hp) all
  | _ => cases ha

end Contents

end Packetry

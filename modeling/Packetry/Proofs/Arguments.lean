import Packetry.Proofs.Blocks
import Packetry.Proofs.Validated

/-!
# The arguments of the serializers

The members of a packet are carried over a buffer by two functions of its class. Each is one call,
and the arguments are the parameter of the function, which is the buffer, and the members. In the
body of a member function the names of parameters and members are in one scope, and a parameter
hides the member of its name.

Validation sees to it that the names of the members are different, but it knows nothing of the
parameter. What it leaves open is `Packetry.bufferArguments_nodup_iff`: the call names the buffer
and then the members one by one, unless there is a member called `buffer`. In its place the call
names the buffer a second time.
-/

namespace Packetry

/-- What a name stands for in a function that carries the members over a buffer. -/
inductive Referent where
  /-- The parameter of the function. -/
  | parameter
  /-- A member of the packet. -/
  | member (field : Field)
  deriving DecidableEq, Repr

namespace Packet

variable {p : Packet}

/-- The members of the packet. -/
def members (p : Packet) : List Field :=
  p.fields.getD []

/-- What a name stands for in the functions of the packet that carry its members over a buffer, if
it is declared at all. The parameter hides a member of its name. -/
def referent? (p : Packet) (name : String) : Option Referent :=
  if name = "buffer" then some .parameter
  else (p.members.find? (·.name = name)).map .member

theorem fieldNames_eq (p : Packet) : p.fieldNames = p.members.map (·.name) :=
  rfl

/-- Where names are different, a member is found by its own. -/
theorem find?_members (h : p.fieldNames.Nodup) {f : Field} (hf : f ∈ p.members) :
    p.members.find? (·.name = f.name) = some f :=
  (find?_eq_some_iff_of_nodup h).mpr ⟨hf, rfl⟩

/-- A member that is not called like the parameter is what its name stands for. -/
theorem referent?_member (h : p.fieldNames.Nodup) {f : Field} (hf : f ∈ p.members) :
    p.referent? f.name = some (if f.name = "buffer" then .parameter else .member f) := by
  unfold referent?
  split
  · rfl
  · rw [find?_members h hf, Option.map_some]

/-- **What the arguments stand for**: the buffer and then the members, but the buffer again for a
member that is called like it. -/
theorem map_referent? (h : p.fieldNames.Nodup) : p.bufferArguments.map p.referent? =
    some .parameter ::
      p.members.map fun f => some (if f.name = "buffer" then .parameter else .member f) := by
  rw [bufferArguments, List.map_cons, fieldNames_eq, List.map_map]
  exact congrArg _ (List.map_congr_left fun f hf => referent?_member h hf)

theorem bufferArguments_nodup (h : p.fieldNames.Nodup) :
    p.bufferArguments.Nodup ↔ ∀ f ∈ p.members, f.name ≠ "buffer" := by
  rw [bufferArguments, List.nodup_cons, and_iff_left h, fieldNames_eq]
  simp

/-- Every argument behind the buffer stands for its member exactly if none is called like it. -/
theorem map_referent?_eq_iff (h : p.fieldNames.Nodup) :
    p.bufferArguments.map p.referent? =
      some .parameter :: p.members.map (fun f => some (.member f)) ↔
        ∀ f ∈ p.members, f.name ≠ "buffer" := by
  rw [map_referent? h, List.cons.injEq, and_iff_right rfl, List.map_inj_left]
  refine forall₂_congr fun f _ => ?_
  split <;> simp_all

end Packet

/-- **When a serializer names the buffer once.** For valid packets, the member functions that are
written are those of the packets, one packet after the other, among them two calls for each packet
with fields. The arguments of such a call stand for the buffer and for the members in order, where a
member called `buffer` is lost: its argument stands for the buffer once more. So the arguments are
pairwise different, and each but the first stands for the member of that name, exactly if no member
is called `buffer`. -/
theorem bufferArguments_nodup_iff {packets : List Packet}
    (h : (validate packets).isValid = true) :
    methodCode packets = unlines (packets.flatMap fun p => p.identifierMethod.lines ++
      if p.hasFields then
        (p.bufferMethod "BufferToPacket" "SetBufferToParameters").lines ++
          (p.bufferMethod "PacketToBuffer" "SetParametersToBuffer").lines
      else []) ∧
    ∀ p ∈ packets,
      p.bufferArguments.map p.referent? = some .parameter ::
        p.members.map (fun f => some (if f.name = "buffer" then .parameter else .member f)) ∧
      (p.bufferArguments.Nodup ↔ ∀ f ∈ p.members, f.name ≠ "buffer") ∧
      (p.bufferArguments.Nodup ↔ p.bufferArguments.map p.referent? =
        some .parameter :: p.members.map (fun f => some (.member f))) := by
  constructor
  · have hmethods : ∀ p : Packet, p.methods.flatMap (·.lines) = p.identifierMethod.lines ++
        if p.hasFields then
          (p.bufferMethod "BufferToPacket" "SetBufferToParameters").lines ++
            (p.bufferMethod "PacketToBuffer" "SetParametersToBuffer").lines
        else [] := by
      intro p
      unfold Packet.methods
      split <;> simp
    rw [methodCode, newMethods_eq_self (nodup_signatures (nodup_names_of_isValid h)) (by simp),
      List.flatMap_assoc]
    simp only [hmethods]
  · intro p hp
    have hnames := (isValid_iff.mp h).fields p hp
    refine ⟨Packet.map_referent? hnames, Packet.bufferArguments_nodup hnames, ?_⟩
    rw [Packet.map_referent?_eq_iff hnames, Packet.bufferArguments_nodup hnames]

/-- A valid packet with a member that is called like the parameter: the buffer is put into itself,
and the member is left out. -/
theorem bufferArguments_nodup_iff_buffer :
    let p : Packet := ⟨.request, "Chat", none, some [⟨"int", "length"⟩, ⟨"std::string", "buffer"⟩]⟩
    (validate [p]).isValid = true ∧
      (p.bufferMethod "PacketToBuffer" "SetParametersToBuffer").statement =
        "SetParametersToBuffer(buffer, length, buffer);" ∧
      ¬p.bufferArguments.Nodup ∧
      p.bufferArguments.map p.referent? =
        [some .parameter, some (.member ⟨"int", "length"⟩), some .parameter] := by
  intro p
  have hvalid : (validate [p]).isValid = true := by decide
  obtain ⟨hreferents, hnodup, -⟩ :=
    (bufferArguments_nodup_iff hvalid).2 p (List.mem_singleton_self p)
  refine ⟨hvalid, by decide, fun h => ?_, hreferents.trans (by decide)⟩
  exact hnodup.mp h ⟨"std::string", "buffer"⟩ (by simp [p, Packet.members]) rfl

end Packetry

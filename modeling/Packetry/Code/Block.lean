import Packetry.Packet.Enumerator
import Packetry.Packet.Reply

/-!
# Blocks of code

What is generated for one packet, as lists of lines without their ends: an enumerator, a
class, the member functions of the class, and, if the packet is dispatched, a registration, a
handler and the binding of the one to the other. The code of a region is made of the blocks
of the packets, in the order of the packets.
-/

namespace Packetry

/-- Lines, each with its end. -/
def unlines (lines : List String) : String :=
  String.join (lines.map (· ++ "\n"))

/-- Lines that are put one after the other make texts that are put one after the other. -/
@[simp] theorem unlines_append (a b : List String) : unlines (a ++ b) = unlines a ++ unlines b := by
  simp [unlines]

theorem unlines_cons (line : String) (rest : List String) :
    unlines (line :: rest) = line ++ "\n" ++ unlines rest := by
  rw [← List.singleton_append, unlines_append]
  simp [unlines, String.join]

/-- The name of the enumeration of the packets. -/
def enumerationName : String :=
  "PACKET_ID"

/-- The enumerator that stands for no packet. -/
def noPacket : String :=
  "INVALID_PACKET_ID"

namespace Packet

/-- The line of the packet in the enumeration. -/
def enumeratorLine (p : Packet) : String :=
  s!"\t, {p.enumerator}"

/-! ### Classes -/

/-- The lines for the members and for the functions that carry them over a buffer. -/
def memberLines (fields : List Field) : List String :=
  ["\tvirtual void BufferToPacket(NetBuffer& buffer) override;",
    "\tvirtual void PacketToBuffer(NetBuffer& buffer) override;",
    "",
    "public:"] ++
  fields.map fun field => s!"\t{field.type} {field.name};"

/-- The class of the packet. -/
def classLines (p : Packet) : List String :=
  [s!"class {p.name} : public IPacket",
    "\x7b",
    "public:",
    s!"\t{p.name}() = default;",
    s!"\tvirtual ~{p.name}() override = default;",
    "",
    "public:",
    "\tvirtual PacketId GetPacketId() const override;"] ++
  (p.fields.map memberLines).getD [] ++
  ["\x7d;", ""]

/-! ### Member functions -/

/-- A function: its signature and its only statement. -/
structure Method where
  /-- The signature. -/
  signature : String
  /-- The statement. -/
  statement : String
  deriving DecidableEq, Repr

/-- The lines of a function. -/
def Method.lines (m : Method) : List String :=
  [m.signature, "\x7b", s!"\t{m.statement}", "\x7d"]

/-- The constant of the packet, as the enumeration qualifies it. -/
def constant (p : Packet) : String :=
  s!"static_cast<PacketId>({enumerationName}::{p.enumerator})"

/-- The function that tells the packet's enumerator. -/
def identifierMethod (p : Packet) : Method :=
  ⟨s!"PacketId {p.name}::GetPacketId() const", s!"return {p.constant};"⟩

/-- The arguments with which the members are carried over a buffer. -/
def bufferArguments (p : Packet) : List String :=
  "buffer" :: p.fieldNames

/-- Arguments as they stand in a call. -/
def argumentList (arguments : List String) : String :=
  String.intercalate ", " arguments

/-- A function that carries the members one way, and the function that it calls for that. -/
def bufferMethod (p : Packet) (name helper : String) : Method :=
  ⟨s!"void {p.name}::{name}(NetBuffer& buffer)",
    s!"{helper}({argumentList p.bufferArguments});"⟩

/-- The functions of the packet's class. -/
def methods (p : Packet) : List Method :=
  p.identifierMethod ::
    if p.hasFields then
      [p.bufferMethod "BufferToPacket" "SetBufferToParameters",
        p.bufferMethod "PacketToBuffer" "SetParametersToBuffer"]
    else []

/-! ### Dispatch -/

/-- The registration of the packet for dispatch. -/
def registrationLine (p : Packet) : String :=
  s!"\t\tPacketHandlerUtil::RegisterPacket<{p.name}>();"

/-- The declaration of the packet's handler. -/
def declarationLine (p : Packet) : String :=
  s!"\tvoid On{p.name}(const {p.name}& packet);"

/-- The definition of the packet's handler, which sends a reply if there is one. -/
def stubLines (sessionClass : String) (reply? : Option String) (p : Packet) : List String :=
  [s!"void {sessionClass}::On{p.name}(const {p.name}& packet)", "\x7b"] ++
  (reply?.map fun reply => [s!"\t{reply} reply;", "\tSendPacket(reply);"]).getD [] ++
  ["\x7d", ""]

/-- The binding of the packet to its handler. -/
def bindingLine (sessionClass : String) (p : Packet) : String :=
  s!"\tRegisterPacketHandler<{sessionClass}, {p.name}>({p.constant}, " ++
    s!"&{sessionClass}::On{p.name});"

end Packet

end Packetry

import Packetry.Artifact
import Packetry.Code.Block
import Packetry.Document

/-!
# Generated code

The contents of the seven regions for a list of packets and a session class. The list need
not be valid: of functions with one signature, which can come from packets of one name only,
the first is written and the others are not.
-/

namespace Packetry

/-- The packets that are registered and handled. -/
def dispatched (packets : List Packet) : List Packet :=
  packets.filter (·.isDispatched)

/-- The interior of the enumeration. -/
def enumerationCode (packets : List Packet) : String :=
  unlines (s!"\t{noPacket} = 0" :: packets.map (·.enumeratorLine))

/-- The classes of the packets. -/
def classCode (packets : List Packet) : String :=
  unlines (packets.flatMap (·.classLines))

/-- The functions of a list whose signature is new, to the list and to those written before. -/
def newMethods (written : List String) : List Packet.Method → List Packet.Method
  | [] => []
  | m :: rest =>
    if m.signature ∈ written then newMethods written rest
    else m :: newMethods (m.signature :: written) rest

/-- The member functions of the classes. -/
def methodCode (packets : List Packet) : String :=
  unlines ((newMethods [] (packets.flatMap (·.methods))).flatMap (·.lines))

/-- The registrations for dispatch. -/
def registrationCode (packets : List Packet) : String :=
  unlines ((dispatched packets).map (·.registrationLine))

/-- The declarations of the handlers. -/
def declarationEntries (packets : List Packet) : List Entry :=
  (dispatched packets).map fun p => ⟨p.name, unlines [p.declarationLine]⟩

/-- The name of the packet by which a packet is answered: its conventional reply, if there
is one and if the first packet of that name is a reply. -/
def replyTo? (packets : List Packet) (p : Packet) : Option String := do
  let name ← replyName? p.name
  let reply ← find? packets name
  if reply.kind = .reply then some reply.name else none

/-- The definitions of the handlers. -/
def stubEntries (sessionClass : String) (packets : List Packet) : List Entry :=
  (dispatched packets).map fun p =>
    ⟨p.name, unlines (p.stubLines sessionClass (replyTo? packets p))⟩

/-- The bindings of packets to handlers. -/
def bindingCode (sessionClass : String) (packets : List Packet) : String :=
  unlines ((dispatched packets).map (·.bindingLine sessionClass))

/-- What is generated for the region of an artifact. -/
def contentOf (sessionClass : String) (packets : List Packet) : Artifact → Content
  | .packetId => .replace (enumerationCode packets)
  | .protocolHeader => .replace (classCode packets)
  | .protocolSource => .replace (methodCode packets)
  | .packetRegister => .replace (registrationCode packets)
  | .sessionHeader => .additive (declarationEntries packets)
  | .sessionSource => .additive (stubEntries sessionClass packets)
  | .sessionRegister => .replace (bindingCode sessionClass packets)

/-- How the handlers of an artifact are written. -/
def handlerForm (sessionClass : String) : Artifact → HandlerForm
  | .sessionHeader => .declaration
  | _ => .definition sessionClass

/-- A document with a new content of a region, and the number of entries that were added. -/
def Document.update (d : Document) (r : Region) (form : HandlerForm) :
    Content → Except Region.Fault (Document × Nat)
  | .replace text => do return (← d.replace r text.toList, 0)
  | .additive entries => do
    let (d', added) ← d.merge r entries form
    return (d', added.length)

end Packetry

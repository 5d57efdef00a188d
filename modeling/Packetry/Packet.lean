/-!
# Packets

A *packet* is one record of the schema: a kind, a name, an optional description and an
optional list of fields. The order of the packets in a schema, and of the fields in a
packet, is part of the data, so both are lists.

The kind is kept as the schema writes it: a string that names none of the three kinds is
an `unknown` kind, to be reported by `Packetry.validate`, and not an error of reading.
`Packetry.Kind.ofText` and `Packetry.Kind.text` are inverse to each other.
-/

namespace Packetry

/-- The part a packet plays in the protocol. -/
inductive Kind where
  /-- The one packet that opens a session. -/
  | unique
  /-- A packet that is sent to the session and handled there. -/
  | request
  /-- A packet that the session sends back. -/
  | reply
  /-- Any other text, kept as it was written. -/
  | unknown (text : String)
  deriving DecidableEq, Repr

/-- The kind that a text of the schema names. -/
def Kind.ofText (text : String) : Kind :=
  if text = "Unique" then .unique
  else if text = "RequestPacket" then .request
  else if text = "ReplyPacket" then .reply
  else .unknown text

/-- The text of a kind in the schema. -/
def Kind.text : Kind → String
  | .unique => "Unique"
  | .request => "RequestPacket"
  | .reply => "ReplyPacket"
  | .unknown text => text

/-- Whether packets of this kind are registered for dispatch and handled by the session:
all are, but for replies. -/
def Kind.isDispatched : Kind → Bool
  | .reply => false
  | _ => true

/-- Reading a kind loses nothing of its text. -/
@[simp] theorem Kind.text_ofText (text : String) : (Kind.ofText text).text = text := by
  unfold Kind.ofText
  split
  · simp_all [Kind.text]
  · split
    · simp_all [Kind.text]
    · split
      · simp_all [Kind.text]
      · rfl

/-- A member of a packet. -/
structure Field where
  /-- The type of the member, as the generated code writes it. -/
  type : String
  /-- The name of the member. -/
  name : String
  deriving DecidableEq, Repr

/-- One record of the schema. -/
structure Packet where
  /-- The part the packet plays. -/
  kind : Kind
  /-- The name of the packet and of its class. -/
  name : String
  /-- What the packet is for. -/
  description : Option String
  /-- The members, if the record declares any; an empty declaration is not an absent one. -/
  fields : Option (List Field)
  deriving DecidableEq, Repr

/-- Whether the record declares members. -/
def Packet.hasFields (p : Packet) : Bool :=
  p.fields.isSome

/-- The names of the members, in order. -/
def Packet.fieldNames (p : Packet) : List String :=
  (p.fields.getD []).map (·.name)

/-- Whether the packet is registered for dispatch and handled by the session. -/
def Packet.isDispatched (p : Packet) : Bool :=
  p.kind.isDispatched

/-- The first packet of that name. -/
def find? (packets : List Packet) (name : String) : Option Packet :=
  packets.find? (·.name = name)

end Packetry

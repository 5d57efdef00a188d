/-!
# Artifacts

The generator maintains seven files, the *artifacts*. Each holds one region; in five of them
its interior is generated anew in every run, in the other two, where the handlers of a
session are declared and defined, it is only ever added to. Three artifacts are shared with
the other side of the protocol and are published to it.
-/

namespace Packetry

/-- A file that the generator maintains. -/
inductive Artifact where
  /-- The enumeration of the packets. -/
  | packetId
  /-- The classes of the packets. -/
  | protocolHeader
  /-- The member functions of these classes. -/
  | protocolSource
  /-- The registrations of the packets for dispatch. -/
  | packetRegister
  /-- The declarations of the handlers of a session. -/
  | sessionHeader
  /-- The definitions of the handlers of a session. -/
  | sessionSource
  /-- The registrations of these handlers. -/
  | sessionRegister
  deriving DecidableEq, Repr

namespace Artifact

/-- The artifacts, in the order in which they are worked on. -/
def all : List Artifact :=
  [packetId, protocolHeader, protocolSource, packetRegister, sessionHeader, sessionSource,
    sessionRegister]

/-- Every artifact is in the list of all. -/
theorem mem_all (a : Artifact) : a ∈ all := by
  cases a <;> simp [all]

/-- The name of an artifact in reports. -/
def label : Artifact → String
  | packetId => "packet-id"
  | protocolHeader => "protocol-header"
  | protocolSource => "protocol-source"
  | packetRegister => "packet-register"
  | sessionHeader => "session-header"
  | sessionSource => "session-source"
  | sessionRegister => "session-register"

/-- The name of an artifact in settings. -/
def key : Artifact → String
  | packetId => "packet_id"
  | protocolHeader => "protocol_header"
  | protocolSource => "protocol_source"
  | packetRegister => "packet_register"
  | sessionHeader => "session_header"
  | sessionSource => "session_source"
  | sessionRegister => "session_register"

/-- How the region of an artifact is maintained. -/
inductive Discipline where
  /-- Its interior is generated anew. -/
  | replace
  /-- What its interior lacks is added. -/
  | additive
  deriving DecidableEq, Repr

/-- How the region of an artifact is maintained. -/
def discipline : Artifact → Discipline
  | sessionHeader => .additive
  | sessionSource => .additive
  | _ => .replace

/-- Whether an artifact is published. -/
def isPublished : Artifact → Bool
  | packetId => true
  | protocolHeader => true
  | protocolSource => true
  | _ => false

/-- The artifacts that are published, in order. -/
def published : List Artifact :=
  all.filter isPublished

/-- The name of the template that an artifact starts from. -/
def template : Artifact → String
  | packetId => "packet_id.h.tera"
  | protocolHeader => "protocol.h.tera"
  | protocolSource => "protocol.cpp.tera"
  | packetRegister => "packet_register.cpp.tera"
  | sessionHeader => "session.h.tera"
  | sessionSource => "session_handler.cpp.tera"
  | sessionRegister => "session_register.cpp.tera"

end Artifact

end Packetry

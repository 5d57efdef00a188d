import Packetry.Artifact
import Packetry.Path
import Packetry.Region
import Packetry.Text.Blank

/-!
# Configurations

A configuration says where the schema and the artifacts are and how the things in them are
called. Relative paths start from the base directory, which is not itself a setting, and
those of artifacts from the target directory. The registrations of a session's handlers are
written only if a path for them is set.
-/

namespace Packetry

/-- The paths of the artifacts. -/
structure Files where
  /-- The path of the enumeration. -/
  packetId : Path := ⟨"PacketIdType.h"⟩
  /-- The path of the classes. -/
  protocolHeader : Path := ⟨"Protocol.h"⟩
  /-- The path of the member functions. -/
  protocolSource : Path := ⟨"Protocol.cpp"⟩
  /-- The path of the registrations for dispatch. -/
  packetRegister : Path := ⟨"PlayerPacketHandlerRegister.cpp"⟩
  /-- The path of the declarations of handlers. -/
  sessionHeader : Path := ⟨"Player.h"⟩
  /-- The path of the definitions of handlers. -/
  sessionSource : Path := ⟨"PlayerPacketHandler.cpp"⟩
  /-- The path of the registrations of handlers, if they are wanted. -/
  sessionRegister : Option Path := none
  deriving DecidableEq, Repr

/-- The path of an artifact, if it has one. -/
def Files.get? (files : Files) : Artifact → Option Path
  | .packetId => some files.packetId
  | .protocolHeader => some files.protocolHeader
  | .protocolSource => some files.protocolSource
  | .packetRegister => some files.packetRegister
  | .sessionHeader => some files.sessionHeader
  | .sessionSource => some files.sessionSource
  | .sessionRegister => files.sessionRegister

/-- The names of the regions of the artifacts. -/
structure RegionNames where
  /-- The name of the region with the enumeration. -/
  packetId : String := "packet id"
  /-- The name of the region with the classes. -/
  protocolHeader : String := "packet class"
  /-- The name of the region with the member functions. -/
  protocolSource : String := "packet function"
  /-- The name of the region with the registrations for dispatch. -/
  packetRegister : String := "packet register"
  /-- The name of the region with the declarations of handlers. -/
  sessionHeader : String := "packet handler"
  /-- The name of the region with the definitions of handlers. -/
  sessionSource : String := "packet handler"
  /-- The name of the region with the registrations of handlers. -/
  sessionRegister : String := "packet handler register"
  deriving DecidableEq, Repr

/-- The name of the region of an artifact. -/
def RegionNames.get (names : RegionNames) : Artifact → String
  | .packetId => names.packetId
  | .protocolHeader => names.protocolHeader
  | .protocolSource => names.protocolSource
  | .packetRegister => names.packetRegister
  | .sessionHeader => names.sessionHeader
  | .sessionSource => names.sessionSource
  | .sessionRegister => names.sessionRegister

/-- A configuration of the generator. -/
structure Config where
  /-- The directory that relative paths start from. -/
  baseDirectory : Path := ⟨"."⟩
  /-- The path of the schema. -/
  schema : Path := ⟨"PacketDefine.yml"⟩
  /-- The key under which the schema lists the packets. -/
  schemaKey : String := "Packet"
  /-- The directory that relative paths of artifacts start from. -/
  targetRoot : Path := ⟨"ContentsServer"⟩
  /-- The class whose member functions are the handlers. -/
  sessionClass : String := "Player"
  /-- The namespace around the registrations for dispatch. -/
  registerNamespace : String := "ContentsPacketRegister"
  /-- The paths of the artifacts. -/
  files : Files := {}
  /-- The names of their regions. -/
  regions : RegionNames := {}
  /-- The directory to which the shared artifacts are published, if they are. -/
  publishRoot : Option Path := none
  /-- The directory of the user's templates, if there is one. -/
  templates : Option Path := none
  deriving DecidableEq, Repr

namespace Config

/-- The usual name of a file with a configuration. -/
def fileName : String :=
  "pktgen.yaml"

/-- A path as seen from the base directory. -/
def resolve (config : Config) (p : Path) : Path :=
  config.baseDirectory.join p

/-- The path of the schema. -/
def schemaPath (config : Config) : Path :=
  config.resolve config.schema

/-- The target directory. -/
def targetDirectory (config : Config) : Path :=
  config.resolve config.targetRoot

/-- The directory to which the shared artifacts are published. -/
def publishDirectory? (config : Config) : Option Path :=
  config.publishRoot.map config.resolve

/-- The directory of the user's templates. -/
def templateDirectory? (config : Config) : Option Path :=
  config.templates.map config.resolve

/-- The path of an artifact, if it is wanted. -/
def path? (config : Config) (a : Artifact) : Option Path :=
  (config.files.get? a).map config.targetDirectory.join

/-- The artifacts that are wanted and their paths, in order. -/
def configured (config : Config) : List (Artifact × Path) :=
  Artifact.all.filterMap fun a => (config.path? a).map fun p => (a, p)

/-- The region of an artifact. White space around its name does not count. -/
def region (config : Config) (a : Artifact) : Region :=
  ⟨String.ofList (Text.trim (config.regions.get a).toList)⟩

end Config

end Packetry

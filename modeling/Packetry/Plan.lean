import Packetry.Code
import Packetry.Failure
import Packetry.Text.Utf8

/-!
# Plans

A *plan* says what every artifact is to be: its current text, or its scaffold if it is
missing, with what is generated for its region. A plan writes nothing, and there is none
unless the packets are valid and the regions of all artifacts can be found.
-/

namespace Packetry

open Disk

/-- What an artifact is to be. -/
structure PlannedArtifact where
  /-- The artifact. -/
  artifact : Artifact
  /-- Its path. -/
  path : Path
  /-- Whether the file is there. -/
  existed : Bool
  /-- Its text, or its scaffold. -/
  current : String
  /-- The text that it is to have. -/
  merged : String
  /-- How many entries are added. -/
  inserted : Nat
  deriving DecidableEq, Repr

/-- Whether the file does not have the text that it is to have. -/
def PlannedArtifact.changes (a : PlannedArtifact) : Bool :=
  !a.existed || a.current != a.merged

/-- What the artifacts are to be. -/
structure Plan where
  /-- The packets. -/
  packets : List Packet
  /-- The artifacts, in order. -/
  artifacts : List PlannedArtifact
  deriving DecidableEq, Repr

/-- The packets of the schema, if they are valid. -/
def loadValid (config : Config) : Program (Except Failure (List Packet)) := do
  match ← Schema.load config.schemaPath config.schemaKey with
  | .error fault => return .error (.schema fault)
  | .ok packets =>
    let report := validate packets
    return if report.isValid then .ok packets else .error (.invalid report)

/-- The text of bytes, or where they stop being text. -/
def textOf (bytes : ByteArray) : Except Nat String :=
  match String.fromUTF8? bytes with
  | some text => .ok text
  | none => .error (Text.textLength bytes.toList)

/-- The text of an artifact, if the file is there. -/
def currentText (p : Path) : Program (Except Failure (Option String)) := do
  match ← Program.read p with
  | .ok bytes =>
    match textOf bytes with
    | .ok text => return .ok (some text)
    | .error offset => return .error (.notText p offset)
  | .error .notFound => return .ok none
  | .error e => return .error (.write (.access p e))

/-- What the text of an artifact is to be, and how many entries are added. -/
def mergedText (config : Config) (packets : List Packet) (a : Artifact) (current : String) :
    Except Region.Fault (String × Nat) := do
  let (d, inserted) ← (Document.parse current).update (config.region a)
    (handlerForm config.sessionClass a) (contentOf config.sessionClass packets a)
  return (d.render, inserted)

/-- What an artifact is to be, by its text if the file is there. -/
def planArtifact (s : Scaffolds) (packets : List Packet) (a : Artifact) (p : Path)
    (text : Option String) : Except Failure PlannedArtifact := do
  let current ← text.elim ((s.ofArtifact a).mapError .scaffold) .ok
  let (next, inserted) ← (mergedText s.config packets a current).mapError (.structural p)
  return ⟨a, p, text.isSome, current, next, inserted⟩

/-- What artifacts of a list are to be. -/
def planAll (s : Scaffolds) (packets : List Packet) :
    List (Artifact × Path) → Program (Except Failure (List PlannedArtifact))
  | [] => return .ok []
  | (a, p) :: rest => do
    match ← currentText p with
    | .error failure => return .error failure
    | .ok text =>
      match planArtifact s packets a p text with
      | .error failure => return .error failure
      | .ok planned =>
        match ← planAll s packets rest with
        | .error failure => return .error failure
        | .ok others => return .ok (planned :: others)

/-- What the artifacts are to be. -/
def plan (s : Scaffolds) : Program (Except Failure Plan) := do
  match ← loadValid s.config with
  | .error failure => return .error failure
  | .ok packets =>
    match ← planAll s packets s.config.configured with
    | .error failure => return .error failure
    | .ok artifacts => return .ok ⟨packets, artifacts⟩

end Packetry

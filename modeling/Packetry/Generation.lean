import Packetry.Plan

/-!
# Generation

A run of the generator: files that are missing are made from their scaffolds, a plan is made,
all artifacts are written together as it says, and those that are shared are published. A
*dry* run writes nothing and says what would be written.
-/

namespace Packetry

open Disk

/-! ### Missing files -/

/-- Make files of a list from their scaffolds, as far as they are missing. The answer is what
was made. -/
def makeMissing :
    List (Path × Except ScaffoldFault String) → Program (Except Failure (List Path))
  | [] => return .ok []
  | (p, scaffold) :: rest => do
    if ← Program.exists? p then makeMissing rest
    else
      match scaffold with
      | .error fault => return .error (.scaffold fault)
      | .ok text =>
        match ← replaceFile p text.toUTF8 with
        | .error failure => return .error (.write failure)
        | .ok () =>
          match ← makeMissing rest with
          | .error failure => return .error failure
          | .ok made => return .ok (p :: made)

/-- The files that a run starts from, and their scaffolds: the schema, and then the
artifacts. -/
def Scaffolds.files (s : Scaffolds) : List (Path × Except ScaffoldFault String) :=
  (s.config.schemaPath, s.ofSchema) ::
    s.config.configured.map fun (a, p) => (p, s.ofArtifact a)

/-- Make what is missing. -/
def ensure (s : Scaffolds) : Program (Except Failure (List Path)) :=
  makeMissing s.files

/-! ### Publishing -/

/-- Copy a file, unless the copy is there already. -/
def publishFile (source target : Path) : Program (Except Failure Outcome) := do
  match ← Program.read source with
  | .error e => return .error (.write (.access source e))
  | .ok bytes =>
    match ← digestOf target with
    | .error e => return .error (.write (.access target e))
    | .ok current =>
      if current = some (digest bytes) then return .ok (.unchanged target)
      else
        match ← replaceFile target bytes with
        | .error failure => return .error (.write failure)
        | .ok () => return .ok (.written target)

/-- Copy files of a list. -/
def publishAll : List (Path × Path) → Program (Except Failure (List Outcome))
  | [] => return .ok []
  | (source, target) :: rest => do
    match ← publishFile source target with
    | .error failure => return .error failure
    | .ok outcome =>
      match ← publishAll rest with
      | .error failure => return .error failure
      | .ok outcomes => return .ok (outcome :: outcomes)

/-- The artifacts that are published, and their paths in a directory. One whose path does
not end with a name is left out. -/
def Config.publications (config : Config) (directory : Path) : List (Path × Path) :=
  Artifact.published.filterMap fun a => do
    let source ← config.path? a
    return (source, directory.join ⟨← source.fileName?⟩)

/-- Publish the shared artifacts to a directory. -/
def publish (config : Config) (directory : Path) : Program (Except Failure (List Outcome)) :=
  publishAll (config.publications directory)

/-! ### A run -/

/-- What became of an artifact. -/
structure ArtifactOutcome where
  /-- The artifact. -/
  artifact : Artifact
  /-- What became of its file. -/
  outcome : Outcome
  /-- How many entries were added. -/
  inserted : Nat
  deriving DecidableEq, Repr

/-- What a run did. -/
structure RunReport where
  /-- Whether nothing was to be written. -/
  isDry : Bool
  /-- The number of packets. -/
  packets : Nat
  /-- The files that were missing. -/
  scaffolded : List Path
  /-- The artifacts. -/
  artifacts : List ArtifactOutcome
  /-- The files that were published. -/
  published : List Outcome
  deriving DecidableEq, Repr

/-- Stage the artifacts of a list. -/
def stageAll (t : Transaction) :
    List PlannedArtifact → Program (Except WriteFailure Transaction)
  | [] => return .ok t
  | a :: rest => do
    match ← t.stage a.path a.merged.toUTF8 with
    | (.error failure, _) => return .error failure
    | (.ok (), t') => stageAll t' rest

/-- Write the artifacts as they are planned, all together. -/
def writePlan (isDry : Bool) (artifacts : List PlannedArtifact) :
    Program (Except WriteFailure (List Outcome)) := do
  match ← stageAll (.new isDry) artifacts with
  | .error failure => return .error failure
  | .ok t => t.commit

/-- Publish if the configuration says where to. -/
def publishIfWanted (config : Config) (isDry : Bool) :
    Program (Except Failure (List Outcome)) :=
  match config.publishDirectory? with
  | some directory => if isDry then return .ok [] else publish config directory
  | none => return .ok []

/-- A run with scaffolds, after missing files were made. -/
def generateWith (s : Scaffolds) (isDry : Bool) (scaffolded : List Path) :
    Program (Except Failure RunReport) := do
  match ← plan s with
  | .error failure => return .error failure
  | .ok p =>
    match ← writePlan isDry p.artifacts with
    | .error failure => return .error (.write failure)
    | .ok outcomes =>
      let artifacts := p.artifacts.zipWith (fun a o => ⟨a.artifact, o, a.inserted⟩) outcomes
      match ← publishIfWanted s.config isDry with
      | .error failure => return .error failure
      | .ok published =>
        return .ok ⟨isDry, p.packets.length, scaffolded, artifacts, published⟩

/-- A run of the generator. -/
def generate (config : Config) (isDry : Bool) : Program (Except Failure RunReport) := do
  match ← Scaffolds.load config with
  | .error fault => return .error (.scaffold fault)
  | .ok s =>
    if isDry then generateWith s isDry []
    else
      match ← ensure s with
      | .error failure => return .error failure
      | .ok scaffolded => generateWith s isDry scaffolded

end Packetry

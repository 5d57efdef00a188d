import Packetry.Difference.Unified
import Packetry.Plan

/-!
# Comparisons

What a run would change, as differences between the artifacts and their plan. Pairs of
carriage return and line feed count as line feeds, and a missing artifact as an empty one.
-/

namespace Packetry

open Disk

/-- What a run would change in an artifact. -/
structure Comparison where
  /-- The artifact. -/
  artifact : Artifact
  /-- Its path. -/
  path : Path
  /-- The difference, in the unified format. -/
  difference : String
  deriving DecidableEq, Repr

/-- A text with a line feed for every pair of carriage return and line feed. -/
def plainLines (text : String) : String :=
  String.ofList (Text.toLineFeeds text.toList)

/-- The comparison of an artifact with what it is to be, if they differ. Its path is shown as
seen from a directory. -/
def PlannedArtifact.comparison? (a : PlannedArtifact) (directory : Path) : Option Comparison :=
  let old := if a.existed then plainLines a.current else ""
  let new := plainLines a.merged
  if old = new then none
  else
    let shown := ((a.path.strip? directory).getD a.path).text
    some ⟨a.artifact, a.path, unifiedDifference s!"a/{shown}" s!"b/{shown}" old new⟩

/-- The comparisons of the artifacts of a plan. -/
def Plan.comparisons (p : Plan) (directory : Path) : List Comparison :=
  p.artifacts.filterMap (·.comparison? directory)

/-- What a run would change. -/
def compareWithPlan (config : Config) : Program (Except Failure (List Comparison)) := do
  match ← Scaffolds.load config with
  | .error fault => return .error (.scaffold fault)
  | .ok s =>
    match ← plan s with
    | .error failure => return .error failure
    | .ok p => return .ok (p.comparisons config.targetDirectory)

end Packetry

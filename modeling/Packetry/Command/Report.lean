import Packetry.Comparison
import Packetry.Generation
import Packetry.Json
import Packetry.Table

/-!
# Reports

What the commands print: the report of a run and the list of the packets, each as text and in
JSON, and the changes that a run would make.
-/

namespace Packetry

/-- Lines of a report, each with its end. -/
def printed (lines : List String) : String :=
  unlines lines

/-! ### Runs -/

/-- The sign of what became of a file. -/
def Outcome.sign : Outcome → String
  | written _ => "✎"
  | wouldWrite _ => "~"
  | unchanged _ => "·"

/-- The line of what became of a file. -/
def Outcome.line (o : Outcome) : String :=
  s!"  {o.sign}  {o.path.text}"

/-- The line of what became of an artifact. -/
def ArtifactOutcome.line (a : ArtifactOutcome) : String :=
  a.outcome.line ++ if a.inserted = 0 then "" else s!" (+{a.inserted} handler)"

/-- The number of artifacts that have, or would have, a new content. -/
def RunReport.changed (r : RunReport) : Nat :=
  (r.artifacts.filter (·.outcome.isChange)).length

/-- The report of a run as text. -/
def RunReport.text (r : RunReport) : String :=
  let mark := if r.isDry then "[dry-run] " else ""
  let unchanged := r.artifacts.length - r.changed
  printed <|
    (r.scaffolded.map fun p => s!"  +  {p.text}") ++
    [s!"{mark}{r.packets} packets, {r.changed} changed, {unchanged} unchanged"] ++
    r.artifacts.map (·.line) ++
    (if r.published.isEmpty then []
      else s!"{mark}published:" :: r.published.map (·.line)) ++
    [if r.isDry then s!"{mark}no files written" else "Code generated successfully"]

/-- The name of what became of a file. -/
def Outcome.status : Outcome → String
  | written _ => "written"
  | wouldWrite _ => "would_write"
  | unchanged _ => "unchanged"

/-- What became of a file, as the entries of a record. -/
def Outcome.entries (o : Outcome) : List (String × Json) :=
  [("status", .text o.status), ("path", .text o.path.text)]

/-- What became of an artifact in JSON. -/
def ArtifactOutcome.toJson (a : ArtifactOutcome) : Json :=
  .record ([("kind", .text a.artifact.label)] ++ a.outcome.entries ++
    [("inserted", .number a.inserted)])

/-- The report of a run in JSON. -/
def RunReport.toJson (r : RunReport) : Json :=
  .record [("dry_run", .truth r.isDry), ("packets", .number r.packets),
    ("scaffolded", .list (r.scaffolded.map fun p => .text p.text)),
    ("artifacts", .list (r.artifacts.map (·.toJson))),
    ("published", .list (r.published.map fun o => .record o.entries))]

/-! ### Packets -/

/-- The heading of the table of the packets. -/
def packetHeading : List String :=
  ["Type", "PacketName", "Description", "ItemType", "ItemName"]

/-- The rows of a packet: one for each member, or one without a member. -/
def Packet.rows (p : Packet) : List (List String) :=
  let row := fun type name => [p.kind.text, p.name, p.description.getD "", type, name]
  match p.fields.getD [] with
  | [] => [row "" ""]
  | fields => fields.map fun f => row f.type f.name

/-- The list of the packets as text. -/
def packetTable (packets : List Packet) : String :=
  Table.render packetHeading (packets.flatMap (·.rows)) ++
    printed [s!"{packets.length} packets"]

/-- A member in JSON. -/
def Field.toJson (f : Field) : Json :=
  .record [("Type", .text f.type), ("Name", .text f.name)]

/-- A packet in JSON; what its record does not have is left out. -/
def Packet.toJson (p : Packet) : Json :=
  .record ([("Type", .text p.kind.text), ("PacketName", .text p.name)] ++
    (p.description.map fun d => ("Desc", Json.text d)).toList ++
    (p.fields.map fun fs => ("Items", Json.list (fs.map (·.toJson)))).toList)

/-! ### Changes -/

/-- The changes that a run would make. -/
def changesText (changes : List Comparison) : String :=
  if changes.isEmpty then printed ["No differences."]
  else String.join (changes.map (·.difference))

end Packetry

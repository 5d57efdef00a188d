import Packetry.Config
import Packetry.Disk
import Packetry.Yaml.Layout
import Packetry.Yaml.Node
import Packetry.Yaml.Plain

/-!
# Configurations in files

A configuration is written as a mapping of settings, and read from one. What a file does not
set keeps its default, and settings that are not known are ignored. Every setting is a text:
whatever stands there is taken as it is written, be it a number or a truth value. Only where
a setting is optional does null mean that it is not set.
-/

namespace Packetry.Config

open Yaml

/-! ### Reading -/

/-- The node itself, or the one that it stands for. -/
def followed (targets : Targets) : Node → Option Node
  | .alias anchor => targets.lookup anchor
  | node => some node

/-- Read a text. -/
def readText? (targets : Targets) (node : Node) : Option String := do
  match ← followed targets node with
  | .scalar _ _ s => some s
  | _ => none

/-- Read a path. -/
def readPath? (targets : Targets) (node : Node) : Option Path :=
  (readText? targets node).map Path.mk

/-- Read a path that need not be set. -/
def readOptionalPath? (targets : Targets) (node : Node) : Option (Option Path) := do
  match ← followed targets node with
  | .scalar p plain s =>
    if !plain then some (some ⟨s⟩)
    else if p.tag = some "tag:yaml.org,2002:null" then if isNull s then some none else none
    else if p.tag.isSome then some (some ⟨s⟩)
    else some (if s = "" ∨ isNull s then none else some ⟨s⟩)
  | _ => none

/-- Read settings, entry by entry. A step gets the settings before, the name of one and its
value, and says whether it knows the name. A setting that is known must not come twice, and
one that is not known does not matter. Where nothing is written, nothing is set. -/
def readSettings? {σ : Type} (targets : Targets) (start : σ) (known : List String)
    (step : σ → String → Node → Option σ) (node : Node) : Option σ := do
  match ← followed targets node with
  | .mapping _ entries =>
    let (s, _) ← entries.foldlM (fun (s, seen) (key, value) => do
      let name ← readText? targets key
      if !known.contains name then some (s, seen)
      else if seen.contains name then none
      else some (← step s name value, name :: seen)) (start, ([] : List String))
    some s
  | .scalar _ true "" => some start
  | _ => none

/-- Read the paths of the artifacts. -/
def readFiles? (targets : Targets) : Node → Option Files :=
  readSettings? targets {} (Artifact.all.map Artifact.key) fun files name v =>
    let path := readPath? targets v
    match name with
    | "packet_id" => path.map fun p => { files with packetId := p }
    | "protocol_header" => path.map fun p => { files with protocolHeader := p }
    | "protocol_source" => path.map fun p => { files with protocolSource := p }
    | "packet_register" => path.map fun p => { files with packetRegister := p }
    | "session_header" => path.map fun p => { files with sessionHeader := p }
    | "session_source" => path.map fun p => { files with sessionSource := p }
    | _ => (readOptionalPath? targets v).map fun p => { files with sessionRegister := p }

/-- Read the names of the regions. -/
def readRegions? (targets : Targets) : Node → Option RegionNames :=
  readSettings? targets {} (Artifact.all.map Artifact.key) fun names name v =>
    let text := readText? targets v
    match name with
    | "packet_id" => text.map fun s => { names with packetId := s }
    | "protocol_header" => text.map fun s => { names with protocolHeader := s }
    | "protocol_source" => text.map fun s => { names with protocolSource := s }
    | "packet_register" => text.map fun s => { names with packetRegister := s }
    | "session_header" => text.map fun s => { names with sessionHeader := s }
    | "session_source" => text.map fun s => { names with sessionSource := s }
    | _ => text.map fun s => { names with sessionRegister := s }

/-- Read where to publish to. -/
def readPublishRoot? (targets : Targets) : Node → Option (Option Path) :=
  readSettings? targets none ["target_root"] fun _ _ v => readOptionalPath? targets v

/-- The names of the settings. -/
def settingNames : List String :=
  ["schema", "schema_key", "target_root", "session_class", "register_namespace", "artifacts",
    "regions", "publish", "templates"]

/-- Read a configuration. -/
def readConfig? (targets : Targets) : Node → Option Config :=
  readSettings? targets {} settingNames fun config name v =>
    let path := readPath? targets v
    let text := readText? targets v
    match name with
    | "schema" => path.map fun p => { config with schema := p }
    | "schema_key" => text.map fun s => { config with schemaKey := s }
    | "target_root" => path.map fun p => { config with targetRoot := p }
    | "session_class" => text.map fun s => { config with sessionClass := s }
    | "register_namespace" => text.map fun s => { config with registerNamespace := s }
    | "artifacts" => (readFiles? targets v).map fun files => { config with files := files }
    | "regions" => (readRegions? targets v).map fun names => { config with regions := names }
    | "publish" => (readPublishRoot? targets v).map fun p => { config with publishRoot := p }
    | _ => (readOptionalPath? targets v).map fun p => { config with templates := p }

/-- The configuration that a text sets. Nothing but white space sets nothing. -/
def ofText? (text : String) : Option Config :=
  if (Text.trim text.toList).isEmpty then some {}
  else do
    let d ← Document.ofText? text
    if d.isFollowed then none
    let root := d.root.getD .empty
    readConfig? root.targets root

/-! ### Writing -/

/-- A setting that need not be there. -/
def optionalItem (key : String) (p : Option Path) : List (String × String) :=
  (p.map fun p => (key, p.text)).toList

/-- The settings of a configuration. -/
def items (config : Config) : List (String × Item) :=
  let files := Artifact.all.flatMap fun a => optionalItem a.key (config.files.get? a)
  let names := Artifact.all.map fun a => (a.key, config.regions.get a)
  [("schema", .text config.schema.text),
    ("schema_key", .text config.schemaKey),
    ("target_root", .text config.targetRoot.text),
    ("session_class", .text config.sessionClass),
    ("register_namespace", .text config.registerNamespace),
    ("artifacts", .group files),
    ("regions", .group names),
    ("publish", .group (optionalItem "target_root" config.publishRoot))] ++
  (optionalItem "templates" config.templates).map fun e => (e.1, .text e.2)

/-- A configuration as a text. The base directory is not part of it. -/
def toText (config : Config) : String :=
  document config.items

/-! ### Files -/

/-- Why a configuration cannot be loaded. -/
inductive Fault where
  /-- The file cannot be read. -/
  | unreadable (p : Path) (cause : Disk.Error)
  /-- The text sets no configuration. -/
  | unparsable (p : Path)
  deriving DecidableEq, Repr

/-- The text of a fault. -/
def Fault.message : Fault → String
  | unreadable p cause => s!"cannot read config at {p.text}: {cause.message}"
  | unparsable p => s!"failed to parse config at {p.text}: malformed configuration"

/-- The texts of a fault and of what it stems from. -/
def Fault.causes (fault : Fault) : List String :=
  fault.message ::
    match fault with
    | unreadable _ cause => [cause.message]
    | unparsable _ => ["malformed configuration"]

/-- The configuration in a file. Its base directory is the directory of the file. -/
def load (p : Path) : Disk.Program (Except Fault Config) := do
  match ← Disk.Program.readText p with
  | .error cause => return .error (.unreadable p cause)
  | .ok text =>
    match ofText? text with
    | none => return .error (.unparsable p)
    | some config =>
      let base := (p.parent?.filter (·.text ≠ "")).getD ⟨"."⟩
      return .ok { config with baseDirectory := base }

/-- The configuration of a directory: that in the file of the usual name, or the default. -/
def discover (directory : Path) : Disk.Program (Except Fault Config) := do
  let p := directory.join ⟨fileName⟩
  if ← Disk.Program.exists? p then load p
  else return .ok { baseDirectory := directory }

end Packetry.Config

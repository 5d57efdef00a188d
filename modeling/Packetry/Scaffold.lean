import Packetry.Config
import Packetry.Template.Reader
import Packetry.Template.Standard
import Packetry.Transaction

/-!
# Scaffolds

A file that is missing starts from its *scaffold*, which is made from a template. There is a
standard template for every artifact and for the schema; a user's template of the same name
takes its place. Names are compared in lower case, and of several files of one name the one
that is listed last counts. All templates of the user that count must be well written, even
those that no file starts from.
-/

namespace Packetry

open Disk

/-! ### Values for the templates -/

/-- The name under which a file is included. -/
def headerName (p : Path) : String :=
  p.fileName?.getD p.text

/-- The values that a configuration gives to every template. -/
def Config.values (config : Config) : List (String × Template.Value) :=
  [("session_class", .text config.sessionClass),
    ("register_namespace", .text config.registerNamespace),
    ("schema_key", .text config.schemaKey),
    ("packet_id_header", .text (headerName config.files.packetId)),
    ("protocol_header", .text (headerName config.files.protocolHeader)),
    ("session_header", .text (headerName config.files.sessionHeader))]

/-- The value that tells a template its region. -/
def Region.value (r : Region) : Template.Value :=
  .record [("begin", r.beginMarker), ("end", r.endMarker)]

/-! ### Templates of the user -/

/-- Why there is no scaffold. -/
inductive ScaffoldFault where
  /-- A template, or the directory of templates, cannot be read. -/
  | unreadable (p : Path) (cause : Disk.Error)
  /-- A template is not well written, or cannot be rendered. -/
  | unusable
  deriving DecidableEq, Repr

/-- The text of a fault. What exactly is wrong with a template is not told. -/
def ScaffoldFault.message : ScaffoldFault → String
  | unreadable p cause => s!"template io error at {p.text}: {cause.message}"
  | unusable => "template engine error"

/-- The texts of a fault and of what it stems from. -/
def ScaffoldFault.causes (fault : ScaffoldFault) : List String :=
  fault.message ::
    match fault with
    | unreadable _ cause => [cause.message]
    | unusable => []

/-- The ending of a file that holds a template, behind the last dot. -/
def templateEnding : String :=
  "tera"

/-- The name of the template in a file: a file name in lower case. -/
def templateName (fileName : String) : String :=
  let slashed := fileName.toList.map fun c => if c = '\x5c' then '/' else c
  String.ofList (Text.lowerCase slashed)

/-- The texts of the templates among the files of a directory, each with its name. -/
def templateTexts (directory : Path) :
    List String → Program (Except ScaffoldFault (List (String × String)))
  | [] => return .ok []
  | name :: rest => do
    let p := directory.join ⟨name⟩
    if p.extension? = some templateEnding && (← Program.isFile p) then
      match ← Program.readText p with
      | .error cause => return .error (.unreadable p cause)
      | .ok text =>
        match ← templateTexts directory rest with
        | .error fault => return .error fault
        | .ok texts => return .ok ((templateName name, text) :: texts)
    else templateTexts directory rest

/-- What is known by its name: of several pairs of one name, the last. -/
def registered {α : Type} : List (String × α) → List (String × α)
  | [] => []
  | (name, x) :: rest =>
    if name ∈ rest.map (·.1) then registered rest else (name, x) :: registered rest

/-- The texts of the user's templates. -/
def userTemplateTexts (config : Config) :
    Program (Except ScaffoldFault (List (String × String))) := do
  match config.templateDirectory? with
  | none => return .ok []
  | some directory =>
    if ← Program.exists? directory then
      match ← Program.list directory with
      | .error cause => return .error (.unreadable directory cause)
      | .ok names => templateTexts directory names
    else return .ok []

/-! ### Scaffolds -/

/-- What scaffolds are made from. -/
structure Scaffolds where
  /-- The configuration. -/
  config : Config
  /-- The user's templates by their names. -/
  userTemplates : List (String × Template)

namespace Scaffolds

/-- What scaffolds are made from with a configuration and the texts of the user's templates. -/
def ofTexts (config : Config) (texts : List (String × String)) :
    Except ScaffoldFault Scaffolds :=
  let read := (registered texts).mapM fun (name, text) => (Template.ofText? text).map (name, ·)
  read.elim (.error .unusable) fun templates => .ok ⟨config, templates⟩

/-- What scaffolds are made from with a configuration. -/
def load (config : Config) : Program (Except ScaffoldFault Scaffolds) := do
  match ← userTemplateTexts config with
  | .error fault => return .error fault
  | .ok texts => return ofTexts config texts

/-- The user's template of a name, or else the standard one. -/
def template (s : Scaffolds) (name : String) (standard : Template) : Template :=
  (s.userTemplates.lookup name).getD standard

/-- The scaffold from a template, when the region has a certain value. -/
def fill (s : Scaffolds) (t : Template) (region : Template.Value) :
    Except ScaffoldFault String :=
  match t.render? (s.config.values ++ [("region", region)]) with
  | some text => .ok text
  | none => .error .unusable

/-- The scaffold of an artifact. -/
def ofArtifact (s : Scaffolds) (a : Artifact) : Except ScaffoldFault String :=
  s.fill (s.template a.template (Template.standard a)) (s.config.region a).value

/-- The scaffold of the schema. -/
def ofSchema (s : Scaffolds) : Except ScaffoldFault String :=
  s.fill (s.template Template.schemaName Template.schemaFile) .null

end Scaffolds

end Packetry

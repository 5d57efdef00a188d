import Packetry.Disk
import Packetry.Packet
import Packetry.Yaml.Shape

/-!
# Schemas

A schema is a document whose root is a mapping. Under a certain key it lists the packets, one
record for each; what the other keys hold does not matter. A schema without packets is not
a schema. Whether its packets are valid is another question.
-/

namespace Packetry

open Yaml

/-- Why the text of a schema cannot be read. -/
inductive ReadingFault where
  /-- The text denotes no value. -/
  | fault (cause : Yaml.Fault)
  /-- A packet does not have the shape of one. -/
  | misfit (cause : Yaml.Misfit)

/-- The text of a reading fault. What exactly breaks the rules of the language is not told. -/
def ReadingFault.message : ReadingFault → String
  | fault .malformed => "malformed document"
  | fault .manyDocuments =>
    "deserializing from YAML containing more than one document is not supported"
  | fault .repetition => "repetition limit exceeded"
  | misfit cause => cause.message

/-- Why there is no schema at a path. -/
inductive SchemaFault where
  /-- The file cannot be read. -/
  | unreadable (p : Path) (cause : Disk.Error)
  /-- The text cannot be read. -/
  | unparsable (p : Path) (cause : ReadingFault)
  /-- The key is not there. -/
  | missingCollection (p : Path) (key : String)
  /-- There are no packets under the key. -/
  | emptyCollection (p : Path) (key : String)

/-- The text of a fault. -/
def SchemaFault.message : SchemaFault → String
  | unreadable p cause => s!"cannot read schema at {p.text}: {cause.message}"
  | unparsable p cause => s!"failed to parse schema at {p.text}: {cause.message}"
  | missingCollection p key => s!"schema at {p.text} has no top-level '{key}' collection"
  | emptyCollection p key => s!"schema at {p.text}: '{key}' collection is empty"

/-- The texts of a fault and of what it stems from. -/
def SchemaFault.causes (fault : SchemaFault) : List String :=
  fault.message ::
    match fault with
    | unreadable _ cause => [cause.message]
    | unparsable _ cause => [cause.message]
    | _ => []

namespace Schema

/-! ### Records -/

/-- The fields of a member's record that were read. -/
structure FieldDraft where
  /-- The type. -/
  type : Option String
  /-- The name. -/
  name : Option String

/-- Read a member of a packet. -/
def field (v : Value) : Except Misfit Field := do
  let draft ← v.asRecord "struct FieldDefinition" (⟨none, none⟩ : FieldDraft) fun d key v =>
    match key with
    | "Type" => do return { d with type := ← once key d.type (v.asText "a string") }
    | "Name" => do return { d with name := ← once key d.name (v.asText "a string") }
    | _ => .ok d
  return ⟨← needed "Type" draft.type, ← needed "Name" draft.name⟩

/-- The fields of a packet's record that were read. -/
structure PacketDraft where
  /-- The kind. -/
  kind : Option String
  /-- The name. -/
  name : Option String
  /-- The description. -/
  description : Option (Option String)
  /-- The members. -/
  fields : Option (Option (List Field))

/-- Read a packet. -/
def packet (v : Value) : Except Misfit Packet := do
  let start : PacketDraft := ⟨none, none, none, none⟩
  let draft ← v.asRecord "struct PacketDefinition" start fun d key v =>
    match key with
    | "Type" => do return { d with kind := ← once key d.kind (v.asText "a string") }
    | "PacketName" => do return { d with name := ← once key d.name (v.asText "a string") }
    | "Desc" => do
      let read := v.asOption (·.asText "a string")
      return { d with description := ← once key d.description read }
    | "Items" => do
      let read := v.asOption (·.asList field)
      return { d with fields := ← once key d.fields read }
    | _ => .ok d
  return {
    kind := .ofText (← needed "Type" draft.kind)
    name := ← needed "PacketName" draft.name
    description := draft.description.getD none
    fields := draft.fields.getD none }

/-! ### Reading -/

/-- The packets of a schema, by its text. The path tells where it comes from. -/
def parse (text : String) (key : String) (origin : Path) : Except SchemaFault (List Packet) :=
  match Value.ofText text with
  | .error cause => .error (.unparsable origin (.fault cause))
  | .ok (.mapping entries) =>
    match Value.get? entries key with
    | none => .error (.missingCollection origin key)
    | some collection =>
      match collection.asOption (·.asList packet) with
      | .error cause => .error (.unparsable origin (.misfit cause))
      | .ok (some (p :: rest)) => .ok (p :: rest)
      | .ok _ => .error (.emptyCollection origin key)
  | .ok _ => .error (.missingCollection origin key)

/-- The packets of the schema in a file. -/
def load (p : Path) (key : String) : Disk.Program (Except SchemaFault (List Packet)) := do
  match ← Disk.Program.readText p with
  | .error cause => return .error (.unreadable p cause)
  | .ok text => return parse text key p

end Schema

end Packetry

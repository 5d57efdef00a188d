import Packetry.Text.Quoted
import Packetry.Yaml.Value

/-!
# Shapes of values

What a program wants from a value is a text, a sequence or a record, that is, a mapping with
known fields. This module reads such shapes off values and says what does not fit. Tags are
ignored. Where a collection is wanted, null stands for an empty one.
-/

namespace Packetry.Yaml

/-- Why a value does not have a shape. -/
inductive Misfit where
  /-- The value is of another type than is expected. -/
  | wrongType (found : Value) (expected : String)
  /-- A record lacks a field. -/
  | missingField (name : String)
  /-- A record has a field twice. -/
  | duplicateField (name : String)

/-- The type of a value and, if it is short, the value. -/
def Value.describe : Value → String
  | null => "unit value"
  | truth b => s!"boolean `{b}`"
  | integer n => s!"integer `{n}`"
  | double d => s!"floating point `{d.text}`"
  | text s => s!"string {Text.quoted s}"
  | sequence _ => "sequence"
  | mapping _ => "map"
  | tagged _ _ => "enum"

/-- The text of a misfit. -/
def Misfit.message : Misfit → String
  | wrongType found expected => s!"invalid type: {found.describe}, expected {expected}"
  | missingField name => s!"missing field `{name}`"
  | duplicateField name => s!"duplicate field `{name}`"

/-- A value without its tags. -/
def Value.untagged : Value → Value
  | tagged _ v => v.untagged
  | v => v

/-- Read a text. -/
def Value.asText (v : Value) (expected : String) : Except Misfit String :=
  match v.untagged with
  | .text s => .ok s
  | other => .error (.wrongType other expected)

/-- Read something that may be null. -/
def Value.asOption {α : Type} (v : Value) (read : Value → Except Misfit α) :
    Except Misfit (Option α) :=
  match v with
  | .null => .ok none
  | _ => some <$> read v

/-- Read a sequence. -/
def Value.asList {α : Type} (v : Value) (read : Value → Except Misfit α) :
    Except Misfit (List α) :=
  match v.untagged with
  | .sequence items => items.mapM read
  | .null => .ok []
  | other => .error (.wrongType other "a sequence")

/-- Read a record, entry by entry. A step gets what was read before, the name of a field and
its value. -/
def Value.asRecord {σ : Type} (v : Value) (expected : String) (start : σ)
    (step : σ → String → Value → Except Misfit σ) : Except Misfit σ :=
  match v.untagged with
  | .mapping entries =>
    entries.foldlM (fun s e => do step s (← e.1.asText "field identifier") e.2) start
  | .null => .ok start
  | other => .error (.wrongType other expected)

/-- Read a field of a record that was not read before. -/
def once {α : Type} (name : String) (before : Option α) (read : Except Misfit α) :
    Except Misfit (Option α) :=
  if before.isSome then .error (.duplicateField name) else some <$> read

/-- A field of a record that must be there. -/
def needed {α : Type} (name : String) (field : Option α) : Except Misfit α :=
  field.elim (.error (.missingField name)) .ok

end Packetry.Yaml

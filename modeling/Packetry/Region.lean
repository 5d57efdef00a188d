import Packetry.Text.Blank
import Packetry.Text.Lines

/-!
# Regions

A *region* of a text lies between two lines that hold nothing but its two *sentinels*, a
begin and an end marker with the region's name; white space around a marker does not count.
Both markers have to be there once, in this order. `Packetry.Region.locate` finds the region
or says what is wrong with its sentinels; what it finds is a cut of the lines into three
runs: up to the begin sentinel, strictly between the sentinels, and from the end sentinel on.
-/

namespace Packetry

open Text

/-- A named region. -/
structure Region where
  /-- The name, as the two markers hold it. -/
  name : String
  deriving DecidableEq, Repr

namespace Region

/-- The text of the line that opens the region. -/
def beginMarker (r : Region) : String :=
  s!"#pragma region {r.name}"

/-- The text of the line that closes the region. -/
def endMarker (r : Region) : String :=
  s!"#pragma endregion {r.name}"

/-- What is wrong with the sentinels of a region. Lines count from one. -/
inductive Fault where
  /-- No line is the begin marker. -/
  | missingBegin (marker : String)
  /-- No line is the end marker. -/
  | missingEnd (marker : String)
  /-- The end marker comes first. -/
  | endBeforeBegin (region : String) (beginLine endLine : Nat)
  /-- A second line is the begin marker. -/
  | duplicateBegin (marker : String) (firstLine secondLine : Nat)
  /-- A second line is the end marker. -/
  | duplicateEnd (marker : String) (firstLine secondLine : Nat)
  deriving DecidableEq, Repr

/-- The text of a fault. -/
def Fault.message : Fault → String
  | missingBegin marker => s!"missing begin sentinel `{marker}`"
  | missingEnd marker => s!"missing end sentinel `{marker}`"
  | endBeforeBegin region beginLine endLine =>
    s!"end sentinel for region '{region}' (line {endLine}) precedes its begin sentinel " ++
      s!"(line {beginLine})"
  | duplicateBegin marker firstLine secondLine =>
    s!"begin sentinel `{marker}` appears more than once " ++
      s!"(lines {firstLine} and {secondLine})"
  | duplicateEnd marker firstLine secondLine =>
    s!"end sentinel `{marker}` appears more than once " ++
      s!"(lines {firstLine} and {secondLine})"

/-! ### The scan for sentinels -/

/-- The numbers of the sentinel lines that were met. -/
structure Sentinels where
  /-- The line of the begin marker. -/
  beginLine : Option Nat
  /-- The line of the end marker. -/
  endLine : Option Nat
  deriving DecidableEq, Repr

/-- Whether a line holds a marker and nothing else but white space. -/
def isMarkerLine (marker : String) (line : List Char) : Bool :=
  trim line == marker.toList

/-- The sentinels among lines that are counted from a number on, next to those met before. -/
def sentinelsFrom (r : Region) (met : Sentinels) (number : Nat) :
    List (List Char) → Except Fault Sentinels
  | [] => .ok met
  | line :: rest =>
    if isMarkerLine r.beginMarker line then
      match met.beginLine with
      | some first => .error (.duplicateBegin r.beginMarker first number)
      | none => r.sentinelsFrom { met with beginLine := some number } (number + 1) rest
    else if isMarkerLine r.endMarker line then
      match met.endLine with
      | some first => .error (.duplicateEnd r.endMarker first number)
      | none => r.sentinelsFrom { met with endLine := some number } (number + 1) rest
    else r.sentinelsFrom met (number + 1) rest

/-- The numbers of the two sentinel lines, the begin sentinel before the end sentinel. -/
def sentinels (r : Region) (text : List (List Char)) : Except Fault (Nat × Nat) := do
  let met ← r.sentinelsFrom ⟨none, none⟩ 1 text
  match met.beginLine, met.endLine with
  | none, _ => .error (.missingBegin r.beginMarker)
  | some _, none => .error (.missingEnd r.endMarker)
  | some first, some last =>
    if last < first then .error (.endBeforeBegin r.name first last) else .ok (first, last)

/-! ### Location -/

/-- A text cut at a region. -/
structure Location where
  /-- What comes before the interior; the begin sentinel is its last line. -/
  before : List Char
  /-- What lies strictly between the sentinels. -/
  interior : List Char
  /-- What comes after the interior; the end sentinel is its first line. -/
  after : List Char
  deriving DecidableEq, Repr

/-- The parts of a text before, in and after a region. -/
def locate (r : Region) (text : List Char) : Except Fault Location := do
  let all := lines text
  let (first, last) ← r.sentinels all
  return {
    before := (all.take first).flatten
    interior := ((all.take (last - 1)).drop first).flatten
    after := ((all.drop (last - 1))).flatten }

/-- The offset of the interior, in bytes. -/
def Location.start (l : Location) : Nat :=
  byteCount l.before

/-- The offset of the end of the interior, in bytes. -/
def Location.stop (l : Location) : Nat :=
  l.start + byteCount l.interior

/-- The text around a new interior. -/
def Location.around (l : Location) (interior : List Char) : List Char :=
  l.before ++ interior ++ l.after

end Region

end Packetry

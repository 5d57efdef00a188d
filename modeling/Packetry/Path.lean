import Packetry.Text.Lines

/-!
# Paths

A path is a text whose segments are separated by `/`. It begins with an *anchor*: `/` if it
is absolute, `.` if its first segment is the current directory, and nothing otherwise. The
segments after the anchor that are empty or `.` stand for nothing and are skipped, wherever
the components of a path are counted or compared; they stay in the text all the same, so
that a path is shown the way it was written.
-/

namespace Packetry

/-- A path, by its text. -/
structure Path where
  /-- The path as it is written and shown. -/
  text : String
  deriving DecidableEq, Repr

instance : Inhabited Path := ⟨⟨""⟩⟩

namespace Path

/-! ### Segments -/

/-- The parts of a text between its slashes; there is one more of them than there are
slashes. -/
def segmentsOf (text : List Char) : List (List Char) :=
  Text.fields '/' text

/-- Segments put together again. -/
def joinSegments (segments : List (List Char)) : List Char :=
  List.intercalate ['/'] segments

/-- Whether a segment after the anchor stands for nothing. -/
def isVoid (segment : List Char) : Bool :=
  segment == [] || segment == ['.']

/-- A path cut behind its anchor. -/
structure Parts where
  /-- The anchor. -/
  anchor : List Char
  /-- The segments behind the anchor. -/
  segments : List (List Char)

/-- The anchor and the segments of a text. -/
def partsOf : List Char → Parts
  | '/' :: rest => ⟨['/'], segmentsOf rest⟩
  | '.' :: '/' :: rest => ⟨['.'], segmentsOf ('/' :: rest)⟩
  | ['.'] => ⟨['.'], []⟩
  | text => ⟨[], segmentsOf text⟩

/-- The anchor and the segments of a path. -/
def parts (p : Path) : Parts :=
  partsOf p.text.toList

/-- Segments without the void ones at their end. -/
def trimVoids (segments : List (List Char)) : List (List Char) :=
  (segments.reverse.dropWhile isVoid).reverse

/-- The text of an anchor and segments behind it. -/
def ofParts (anchor : List Char) (segments : List (List Char)) : Path :=
  ⟨String.ofList (anchor ++ joinSegments segments)⟩

/-! ### Operations -/

/-- Whether the path starts at the root. -/
def isAbsolute (p : Path) : Bool :=
  p.text.toList.head? == some '/'

/-- The path `q` as seen from `p`. An absolute path is seen the same from everywhere, and
an empty one adds a slash. -/
def join (p q : Path) : Path :=
  if q.isAbsolute || p.text.isEmpty then q
  else if p.text.toList.getLast? == some '/' then ⟨p.text ++ q.text⟩
  else ⟨p.text ++ "/" ++ q.text⟩

/-- The path without its last component. The root and the empty path have no parent. -/
def parent? (p : Path) : Option Path :=
  let parts := p.parts
  match (trimVoids parts.segments).reverse with
  | _ :: before => some (ofParts parts.anchor (trimVoids before.reverse))
  | [] => if parts.anchor == ['.'] then some ⟨""⟩ else none

/-- The last component, if it is a name. -/
def fileName? (p : Path) : Option String :=
  match (trimVoids p.parts.segments).getLast? with
  | some name => if name == ['.', '.'] then none else some (String.ofList name)
  | none => none

/-- What follows the last dot of the file name, if something stands before that dot. -/
def extension? (p : Path) : Option String := do
  let name ← p.fileName?
  let reversed := name.toList.reverse
  let ending := reversed.takeWhile (· ≠ '.')
  match reversed.drop ending.length with
  | '.' :: _ :: _ => some (String.ofList ending.reverse)
  | _ => none

/-- What is left of segments behind those of a base, void segments not counted. -/
def stripSegments? : List (List Char) → List (List Char) → Option (List (List Char))
  | segments, [] => some segments
  | segments, b :: base =>
    if isVoid b then stripSegments? segments base
    else
      match segments.dropWhile isVoid with
      | s :: rest => if s = b then stripSegments? rest base else none
      | [] => none

/-- The path as seen from a base, if it lies below it or is the base itself. -/
def strip? (p base : Path) : Option Path :=
  let mine := p.parts
  let its := base.parts
  let its' := its.segments.filter (!isVoid ·)
  if its.anchor = [] ∧ its' = [] then
    some (ofParts mine.anchor (trimVoids mine.segments))
  else if mine.anchor = its.anchor then
    (stripSegments? mine.segments its').map fun rest =>
      ofParts [] (trimVoids (rest.dropWhile isVoid))
  else none

/-- The path with an ending put at the end of its text. -/
def withEnding (p : Path) (ending : String) : Path :=
  ⟨p.text ++ ending⟩

end Path

end Packetry

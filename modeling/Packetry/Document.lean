import Packetry.Handler
import Packetry.Region

/-!
# Documents

A *document* is the text of a file that is partly generated. Only the interiors of its
regions are ever written; all else belongs to whoever edits the file. Inside, lines end with
a line feed; a document remembers whether it was read with pairs of carriage return and line
feed, and is written back with pairs then.

A region is maintained in one of two ways: `Packetry.Document.replace` puts a new text for
the interior, and `Packetry.Document.merge` adds to the interior what it lacks.
-/

namespace Packetry

open Text

/-- One addition to a region that is maintained by merging. -/
structure Entry where
  /-- The name under which the addition is looked for in the region. -/
  key : String
  /-- The text to be added. -/
  text : String
  deriving DecidableEq, Repr

/-- What is generated for a region. -/
inductive Content where
  /-- The whole interior. -/
  | replace (text : String)
  /-- Entries, of which those are added that the interior lacks. -/
  | additive (entries : List Entry)
  deriving DecidableEq, Repr

/-- A file that is partly generated. -/
structure Document where
  /-- The text, with lines that end with a line feed. -/
  text : List Char
  /-- Whether a carriage return belongs before each line feed. -/
  pairs : Bool
  deriving DecidableEq, Repr

namespace Document

/-- The document of a file. -/
def parse (file : String) : Document :=
  ⟨toLineFeeds file.toList, hasPair file.toList⟩

/-- The file of a document. -/
def render (d : Document) : String :=
  String.ofList (if d.pairs then toPairs d.text else d.text)

/-- Where a region is. -/
def locate (d : Document) (r : Region) : Except Region.Fault Region.Location :=
  r.locate d.text

/-- The interior of a region. -/
def interior (d : Document) (r : Region) : Except Region.Fault (List Char) := do
  return (← d.locate r).interior

/-- The document with a new interior of a region. -/
def replace (d : Document) (r : Region) (text : List Char) : Except Region.Fault Document := do
  return { d with text := (← d.locate r).around text }

/-- The first entry of every key that is not present. -/
def missing (present : List String) : List Entry → List Entry
  | [] => []
  | entry :: rest =>
    if entry.key ∈ present then missing present rest
    else entry :: missing (entry.key :: present) rest

/-- The text of entries. -/
def textOf (entries : List Entry) : List Char :=
  (entries.map (·.text.toList)).flatten

/-- The document with the entries that a region lacks put before the end sentinel, and
these entries. -/
def merge (d : Document) (r : Region) (entries : List Entry) (form : HandlerForm) :
    Except Region.Fault (Document × List Entry) := do
  let l ← d.locate r
  let added := missing (form.names l.interior) entries
  return ({ d with text := l.around (l.interior ++ textOf added) }, added)

end Document

end Packetry

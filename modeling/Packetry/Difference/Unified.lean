import Packetry.Difference.Script
import Packetry.Difference.Settled

/-!
# Unified differences

The difference of two texts in the unified format. Lines that were deleted and lines that were
inserted at one place are a *change*; changes are shown with up to three lines of what is kept
around them, and changes whose surroundings touch are shown together, in one *hunk*. A hunk is
headed by its ranges in the old and in the new text, and each of its lines by what became of
the line.
-/

namespace Packetry

/-! ### Lines -/

/-- The lines of a text, each with its end: a line feed, a carriage return, or one behind the
other. The last line may lack an end. -/
def endedLines : List Char → List Line
  | [] => []
  | '\r' :: '\n' :: rest => ['\r', '\n'] :: endedLines rest
  | c :: rest =>
    if c = '\n' ∨ c = '\r' then [c] :: endedLines rest
    else
      match endedLines rest with
      | [] => [[c]]
      | line :: more => (c :: line) :: more

/-- Whether a line has an end. -/
def isEnded (line : Line) : Bool :=
  line.getLast?.any fun c => c == '\n' || c == '\r'

/-! ### Segments -/

/-- A part of a script: lines that are kept, or a change. -/
inductive Segment where
  /-- Lines that are kept: where they begin, and how many there are. -/
  | kept (old new count : Nat)
  /-- A change: where and how many lines were deleted and inserted. -/
  | change (old deleted new inserted : Nat)
  deriving DecidableEq, Repr

namespace Segment

/-- An edit as a segment. -/
def ofEdit (e : Edit) : Segment :=
  match e.kind with
  | .keep => .kept e.old e.new e.count
  | .delete => .change e.old e.count e.new 0
  | .insert => .change e.old 0 e.new e.count

/-- A segment with one more edit, if they belong together. -/
def add? (s : Segment) (e : Edit) : Option Segment :=
  match s, e.kind with
  | kept old new count, .keep => some (kept old new (count + e.count))
  | change old deleted new inserted, .delete =>
    some (change (if deleted = 0 then e.old else old) (deleted + e.count) new inserted)
  | change old deleted new inserted, .insert =>
    some (change old deleted (if inserted = 0 then e.new else new) (inserted + e.count))
  | _, _ => none

/-- The segments of edits that come after a segment. -/
def follow (s : Segment) : List Edit → List Segment
  | [] => [s]
  | e :: rest =>
    match s.add? e with
    | some s' => s'.follow rest
    | none => s :: (ofEdit e).follow rest

/-- The segments of a script. -/
def ofScript : List Edit → List Segment
  | [] => []
  | e :: rest => (ofEdit e).follow rest

/-- Where the segment begins in the old text. -/
def oldStart : Segment → Nat
  | kept old _ _ => old
  | change old _ _ _ => old

/-- Where the segment ends in the old text. -/
def oldStop : Segment → Nat
  | kept old _ count => old + count
  | change old deleted _ _ => old + deleted

/-- Where the segment begins in the new text. -/
def newStart : Segment → Nat
  | kept _ new _ => new
  | change _ _ new _ => new

/-- Where the segment ends in the new text. -/
def newStop : Segment → Nat
  | kept _ new count => new + count
  | change _ _ new inserted => new + inserted

end Segment

/-! ### Hunks -/

/-- How many kept lines are shown around a change. -/
def context : Nat := 3

/-- The last lines of a kept segment that are shown before a change. -/
def leadIn : Segment → Segment
  | .kept old new count =>
    let hidden := count - context
    .kept (old + hidden) (new + hidden) (count - hidden)
  | s => s

/-- The first lines of a kept segment that are shown after a change. -/
def leadOut : Segment → Segment
  | .kept old new count => .kept old new (min count context)
  | s => s

/-- The first and the last segment of a script, cut to what is shown of them. -/
def cutEnds (segments : List Segment) : List Segment :=
  let cutFirst := match segments with
    | s :: rest => leadIn s :: rest
    | [] => []
  match cutFirst.reverse with
  | s :: rest => (leadOut s :: rest).reverse
  | [] => []

/-- Whether segments have a change. -/
def isHunk : List Segment → Bool
  | [] => false
  | [.kept _ _ _] => false
  | _ => true

/-- The hunks of segments that come after some others, the last one first, in one hunk. -/
def hunksFrom (pending : List Segment) : List Segment → List (List Segment)
  | [] => if isHunk pending then [pending.reverse] else []
  | .kept old new count :: rest =>
    if 2 * context < count then
      (leadOut (.kept old new count) :: pending).reverse ::
        hunksFrom [leadIn (.kept old new count)] rest
    else hunksFrom (.kept old new count :: pending) rest
  | s :: rest => hunksFrom (s :: pending) rest

/-- The hunks of a script. -/
def hunks (script : List Edit) : List (List Segment) :=
  hunksFrom [] (cutEnds (Segment.ofScript script))

/-! ### The text -/

/-- A range of lines, counted from one. A range of one line is that line; one without lines is
the line before it. -/
def rangeText (start stop : Nat) : String :=
  let count := stop - start
  if count = 1 then toString (start + 1)
  else if count = 0 then s!"{start},0"
  else s!"{start + 1},{count}"

/-- The header of a hunk. -/
def hunkHeader (hunk : List Segment) : String :=
  match hunk.head?, hunk.getLast? with
  | some first, some last =>
    s!"@@ -{rangeText first.oldStart last.oldStop} +{rangeText first.newStart last.newStop} @@\n"
  | _, _ => ""

/-- A line behind the sign of what became of it. A line without an end is followed by a note. -/
def signedLine (sign : Char) (line : Line) : String :=
  String.ofList (sign :: line) ++
    if isEnded line then "" else "\n\\ No newline at end of file\n"

/-- Some lines of a text behind a sign. -/
def signedLines (sign : Char) (lines : Array Line) (start count : Nat) : String :=
  String.join ((lines.extract start (start + count)).toList.map (signedLine sign))

/-- The lines of a segment. -/
def segmentText (p : Pair) : Segment → String
  | .kept old _ count => signedLines ' ' p.old old count
  | .change old deleted new inserted =>
    signedLines '-' p.old old deleted ++ signedLines '+' p.new new inserted

/-- The text of a hunk. -/
def hunkText (p : Pair) (hunk : List Segment) : String :=
  hunkHeader hunk ++ String.join (hunk.map (segmentText p))

/-- The unified difference of two texts, each under its name. -/
def unifiedDifference (oldName newName oldText newText : String) : String :=
  let p : Pair := ⟨(endedLines oldText.toList).toArray, (endedLines newText.toList).toArray⟩
  match hunks (settle p p.script) with
  | [] => ""
  | all => s!"--- {oldName}\n+++ {newName}\n" ++ String.join (all.map (hunkText p))

end Packetry

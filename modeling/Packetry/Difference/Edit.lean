/-!
# Edits

How one list of lines becomes another: a script of *edits*, each of which keeps, deletes or
inserts a run of lines. An edit tells where its run begins in the old list and in the new one;
where it deletes or inserts, one of the two is where the run would be.
-/

namespace Packetry

/-- What an edit does with its lines. -/
inductive EditKind where
  /-- The lines are in both lists. -/
  | keep
  /-- The lines are in the old list only. -/
  | delete
  /-- The lines are in the new list only. -/
  | insert
  deriving DecidableEq, Repr

/-- One edit. -/
structure Edit where
  /-- What is done. -/
  kind : EditKind
  /-- Where the lines begin in the old list. -/
  old : Nat
  /-- Where the lines begin in the new list. -/
  new : Nat
  /-- How many lines there are. -/
  count : Nat
  deriving DecidableEq, Repr

namespace Edit

/-- How many of the lines are in the old list. -/
def oldCount (e : Edit) : Nat :=
  if e.kind = .insert then 0 else e.count

/-- How many of the lines are in the new list. -/
def newCount (e : Edit) : Nat :=
  if e.kind = .delete then 0 else e.count

/-- The edit with some lines more before its first one. -/
def growFront (e : Edit) (n : Nat) : Edit :=
  { e with old := e.old - n, new := e.new - n, count := e.count + n }

/-- The edit with some lines more behind its last one. -/
def growBack (e : Edit) (n : Nat) : Edit :=
  { e with count := e.count + n }

/-- The edit without its first lines. -/
def shrinkFront (e : Edit) (n : Nat) : Edit :=
  { e with old := e.old + n, new := e.new + n, count := e.count - n }

/-- The edit without its last lines. -/
def shrinkBack (e : Edit) (n : Nat) : Edit :=
  { e with count := e.count - n }

/-- The edit some lines before its place. -/
def moveFront (e : Edit) (n : Nat) : Edit :=
  { e with old := e.old - n, new := e.new - n }

/-- The edit some lines behind its place. -/
def moveBack (e : Edit) (n : Nat) : Edit :=
  { e with old := e.old + n, new := e.new + n }

end Edit

/-! ### Two lists of lines -/

/-- A line, as the text that it is. -/
abbrev Line := List Char

/-- Two lists of lines that are compared. -/
structure Pair where
  /-- The old lines. -/
  old : Array Line
  /-- The new lines. -/
  new : Array Line

namespace Pair

/-- Whether two lines are there and are the same. -/
def same (p : Pair) (i j : Nat) : Bool :=
  match p.old[i]?, p.new[j]? with
  | some a, some b => a == b
  | _, _ => false

/-- How many lines are the same from two places on, up to a number. -/
def sameFrom (p : Pair) (i j : Nat) : Nat → Nat
  | 0 => 0
  | n + 1 => if p.same i j then p.sameFrom (i + 1) (j + 1) n + 1 else 0

/-- How many lines are the same right before two places, up to a number. -/
def sameBefore (p : Pair) (i j : Nat) : Nat → Nat
  | 0 => 0
  | n + 1 => if p.same (i - 1) (j - 1) then p.sameBefore (i - 1) (j - 1) n + 1 else 0

end Pair

end Packetry

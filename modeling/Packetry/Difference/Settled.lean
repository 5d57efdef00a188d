import Packetry.Difference.Edit

/-!
# Settled scripts

A script can often be written in several ways, since the run of an insertion may be moved
along lines that are kept if they are the same as its own. A script is *settled* by moving
every deletion, and then every insertion, first as far to the front as it goes and then as far
to the back; edits of one kind that meet on the way become one.
-/

namespace Packetry

/-- A place in a script. -/
structure EditCursor where
  /-- The edits before the place, the last one first. -/
  before : List Edit
  /-- The edit at the place. -/
  here : Edit
  /-- The edits behind the place. -/
  after : List Edit

namespace EditCursor

/-- How many lines the end of a kept run before an insertion shares with the insertion. -/
def sharedBefore (p : Pair) (kept here : Edit) : Nat :=
  if here.kind = .insert then
    p.sameBefore (kept.old + kept.oldCount) (here.new + here.newCount)
      (min kept.oldCount here.newCount)
  else 0

/-- How many lines the start of a kept run behind an insertion shares with the insertion. -/
def sharedAfter (p : Pair) (kept here : Edit) : Nat :=
  if here.kind = .insert then
    p.sameFrom kept.old here.new (min kept.oldCount here.newCount)
  else 0

/-- The edits without the first one, if nothing is left of that. -/
def dropVoid : List Edit → List Edit
  | e :: rest => if e.count = 0 then rest else e :: rest
  | [] => []

/-- One step to the front, if there is one. -/
def stepFront (p : Pair) (c : EditCursor) : Option EditCursor :=
  match c.before with
  | [] => none
  | e :: before =>
    if e.kind = .keep then
      let n := sharedBefore p e c.here
      if 0 < n then
        let after := match c.after with
          | k :: rest =>
            if k.kind = .keep then k.growFront n :: rest
            else ⟨.keep, e.old + e.count - n, c.here.new + c.here.newCount - n, n⟩ :: c.after
          | [] => [⟨.keep, e.old + e.count - n, c.here.new + c.here.newCount - n, n⟩]
        some ⟨dropVoid (e.shrinkBack n :: before), c.here.moveFront n, after⟩
      else if e.count = 0 then some ⟨before, c.here, c.after⟩
      else none
    else if e.kind = c.here.kind then some ⟨before, e.growBack c.here.count, c.after⟩
    else some ⟨before, c.here, e :: c.after⟩

/-- One step to the back, if there is one. -/
def stepBack (p : Pair) (c : EditCursor) : Option EditCursor :=
  match c.after with
  | [] => none
  | e :: after =>
    if e.kind = .keep then
      let n := sharedAfter p e c.here
      if 0 < n then
        let before := match c.before with
          | k :: rest =>
            if k.kind = .keep then k.growBack n :: rest
            else ⟨.keep, e.old, c.here.new, n⟩ :: c.before
          | [] => [⟨.keep, e.old, c.here.new, n⟩]
        some ⟨before, c.here.moveBack n, dropVoid (e.shrinkFront n :: after)⟩
      else if e.count = 0 then some ⟨c.before, c.here, after⟩
      else none
    else if e.kind = c.here.kind then some ⟨c.before, c.here.growBack e.count, after⟩
    else some ⟨e :: c.before, c.here, after⟩

/-- As many steps as there are, up to a number. -/
def steps (step : EditCursor → Option EditCursor) : Nat → EditCursor → EditCursor
  | 0, c => c
  | bound + 1, c =>
    match step c with
    | some c' => steps step bound c'
    | none => c

end EditCursor

/-- How many lines and edits there are. -/
def extent : List Edit → Nat
  | [] => 0
  | e :: rest => e.count + 1 + extent rest

/-- The script of edits before a place, the last one first, and of edits behind it, after the
edits of a kind behind the place were settled. Every step takes a line or an edit away from
those on one side of the place, which bounds the number of steps. -/
def settleFrom (p : Pair) (kind : EditKind) : Nat → List Edit → List Edit → List Edit
  | 0, before, after => before.reverse ++ after
  | _, before, [] => before.reverse
  | bound + 1, before, e :: after =>
    if e.kind = kind then
      let c : EditCursor := ⟨before, e, after⟩
      let c := EditCursor.steps (EditCursor.stepFront p) (extent before) c
      let c := EditCursor.steps (EditCursor.stepBack p) (extent c.after) c
      settleFrom p kind bound (c.here :: c.before) c.after
    else settleFrom p kind bound (e :: before) after

/-- The script with its edits settled. -/
def settle (p : Pair) (script : List Edit) : List Edit :=
  let size := p.old.size + p.new.size + 2
  let bound := size * size
  let deleted := settleFrom p .delete bound [] script
  settleFrom p .insert bound [] deleted

end Packetry

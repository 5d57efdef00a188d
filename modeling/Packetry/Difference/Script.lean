import Packetry.Difference.Edit

/-!
# A shortest script

A script of edits between two lists of lines, found by the greedy search from both ends.

Think of a grid with the old lines along one axis and the new lines along the other. A script
is a path from one corner to the opposite one; it goes along a diagonal where lines are kept,
and one step sideways for every line that is deleted or inserted. The search counts the
sideways steps: for every diagonal it knows the furthest point that can be reached with so many
of them, from the one corner and from the other. Where the two searches meet there is a point
of a shortest path, and the two parts of the grid that it cuts off are searched in turn.
-/

namespace Packetry

/-! ### Frontiers -/

/-- The furthest points that a search has reached: for every diagonal the distance along the
old lines. Diagonals are counted from the one that the search starts on. -/
structure Frontier where
  /-- The number of the diagonals on either side. -/
  reach : Nat
  /-- The distances. -/
  distances : Array Nat

namespace Frontier

/-- Nothing is reached, on so many diagonals on either side. -/
def start (reach : Nat) : Frontier :=
  ⟨reach, Array.replicate (2 * reach + 1) 0⟩

/-- The distance that is reached on a diagonal. -/
def get (f : Frontier) (k : Int) : Nat :=
  f.distances.getD (k + f.reach).toNat 0

/-- The frontier with a new distance on a diagonal. -/
def set (f : Frontier) (k : Int) (x : Nat) : Frontier :=
  { f with distances := f.distances.setIfInBounds (k + f.reach).toNat x }

/-- Where the sideways step with number `d` leads to on a diagonal: the further one of what is
reached from the two diagonals beside it. -/
def step (f : Frontier) (d k : Int) : Nat :=
  if k = -d ∨ (k ≠ d ∧ f.get (k - 1) < f.get (k + 1)) then f.get (k + 1)
  else f.get (k - 1) + 1

end Frontier

/-! ### The search -/

/-- A rectangle of the grid. -/
structure Box where
  /-- The first old line. -/
  old : Nat
  /-- The number of the old lines. -/
  oldCount : Nat
  /-- The first new line. -/
  new : Nat
  /-- The number of the new lines. -/
  newCount : Nat

/-- By how much the diagonal of the one corner is off that of the other. -/
def Box.skew (b : Box) : Int :=
  (b.oldCount : Int) - b.newCount

/-- The diagonals that can be on a path with `d` sideways steps, the last one first. -/
def diagonals (d : Nat) : List Int :=
  (List.range (d + 1)).map fun (i : Nat) => (d : Int) - 2 * (i : Int)

/-- One round of the search from the near corner: all diagonals of a list, up to the first on
which the far search is met. `far` is given if it can be met in this round. The answer has the
point where the run of kept lines begins on which it was met. -/
def nearRound (p : Pair) (b : Box) (d : Int) (far : Option Frontier) :
    Frontier → List Int → Frontier × Option (Nat × Nat)
  | near, [] => (near, none)
  | near, k :: rest =>
    let x := near.step d k
    let y := ((x : Int) - k).toNat
    let run := p.sameFrom (b.old + x) (b.new + y) (min (b.oldCount - x) (b.newCount - y))
    let near := near.set k (x + run)
    let met := far.any fun f =>
      (k - b.skew).natAbs < d && b.oldCount ≤ x + run + f.get (b.skew - k)
    if met then (near, some (x, y)) else nearRound p b d far near rest

/-- One round of the search from the far corner, in the same way. The answer has the point
where the run of kept lines begins on which the near search was met. -/
def farRound (p : Pair) (b : Box) (d : Int) (near : Option Frontier) :
    Frontier → List Int → Frontier × Option (Nat × Nat)
  | far, [] => (far, none)
  | far, k :: rest =>
    let x := far.step d k
    let y := ((x : Int) - k).toNat
    let run := p.sameBefore (b.old + b.oldCount - x) (b.new + b.newCount - y)
      (min (b.oldCount - x) (b.newCount - y))
    let far := far.set k (x + run)
    let met := near.any fun f =>
      (k - b.skew).natAbs ≤ d && b.oldCount ≤ x + run + f.get (b.skew - k)
    if met then (far, some (b.oldCount - (x + run), b.newCount - (y + run)))
    else farRound p b d near far rest

/-- The rounds of both searches from a number of sideways steps on, up to a number of rounds.
Where the two corners are an odd number of diagonals apart, the searches meet in a round from
the near corner, and otherwise in one from the far corner. -/
def rounds (p : Pair) (b : Box) : Nat → Nat → Frontier → Frontier → Option (Nat × Nat)
  | 0, _, _, _ => none
  | bound + 1, d, near, far =>
    let isOdd := b.skew % 2 != 0
    match nearRound p b d (if isOdd then some far else none) near (diagonals d) with
    | (_, some point) => some point
    | (near, none) =>
      match farRound p b d (if isOdd then none else some near) far (diagonals d) with
      | (_, some point) => some point
      | (far, none) => rounds p b bound (d + 1) near far

/-- A point of a shortest path through a box. -/
def middle? (p : Pair) (b : Box) : Option (Nat × Nat) :=
  let bound := (b.oldCount + b.newCount + 1) / 2 + 1
  rounds p b bound 0 (.start (bound + 1)) (.start (bound + 1))

/-! ### The script -/

/-- The edits of a kind, none if there are no lines for them. -/
def editsOf (kind : EditKind) (old new count : Nat) : List Edit :=
  if count = 0 then [] else [⟨kind, old, new, count⟩]

/-- A script for a box, lines that are the same at its two ends being kept. The number bounds
how often a box is cut. -/
def scriptOf (p : Pair) : Nat → Box → List Edit
  | 0, b =>
    editsOf .delete b.old b.new b.oldCount ++
      editsOf .insert (b.old + b.oldCount) b.new b.newCount
  | bound + 1, b =>
    let first := p.sameFrom b.old b.new (min b.oldCount b.newCount)
    let b' : Box :=
      ⟨b.old + first, b.oldCount - first, b.new + first, b.newCount - first⟩
    let last := p.sameBefore (b'.old + b'.oldCount) (b'.new + b'.newCount)
      (min b'.oldCount b'.newCount)
    let c : Box := { b' with oldCount := b'.oldCount - last, newCount := b'.newCount - last }
    let inner :=
      if c.oldCount = 0 ∨ c.newCount = 0 then
        editsOf .delete c.old c.new c.oldCount ++ editsOf .insert c.old c.new c.newCount
      else
        match middle? p c with
        | some (x, y) =>
          scriptOf p bound ⟨c.old, x, c.new, y⟩ ++
            scriptOf p bound ⟨c.old + x, c.oldCount - x, c.new + y, c.newCount - y⟩
        | none =>
          editsOf .delete c.old c.new c.oldCount ++
            editsOf .insert c.old c.new c.newCount
    editsOf .keep b.old b.new first ++ inner ++
      editsOf .keep (c.old + c.oldCount) (c.new + c.newCount) last

/-- A script that makes the new lines out of the old ones. -/
def Pair.script (p : Pair) : List Edit :=
  scriptOf p (p.old.size + p.new.size + 1) ⟨0, p.old.size, 0, p.new.size⟩

end Packetry

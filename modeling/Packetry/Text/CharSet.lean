/-!
# Sets of characters given by runs

A class of characters of the Unicode Standard is a set of code points, and the sets
used here are unions of few *runs*: arithmetic progressions of step `1` or `2`, the
latter because the capital and the small letters of many alphabets alternate. A set is
the list of its runs, and a character is in the set if it is in one of them.
-/

namespace Packetry.Text

/-- An arithmetic progression of code points. -/
structure Run where
  /-- The least code point of the run. -/
  first : Nat
  /-- The greatest code point of the run. -/
  last : Nat
  /-- The distance of two neighbours in the run. -/
  step : Nat
  deriving Repr, DecidableEq

/-- Whether a code point belongs to the run. -/
def Run.contains (r : Run) (n : Nat) : Bool :=
  decide (r.first ≤ n) && decide (n ≤ r.last) && (n - r.first) % r.step == 0

/-- Whether a character belongs to one of the runs. -/
def inRuns (runs : List Run) (c : Char) : Bool :=
  runs.any (·.contains c.toNat)

/-- A set of intervals, read as runs of step `1`. -/
def intervals (bounds : List (Nat × Nat)) : List Run :=
  bounds.map fun b => ⟨b.1, b.2, 1⟩

/-- A set of progressions: least code point, greatest code point and step. -/
def progressions (bounds : List (Nat × Nat × Nat)) : List Run :=
  bounds.map fun b => ⟨b.1, b.2.1, b.2.2⟩

end Packetry.Text

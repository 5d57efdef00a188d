import Packetry.Double
import Packetry.Text.LowerCase

/-!
# Templates

A template is a text with holes. A hole prints the value of an expression, names such a value
for what follows, or chooses between two templates by a condition. An expression may fail,
above all where nothing of a name is known; a template of which some part that is rendered
fails has no rendering at all.

`Packetry.Template.render` says what a template is for a scope of named values. How a template
is written is the matter of `Packetry.Template.Reader`.
-/

namespace Packetry.Template

/-! ### Values -/

/-- A value. -/
inductive Value where
  /-- No value. -/
  | null
  /-- A truth value. -/
  | truth (b : Bool)
  /-- A whole number. -/
  | number (n : Int)
  /-- A text. -/
  | text (s : String)
  /-- A record of texts. -/
  | record (fields : List (String × String))
  deriving DecidableEq, Repr

/-- The text that a value is printed as. -/
def Value.print : Value → String
  | null => ""
  | truth b => if b then "true" else "false"
  | number n => toString n
  | text s => s
  | record _ => "[object]"

/-- Whether a value counts as true. -/
def Value.counts : Value → Bool
  | null => false
  | truth b => b
  | number n => n != 0
  | text s => s != ""
  | record fields => !fields.isEmpty

/-- The text of a value that can be part of a longer text. -/
def Value.part? : Value → Option String
  | number n => some (toString n)
  | text s => some s
  | _ => none

/-- Two numbers are compared with double precision, and a number equals nothing else. -/
def Value.equals : Value → Value → Bool
  | number m, number n =>
    (Double.ofDecimal (m < 0) m.natAbs 0).same (Double.ofDecimal (n < 0) n.natAbs 0)
  | v, w => v == w

/-- Whether a number fits into 64 bits with a sign. -/
def isShort (n : Int) : Bool :=
  decide (-0x8000000000000000 ≤ n) && decide (n < 0x8000000000000000)

/-- The sum of two numbers, if it fits into 64 bits with a sign. -/
def sum? : Value → Value → Option Value
  | .number m, .number n => if isShort (m + n) then some (.number (m + n)) else none
  | _, _ => none

/-- The value behind the other names of a path. -/
def Value.member? : Value → List String → Option Value
  | v, [] => some v
  | record fields, [name] => (fields.lookup name).map .text
  | _, _ => none

/-- The values that names stand for. -/
structure Scope where
  /-- The values that were given. -/
  given : List (String × Value)
  /-- The values that the template itself has named, the last one first. They hide those that
  were given. -/
  named : List (String × Value)
  deriving DecidableEq, Repr

/-- The value of a path among named values. -/
def find? (values : List (String × Value)) : List String → Option Value
  | [] => none
  | name :: path => do (← values.lookup name).member? path

/-- The value of a path. -/
def Scope.find? (scope : Scope) (path : List String) : Option Value :=
  Template.find? scope.named path <|> Template.find? scope.given path

/-! ### Expressions -/

/-- A function from values to values. -/
inductive Filter where
  /-- The text in upper case. -/
  | upper
  /-- The text in lower case. -/
  | lower
  /-- The value itself, which must not be null. -/
  | present
  /-- A function that nobody knows. -/
  | unknown
  deriving DecidableEq, Repr

/-- The value of a function. -/
def Filter.apply : Filter → Value → Option Value
  | upper, .text s => some (.text (String.ofList (Text.upperCase s.toList)))
  | lower, .text s => some (.text (String.ofList (Text.lowerCase s.toList)))
  | present, .null => none
  | present, v => some v
  | _, _ => none

/-- An expression. -/
inductive Expression where
  /-- A text. -/
  | text (s : String)
  /-- A whole number. -/
  | number (n : Int)
  /-- A truth value. -/
  | truth (b : Bool)
  /-- The value of a path. -/
  | lookup (path : List String)
  /-- Two parts of a text. -/
  | joined (left right : Expression)
  /-- A sum. -/
  | sum (left right : Expression)
  /-- A comparison. -/
  | equal (left right : Expression)
  /-- A function applied to a value. -/
  | filtered (e : Expression) (f : Filter)
  /-- The value of the first expression; if that is a path without a value, then that of the
  second. -/
  | orElse (e default : Expression)
  deriving DecidableEq, Repr

/-- The value of an expression. -/
def Expression.eval? (scope : Scope) : Expression → Option Value
  | text s => some (.text s)
  | number n => some (.number n)
  | truth b => some (.truth b)
  | lookup path => scope.find? path
  | joined l r => do
    return .text ((← (← l.eval? scope).part?) ++ (← (← r.eval? scope).part?))
  | sum l r => do sum? (← l.eval? scope) (← r.eval? scope)
  | equal l r => do return .truth ((← l.eval? scope).equals (← r.eval? scope))
  | filtered e f => do f.apply (← e.eval? scope)
  | orElse (lookup path) d =>
    match scope.find? path with
    | none => d.eval? scope
    | some .null => d.eval? scope
    | some v => some v
  | orElse e _ => e.eval? scope

/-- What the functions of an expression are applied to. -/
def Expression.core : Expression → Expression
  | filtered e _ => e.core
  | orElse e _ => e.core
  | e => e

/-- Whether an expression holds as a condition. A path without a value does not hold, and
functions do not matter to a text or a number. -/
def Expression.holds? (scope : Scope) (e : Expression) : Option Bool :=
  match e.core with
  | lookup _ => some ((e.eval? scope).any Value.counts)
  | joined _ _ => (e.eval? scope).map Value.counts
  | c => (c.eval? scope).map Value.counts

/-! ### Templates -/

/-- A piece of a template. -/
inductive Block where
  /-- A text. -/
  | text (s : String)
  /-- A value to be printed. -/
  | print (e : Expression)
  /-- A value to be named. -/
  | name (name : String) (e : Expression)
  /-- A choice between two templates. -/
  | choice (condition : Expression) (yes no : List Block)

mutual

/-- What a piece is for a scope, and the scope behind it. -/
def Block.render? (scope : Scope) : Block → Option (String × Scope)
  | .text s => some (s, scope)
  | .print e => do return ((← e.eval? scope).print, scope)
  | .name name e => do
    return ("", { scope with named := (name, ← e.eval? scope) :: scope.named })
  | .choice condition yes no => do
    if ← condition.holds? scope then renderFrom? scope yes else renderFrom? scope no

/-- What a template is for a scope, and the scope behind it. -/
def renderFrom? (scope : Scope) : List Block → Option (String × Scope)
  | [] => some ("", scope)
  | b :: rest => do
    let (s, scope) ← b.render? scope
    let (t, scope) ← renderFrom? scope rest
    return (s ++ t, scope)

end

end Template

/-- A template. -/
abbrev Template := List Template.Block

/-- What a template is for given values. -/
def Template.render? (t : Template) (values : List (String × Template.Value)) : Option String :=
  (renderFrom? ⟨values, []⟩ t).map (·.1)

end Packetry

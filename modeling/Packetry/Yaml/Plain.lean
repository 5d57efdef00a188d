import Packetry.Double

/-!
# What plain scalars mean

A plain scalar is null, a truth value, an integer, a number of double precision or else a
text, and `Packetry.Yaml.meaningOf` tries these in this order. Integers are written with
decimal, hexadecimal, octal or binary digits. A number that only has decimal digits and
starts with a needless zero is a text.
-/

namespace Packetry.Yaml

/-! ### Digits -/

/-- What follows the start of a text, if it is a given one. -/
def without? (start : String) (s : List Char) : Option (List Char) :=
  if start.toList.isPrefixOf s then some (s.drop start.length) else none

/-- Whether the text starts with a sign. -/
def startsWithSign (s : List Char) : Bool :=
  s.head?.any fun c => c == '+' || c == '-'

/-- The value of a digit. -/
def digitValue (c : Char) : Nat :=
  if c.isDigit then c.toNat - '0'.toNat
  else if c.isLower then c.toNat - 'a'.toNat + 10
  else if c.isUpper then c.toNat - 'A'.toNat + 10
  else 36

/-- The number that digits write in a base. -/
def natural? (base : Nat) (digits : List Char) : Option Nat :=
  if digits.isEmpty || digits.any (base ≤ digitValue ·) then none
  else some (digits.foldl (fun n d => base * n + digitValue d) 0)

/-- The bases other than ten, with what a number in them starts with. -/
def bases : List (String × Nat) :=
  [("0x", 16), ("0o", 8), ("0b", 2)]

/-- Whether a text has decimal digits only, a sign apart, more than one of them, and starts
with a zero. -/
def hasNeedlessZero (s : List Char) : Bool :=
  match if startsWithSign s then s.tail else s with
  | '0' :: d :: rest => (d :: rest).all Char.isDigit
  | _ => false

/-! ### Numbers -/

/-- The number that a text without a minus sign writes. -/
def unsigned? (s : List Char) : Option Nat :=
  let digits := (without? "+" s).getD s
  match bases.findSome? fun (start, base) => (without? start digits).map (·, base) with
  | some (rest, base) => natural? base rest
  | none => if startsWithSign digits || hasNeedlessZero s then none else natural? 10 digits

/-- The opposite of the number that a text with a minus sign writes. -/
def negative? (s : List Char) : Option Nat := do
  let digits ← without? "-" s
  match bases.findSome? fun (start, base) => (without? start digits).map (·, base) with
  | some (rest, base) => natural? base rest
  | none => if hasNeedlessZero s then none else natural? 10 digits

/-- The digits before and after the point of a decimal, with the rest of the text. -/
def decimalDigits? (s : List Char) : Option (List Char × List Char × List Char) :=
  let whole := s.takeWhile Char.isDigit
  let rest := s.dropWhile Char.isDigit
  match rest with
  | '.' :: rest =>
    let part := rest.takeWhile Char.isDigit
    if whole.isEmpty && part.isEmpty then none
    else some (whole, part, rest.dropWhile Char.isDigit)
  | _ => if whole.isEmpty then none else some (whole, [], rest)

/-- The exponent that the rest of a decimal writes. -/
def exponent? : List Char → Option Int
  | [] => some 0
  | e :: rest =>
    if e == 'e' || e == 'E' then
      match rest with
      | '+' :: digits => (natural? 10 digits).map Int.ofNat
      | '-' :: digits => (natural? 10 digits).map fun n => -(n : Int)
      | digits => (natural? 10 digits).map Int.ofNat
    else none

/-- The number that a decimal without a plus sign writes, if it is finite. -/
def decimal? (s : List Char) : Option Double := do
  let negative := s.head? = some '-'
  let (whole, part, rest) ← decimalDigits? (if negative then s.tail else s)
  let n ← natural? 10 (whole ++ part)
  match Double.ofDecimal negative n ((← exponent? rest) - part.length) with
  | .finite negative m q => some (.finite negative m q)
  | _ => none

/-- The number of double precision that a text writes. -/
def double? (s : List Char) : Option Double :=
  let digits := (without? "+" s).getD s
  if digits.length < s.length && startsWithSign digits then none
  else if [".inf", ".Inf", ".INF"].contains (String.ofList digits) then some (.infinite false)
  else if ["-.inf", "-.Inf", "-.INF"].contains (String.ofList s) then some (.infinite true)
  else if [".nan", ".NaN", ".NAN"].contains (String.ofList s) then some .nan
  else decimal? digits

/-! ### Meaning -/

/-- Whether a text writes null. -/
def isNull (s : String) : Bool :=
  ["null", "Null", "NULL", "~"].contains s

/-- The truth value that a text writes. -/
def truth? (s : String) : Option Bool :=
  if ["true", "True", "TRUE"].contains s then some true
  else if ["false", "False", "FALSE"].contains s then some false
  else none

/-- What a scalar means. -/
inductive Meaning where
  /-- Null. -/
  | null
  /-- A truth value. -/
  | truth (b : Bool)
  /-- An integer of 64 bits, with a sign only if it is negative. -/
  | integer (n : Int)
  /-- An integer of more bits, but of no more than 128. -/
  | wide
  /-- A number of double precision. -/
  | double (d : Double)
  /-- A text. -/
  | text (s : String)
  deriving DecidableEq, Repr

/-- What an integer means, unless it has more than 128 bits. -/
def integer? (s : List Char) : Option Meaning :=
  match unsigned? s with
  | some n =>
    if n < Nat.pow 2 64 then some (.integer n)
    else if n < Nat.pow 2 128 then some .wide
    else none
  | none =>
    match negative? s with
    | some n =>
      if n ≤ Nat.pow 2 63 then some (.integer (-(n : Int)))
      else if n ≤ Nat.pow 2 127 then some .wide
      else none
    | none => none

/-- What a plain scalar means. -/
def meaningOf (s : String) : Meaning :=
  if s = "" ∨ isNull s then .null
  else
    match truth? s, integer? s.toList, double? s.toList with
    | some b, _, _ => .truth b
    | none, some n, _ => n
    | none, none, some d => if hasNeedlessZero s.toList then .text s else .double d
    | none, none, none => .text s

end Packetry.Yaml

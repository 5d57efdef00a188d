/-!
# Double precision numbers

A finite number of double precision is `m · 2 ^ q` with a sign, where `m` has at most 53 bits
and `q` is at least `-1074`. A decimal is read as the nearest such number, with `m` even if
two are equally near, and a number is written with the fewest digits that read back as the
number; of several such decimals the nearest is taken, and the greater one of two that are
equally near. All arithmetic is on natural numbers and exact.
-/

namespace Packetry

/-- A number of double precision. -/
inductive Double where
  /-- Not a number. -/
  | nan
  /-- Infinite, and negative or not. -/
  | infinite (negative : Bool)
  /-- A number `m · 2 ^ q`, or its opposite. -/
  | finite (negative : Bool) (m : Nat) (q : Int)
  deriving DecidableEq, Repr

namespace Double

/-- The number of bits of `m`. -/
def precision : Nat := 53

/-- The least exponent. -/
def minExponent : Int := -1074

/-- The greatest exponent. -/
def maxExponent : Int := 971

/-- The exponent beyond which a decimal is infinite, or else zero. -/
def decimalBound : Int := 400

/-- A positive fraction. -/
structure Fraction where
  /-- The numerator. -/
  top : Nat
  /-- The denominator. -/
  bottom : Nat

/-- A natural number times a power. -/
def scaled (n base : Nat) (e : Int) : Fraction :=
  ⟨n * base.pow e.toNat, base.pow (-e).toNat⟩

/-- A fraction divided by a power. -/
def Fraction.over (x : Fraction) (base : Nat) (e : Int) : Fraction :=
  ⟨x.top * base.pow (-e).toNat, x.bottom * base.pow e.toNat⟩

/-- The part of a fraction before the point. -/
def Fraction.floor (x : Fraction) : Nat :=
  x.top / x.bottom

/-- The nearest natural number; a half goes to the even one. -/
def Fraction.nearest (x : Fraction) : Nat :=
  let n := x.floor
  let twice := 2 * (x.top % x.bottom)
  if twice < x.bottom then n
  else if x.bottom < twice then n + 1
  else n + n % 2

/-- Whether a fraction is less than another one. -/
def Fraction.lt (x y : Fraction) : Bool :=
  x.top * y.bottom < y.top * x.bottom

/-! ### Reading -/

/-- The number nearest to a positive fraction. -/
def ofFraction (negative : Bool) (x : Fraction) : Double :=
  let size : Int := x.top.log2 - x.bottom.log2
  let q := max (size - precision) minExponent
  let q := if Nat.pow 2 precision ≤ (x.over 2 q).floor then q + 1 else q
  let m := (x.over 2 q).nearest
  let (m, q) := if m = Nat.pow 2 precision then (m / 2, q + 1) else (m, q)
  if maxExponent < q then infinite negative else finite negative m q

/-- The number of decimal digits. -/
def digitCount (n : Nat) : Nat :=
  (Nat.toDigits 10 n).length

/-- The number nearest to `n · 10 ^ e`, or to its opposite. -/
def ofDecimal (negative : Bool) (n : Nat) (e : Int) : Double :=
  if n = 0 then finite negative 0 minExponent
  else if decimalBound < digitCount n + e then infinite negative
  else if digitCount n + e < -decimalBound then finite negative 0 minExponent
  else ofFraction negative (scaled n 10 e)

/-! ### Writing -/

/-- The exponent of the first digit of a positive fraction. -/
def Fraction.leadingExponent (x : Fraction) : Int :=
  if x.bottom ≤ x.top then digitCount x.floor - 1
  else
    let e : Int := 1 - digitCount (x.bottom / x.top)
    if (x.over 10 e).lt ⟨1, 1⟩ then e - 1 else e

/-- The decimals that are read as `m · 2 ^ q`, as an interval in quarters of `2 ^ q`; its ends
belong to it if `m` is even. -/
def isReadAs (m : Nat) (q : Int) (x : Fraction) : Bool :=
  let below := if m = Nat.pow 2 (precision - 1) ∧ minExponent < q then 1 else 2
  let low := scaled (4 * m - below) 2 (q - 2)
  let high := scaled (4 * m + 2) 2 (q - 2)
  if m % 2 = 0 then !x.lt low && !high.lt x else low.lt x && x.lt high

/-- Of the two decimals with digits up to an exponent that enclose `m · 2 ^ q`, the one that
is read as that number, or the nearer one if both are. A half goes up. -/
def decimalAt? (m : Nat) (q e : Int) : Option Nat :=
  let x := (scaled m 2 q).over 10 e
  let low := x.floor
  let fits (n : Nat) := isReadAs m q (scaled n 10 e)
  match fits low, fits (low + 1) with
  | true, true => some (if 2 * (x.top % x.bottom) < x.bottom then low else low + 1)
  | true, false => some low
  | false, true => some (low + 1)
  | false, false => none

/-- The decimal with the fewest digits, of a number at least and at most of 17, that is read
as `m · 2 ^ q`, and the exponent of its last digit. A single nine may have been rounded up to
ten, which has one digit fewer. -/
def shortestFrom (m : Nat) (q leading : Int) : Nat → Nat → Nat × Int
  | _, 0 => (m, q)
  | digits, rounds + 1 =>
    let e := leading + 1 - digits
    match decimalAt? m q e with
    | some n => if n = 10 then (1, e + 1) else (n, e)
    | none => shortestFrom m q leading (digits + 1) rounds

/-- Zeros. -/
def zeros (n : Nat) : List Char := List.replicate n '0'

/-- A decimal `n · 10 ^ e` without an exponent, with one digit at least on each side of the
point. -/
def positional (n : Nat) (e : Int) : String :=
  let digits := Nat.toDigits 10 n
  let whole : Int := digits.length + e
  String.ofList <|
    if 0 ≤ e then digits ++ zeros e.toNat ++ ['.', '0']
    else if 0 < whole then digits.take whole.toNat ++ '.' :: digits.drop whole.toNat
    else ['0', '.'] ++ zeros (-whole).toNat ++ digits

/-- The text of a number. -/
def text : Double → String
  | nan => "NaN"
  | infinite negative => if negative then "-inf" else "inf"
  | finite negative m q =>
    let magnitude :=
      if m = 0 then positional 0 0
      else
        let (n, e) := shortestFrom m q (scaled m 2 q).leadingExponent 1 17
        positional n e
    if negative then "-" ++ magnitude else magnitude

/-- Whether two numbers are equal: the two zeros are, and anything that is not a number is
here taken to equal any other such thing. -/
def same : Double → Double → Bool
  | nan, nan => true
  | infinite a, infinite b => a == b
  | finite a m q, finite b n r => m == n && q == r && (a == b || m == 0)
  | _, _ => false

end Double

end Packetry

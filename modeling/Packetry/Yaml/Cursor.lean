/-!
# Positions in a text

A reader of YAML has to know, besides what is left of the text, the line and the column where
it stands, because indentation carries meaning, and how far it has come, because a key must
not be longer than a certain number of characters. `Packetry.Yaml.Cursor` holds all of this.
A line ends with a line feed, a carriage return, both of them in the other order, or one of
three separators beyond ASCII.
-/

namespace Packetry.Yaml

/-! ### Classes of characters -/

/-- Whether the character ends a line. -/
def isBreak (c : Char) : Bool :=
  c == '\n' || c == '\r' || c == '\u0085' || c == '\u2028' || c == '\u2029'

/-- Whether the character is a space or a tabulator. -/
def isGap (c : Char) : Bool :=
  c == ' ' || c == '\t'

/-- Whether the character is a space, a tabulator or the end of a line. -/
def isGapOrBreak (c : Char) : Bool :=
  isGap c || isBreak c

/-- Whether the character may stand in the name of an anchor, a directive or a handle. -/
def isNameChar (c : Char) : Bool :=
  c.isAlphanum || c == '_' || c == '-'

/-- Whether the character may stand in a text at all: the controls may not, but for the
tabulator and those that end a line. -/
def isAllowed (c : Char) : Bool :=
  let n := c.toNat
  n == 9 || n == 0xA || n == 0xD || (0x20 ≤ n && n ≤ 0x7E) || n == 0x85 ||
    (0xA0 ≤ n && n ≤ 0xD7FF) || (0xE000 ≤ n && n ≤ 0xFFFD) || 0x10000 ≤ n

/-- The value of a hexadecimal digit. -/
def hexDigit? (c : Char) : Option Nat :=
  if c.isDigit then some (c.toNat - '0'.toNat)
  else if 'a' ≤ c ∧ c ≤ 'f' then some (c.toNat - 'a'.toNat + 10)
  else if 'A' ≤ c ∧ c ≤ 'F' then some (c.toNat - 'A'.toNat + 10)
  else none

/-- The number that hexadecimal digits write behind a number. -/
def hexNumber? (before : Nat) : List Char → Option Nat
  | [] => some before
  | c :: rest => do hexNumber? (before * 16 + (← hexDigit? c)) rest

/-! ### Cursors -/

/-- A position in a text. Lines and columns count from zero. -/
structure Cursor where
  /-- What is left of the text. -/
  rest : List Char
  /-- The number of characters behind the cursor. -/
  index : Nat
  /-- The number of the line. -/
  line : Nat
  /-- The number of characters of the line behind the cursor. -/
  column : Nat
  deriving Repr

namespace Cursor

/-- The start of a text. -/
def start (text : List Char) : Cursor :=
  ⟨text, 0, 0, 0⟩

/-- The next character. -/
def peek (c : Cursor) : Option Char :=
  c.rest.head?

/-- The cursor behind some characters of the same line. -/
def advance (c : Cursor) (n : Nat) : Cursor :=
  ⟨c.rest.drop n, c.index + n, c.line, c.column + n⟩

/-- The cursor behind the end of a line, if it stands there. -/
def nextLine (c : Cursor) : Cursor :=
  match c.rest with
  | '\r' :: '\n' :: rest => ⟨rest, c.index + 2, c.line + 1, 0⟩
  | _ :: rest => ⟨rest, c.index + 1, c.line + 1, 0⟩
  | [] => c

/-- The characters before the first one that is not in a class. -/
def run (c : Cursor) (inClass : Char → Bool) : List Char :=
  c.rest.takeWhile inClass

/-- The cursor behind all characters of a class. -/
def skip (c : Cursor) (inClass : Char → Bool) : Cursor :=
  c.advance (c.run inClass).length

/-- Whether the text starts with a literal here. -/
def at? (c : Cursor) (literal : String) : Bool :=
  literal.toList.isPrefixOf c.rest

/-- Whether a gap, the end of a line or the end of the text is a number of characters away. -/
def endsAt (c : Cursor) (n : Nat) : Bool :=
  (c.rest.drop n).head?.all isGapOrBreak

/-- Whether the line, or the text, ends here. -/
def atLineEnd (c : Cursor) : Bool :=
  c.peek.all isBreak

/-- Whether a marker between documents stands here: three hyphens or three dots at the start
of a line, with nothing else in their word. -/
def atMarker (c : Cursor) : Bool :=
  c.column == 0 && (c.at? "---" || c.at? "...") && c.endsAt 3

/-- The cursor behind a gap and a comment. -/
def skipComment (c : Cursor) : Cursor :=
  let c := c.skip isGap
  if c.peek = some '#' then c.skip (!isBreak ·) else c

/-- The cursor on the next line, when nothing but a gap and a comment is left of this one. -/
def finishLine? (c : Cursor) : Option Cursor :=
  let c := c.skipComment
  if c.atLineEnd then some c.nextLine else none

end Cursor

/-- What the end of a line contributes to a scalar: a line feed, but for the two separators
that stay what they are. -/
def lineEnd (c : Char) : Char :=
  if c == '\u2028' || c == '\u2029' then c else '\n'

end Packetry.Yaml

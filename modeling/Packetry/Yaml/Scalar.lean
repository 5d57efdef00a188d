import Packetry.Yaml.Cursor

/-!
# Scalars as they are written

A scalar is written in one of five styles: plain, between single quotes, between double
quotes, or as a literal or a folded block. In the first three a line end together with the
gaps around it is folded into one space, or, if empty lines follow, into the ends of these;
in a block the indentation of the first line that is not empty is taken off every line.
Each reader of this module starts at the first character of a scalar and gives its text and
the cursor behind it, or nothing if the scalar is malformed. Its bound exceeds the number of
characters that are left.
-/

namespace Packetry.Yaml

/-! ### Folding -/

/-- The gaps and line ends between two words of a scalar. -/
structure Fold where
  /-- The gap, if no line ends. -/
  spaces : List Char
  /-- The ends of the lines. -/
  breaks : List Char
  /-- The cursor behind them. -/
  cursor : Cursor

/-- The gaps and line ends up to the next word. The flag tells whether a line end has been
passed, so that gaps no longer count. A tabulator must not stand in the indentation, that is,
behind a line end and before a certain column. -/
def foldFrom (indent : Nat) (broken : Bool) (spaces breaks : List Char)
    (index line column : Nat) : List Char → Option Fold
  | '\r' :: '\n' :: rest =>
    foldFrom indent true [] (breaks ++ ['\n']) (index + 2) (line + 1) 0 rest
  | c :: rest =>
    if isBreak c then
      foldFrom indent true [] (breaks ++ [lineEnd c]) (index + 1) (line + 1) 0 rest
    else if isGap c then
      if !broken then
        foldFrom indent broken (spaces ++ [c]) breaks (index + 1) line (column + 1) rest
      else if c == '\t' && column < indent then none
      else foldFrom indent broken spaces breaks (index + 1) line (column + 1) rest
    else some ⟨spaces, breaks, ⟨c :: rest, index, line, column⟩⟩
  | [] => some ⟨spaces, breaks, ⟨[], index, line, column⟩⟩

/-- The gaps and line ends at a cursor. -/
def Cursor.fold? (c : Cursor) (indent : Nat) (broken : Bool) : Option Fold :=
  foldFrom indent broken [] [] c.index c.line c.column c.rest

/-- What gaps and line ends contribute to the text: the gap if no line ends; else a space for
a single line feed, and the ends of the empty lines if there are any. -/
def Fold.text (f : Fold) : List Char :=
  match f.breaks with
  | [] => f.spaces
  | ['\n'] => [' ']
  | '\n' :: more => more
  | breaks => breaks

/-! ### Plain scalars -/

/-- Whether the character opens, closes or separates flow collections. -/
def isFlowIndicator (c : Char) : Bool :=
  c == ',' || c == '[' || c == ']' || c == '{' || c == '}'

/-- The characters of a plain scalar up to a gap or its end. Within flow collections a colon
must not stand right before an indicator. -/
def plainWord? (flow : Bool) : List Char → Option (List Char)
  | [] => some []
  | c :: rest =>
    if isGapOrBreak c then some []
    else if c == ':' then
      if flow && rest.head?.any (fun d => isFlowIndicator d || d == '?') then none
      else if rest.head?.all isGapOrBreak then some []
      else (plainWord? flow rest).map (c :: ·)
    else if flow && isFlowIndicator c then some []
    else (plainWord? flow rest).map (c :: ·)

/-- A plain scalar: its text, whether a line has ended since its last word, and the cursor
behind it. -/
structure Plain where
  /-- The text. -/
  text : List Char
  /-- Whether a line has ended since the last word. -/
  broken : Bool
  /-- The cursor. -/
  cursor : Cursor

/-- The rest of a plain scalar behind some text and a fold. Each round reads a word, so a
number of rounds that exceeds that of the characters does not matter. -/
def plainFrom (flow : Bool) (indent : Nat) :
    Nat → List Char → List Char → Bool → Cursor → Option Plain
  | 0, _, _, _, _ => none
  | rounds + 1, text, pending, broken, c => do
    if c.atMarker || c.peek = some '#' then return ⟨text, broken, c⟩
    let word ← plainWord? flow c.rest
    let text := if word = [] then text else text ++ pending ++ word
    let broken := if word = [] then broken else false
    let c := c.advance word.length
    if !c.peek.any isGapOrBreak then return ⟨text, broken, c⟩
    let fold ← c.fold? indent false
    let broken := !fold.breaks.isEmpty
    if !flow && fold.cursor.column < indent then return ⟨text, broken, fold.cursor⟩
    plainFrom flow indent rounds text fold.text broken fold.cursor

/-- The plain scalar at a cursor, the lines of which are indented to a column at least. -/
def Cursor.plain? (c : Cursor) (flow : Bool) (indent bound : Nat) : Option Plain :=
  plainFrom flow indent bound [] [] false c

/-! ### Quoted scalars -/

/-- A part of a quoted scalar. -/
structure QuotedWord where
  /-- The text. -/
  text : List Char
  /-- The number of characters that write it. -/
  length : Nat
  /-- Whether an escaped line end follows. -/
  escapedBreak : Bool

/-- The word behind one more character that takes some room. -/
def QuotedWord.cons (c : Char) (length : Nat) (w : QuotedWord) : QuotedWord :=
  { w with text := c :: w.text, length := length + w.length }

/-- The characters between single quotes up to a gap or the end. A quote is written twice. -/
def singleQuotedWord : List Char → QuotedWord
  | '\x27' :: '\x27' :: rest => (singleQuotedWord rest).cons '\x27' 2
  | c :: rest =>
    if c == '\x27' || isGapOrBreak c then ⟨[], 0, false⟩ else (singleQuotedWord rest).cons c 1
  | [] => ⟨[], 0, false⟩

/-- The character that an escape of one letter writes. -/
def shortEscape? (c : Char) : Option Char :=
  [('0', '\x00'), ('a', '\x07'), ('b', '\x08'), ('t', '\t'), ('\t', '\t'), ('n', '\n'),
    ('v', '\x0b'), ('f', '\x0c'), ('r', '\r'), ('e', '\x1b'), (' ', ' '), ('\x22', '\x22'),
    ('/', '/'), ('\x5c', '\x5c'), ('N', '\u0085'), ('_', '\u00a0'), ('L', '\u2028'),
    ('P', '\u2029')].lookup c

/-- The number of hexadecimal digits behind the letter of a numeric escape. -/
def escapeWidth? (c : Char) : Option Nat :=
  [('x', 2), ('u', 4), ('U', 8)].lookup c

/-- The character of a code point. -/
def charOf? (n : Nat) : Option Char :=
  if n.isValidChar then some (Char.ofNat n) else none

/-- The character that an escape writes, and the number of characters behind the backslash
that it takes. -/
def escape? : List Char → Option (Char × Nat)
  | [] => none
  | letter :: rest =>
    match escapeWidth? letter with
    | none => (shortEscape? letter).map fun c => (c, 1)
    | some width => do
      let digits := rest.take width
      if digits.length < width then none
      else return (← charOf? (← hexNumber? 0 digits), width + 1)

/-- The characters between double quotes up to a gap, the end or an escaped line end. The
number counts characters that belong to an escape that was read. -/
def doubleQuotedWord? : Nat → List Char → Option QuotedWord
  | skip + 1, _ :: rest => doubleQuotedWord? skip rest
  | _, [] => some ⟨[], 0, false⟩
  | 0, c :: rest =>
    if c == '\x22' || isGapOrBreak c then some ⟨[], 0, false⟩
    else if c == '\x5c' then
      if rest.head?.any isBreak then some ⟨[], 0, true⟩
      else do
        let (d, width) ← escape? rest
        return (← doubleQuotedWord? width rest).cons d (width + 1)
    else do return (← doubleQuotedWord? 0 rest).cons c 1

/-- The rest of a quoted scalar. Each round reads a word and a fold, so a number of rounds that
exceeds that of the characters does not matter. -/
def quotedFrom (single : Bool) : Nat → List Char → Cursor → Option (List Char × Cursor)
  | 0, _, _ => none
  | rounds + 1, text, c => do
    if c.atMarker || c.rest.isEmpty then none
    let word ← if single then some (singleQuotedWord c.rest) else doubleQuotedWord? 0 c.rest
    let text := text ++ word.text
    let c := c.advance word.length
    let c := if word.escapedBreak then (c.advance 1).nextLine else c
    if c.peek = some (if single then '\x27' else '\x22') then return (text, c.advance 1)
    let fold ← c.fold? 0 word.escapedBreak
    let folded := if word.escapedBreak then fold.breaks else fold.text
    quotedFrom single rounds (text ++ folded) fold.cursor

/-- The quoted scalar at a cursor, which stands on the first quote. -/
def Cursor.quoted? (c : Cursor) (single : Bool) (bound : Nat) : Option (List Char × Cursor) :=
  quotedFrom single bound [] (c.advance 1)

/-! ### Blocks -/

/-- What becomes of the line ends at the end of a block. -/
inductive Chomping where
  /-- They are all dropped. -/
  | strip
  /-- The first is kept. -/
  | clip
  /-- They are all kept. -/
  | keep
  deriving DecidableEq, Repr

/-- The first line of a block: what becomes of the line ends at its end, and by how much it is
indented, if it says so, and the number of characters of both. -/
def blockHeader? : List Char → Option (Chomping × Option Nat × Nat)
  | c :: d :: _ =>
    match chomping? c, chomping? d with
    | some chomping, _ =>
      if d.isDigit then (indentation? d).map fun n => (chomping, some n, 2)
      else some (chomping, none, 1)
    | none, after =>
      if c.isDigit then
        (indentation? c).map fun n =>
          (after.getD .clip, some n, if after.isSome then 2 else 1)
      else some (.clip, none, 0)
  | [c] =>
    match chomping? c with
    | some chomping => some (chomping, none, 1)
    | none =>
      if c.isDigit then (indentation? c).map fun n => (.clip, some n, 1)
      else some (.clip, none, 0)
  | [] => some (.clip, none, 0)
where
  /-- The chomping that a character asks for. -/
  chomping? (c : Char) : Option Chomping :=
    if c == '+' then some .keep else if c == '-' then some .strip else none
  /-- The indentation that a digit asks for. -/
  indentation? (c : Char) : Option Nat :=
    if c == '0' then none else some (c.toNat - '0'.toNat)

/-- The empty lines before a line of a block. -/
structure Lead where
  /-- The greatest indentation. -/
  deepest : Nat
  /-- The ends of the empty lines. -/
  breaks : List Char
  /-- The cursor behind the indentation of the line that is not empty. -/
  cursor : Cursor

/-- The empty lines and the indentation at some place. If no indentation is known, all spaces
belong to it. A tabulator must not stand in the indentation. -/
def leadFrom (indent : Option Nat) (deepest : Nat) (breaks : List Char)
    (index line column : Nat) : List Char → Option Lead
  | '\r' :: '\n' :: rest =>
    leadFrom indent (max deepest column) (breaks ++ ['\n']) (index + 2) (line + 1) 0 rest
  | c :: rest =>
    if c == ' ' && indent.all (column < ·) then
      leadFrom indent deepest breaks (index + 1) line (column + 1) rest
    else if c == '\t' && indent.all (column < ·) then none
    else if isBreak c then
      leadFrom indent (max deepest column) (breaks ++ [lineEnd c]) (index + 1) (line + 1) 0 rest
    else some ⟨max deepest column, breaks, ⟨c :: rest, index, line, column⟩⟩
  | [] => some ⟨max deepest column, breaks, ⟨[], index, line, column⟩⟩

/-- The empty lines and the indentation at a cursor. -/
def Cursor.lead? (c : Cursor) (indent : Option Nat) : Option Lead :=
  leadFrom indent 0 [] c.index c.line c.column c.rest

/-- A block that was read up to the start of a line. -/
structure Block where
  /-- The text, without the end of the last line. -/
  text : List Char
  /-- The end of the last line. -/
  lineBreak : List Char
  /-- The ends of the empty lines behind it. -/
  trailing : List Char
  /-- Whether the last line starts with a gap. -/
  startsWithGap : Bool
  /-- The cursor. -/
  cursor : Cursor

/-- The text of a block up to the next line, which starts with a gap or not. In a folded
block a line end is dropped between lines that start without a gap, and a space stands for it
if no empty line follows. -/
def Block.joined (b : Block) (folded gap : Bool) : List Char :=
  let dropped := folded && b.lineBreak == ['\n'] && !b.startsWithGap && !gap
  b.text ++ (if !dropped then b.lineBreak else if b.trailing.isEmpty then [' '] else []) ++
    b.trailing

/-- The lines of a block that are indented to a column. -/
def blockLines? (folded : Bool) (indent : Nat) : Nat → Block → Option Block
  | 0, _ => none
  | rounds + 1, b =>
    if b.cursor.column == indent && !b.cursor.rest.isEmpty then do
      let gap := b.cursor.peek.any isGap
      let line := b.cursor.run (!isBreak ·)
      let c := b.cursor.advance line.length
      let lead ← c.nextLine.lead? (some indent)
      blockLines? folded indent rounds
        ⟨b.joined folded gap ++ line, (c.peek.map lineEnd).toList, lead.breaks, gap,
          lead.cursor⟩
    else some b

/-- The text of a whole block. -/
def Block.chomped (b : Block) : Chomping → List Char
  | .strip => b.text
  | .clip => b.text ++ b.lineBreak
  | .keep => b.text ++ b.lineBreak ++ b.trailing

/-- The block at a cursor, which stands on its first character, inside a collection that is
indented to a column or not indented at all. -/
def Cursor.block? (c : Cursor) (folded : Bool) (outer : Option Nat) (bound : Nat) :
    Option (List Char × Cursor) := do
  let c := c.advance 1
  let (chomping, increment?, width) ← blockHeader? c.rest
  let c ← (c.advance width).finishLine?
  let known := increment?.map (outer.getD 0 + ·)
  let lead ← c.lead? known
  let indent := known.getD (max lead.deepest (max (outer.elim 0 (· + 1)) 1))
  let b ← blockLines? folded indent bound ⟨[], [], lead.breaks, false, lead.cursor⟩
  return (b.chomped chomping, b.cursor)

end Packetry.Yaml

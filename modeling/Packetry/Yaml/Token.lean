import Packetry.Yaml.Scalar

/-!
# Tokens

The first layer of YAML: a text becomes a list of tokens. Most tokens are written down, as an
indicator or a scalar. Three are not: the start and the end of a block collection follow from
indentation, and the mark before a key that is written without one follows from the colon
behind it. Such a *simple key* stands on one line and has at most 1024 characters, so what
may be one is remembered until the colon is met or can no longer come.

`Packetry.Yaml.tokens` ends with `Packetry.Yaml.Token.streamEnd` exactly if the whole text
could be read; otherwise it holds the tokens before the first fault that are certain.
-/

namespace Packetry.Yaml

/-- A token. -/
inductive Token where
  /-- The end of the text. -/
  | streamEnd
  /-- The version of the language. -/
  | version (major minor : Nat)
  /-- What a tag handle stands for. -/
  | handle (name meaning : String)
  /-- The explicit start of a document. -/
  | documentStart
  /-- The explicit end of a document. -/
  | documentEnd
  /-- The start of a sequence given by indentation. -/
  | blockSequenceStart
  /-- The start of a mapping given by indentation. -/
  | blockMappingStart
  /-- The end of a collection given by indentation. -/
  | blockEnd
  /-- An opening square bracket. -/
  | flowSequenceStart
  /-- A closing square bracket. -/
  | flowSequenceEnd
  /-- An opening curly bracket. -/
  | flowMappingStart
  /-- A closing curly bracket. -/
  | flowMappingEnd
  /-- The mark of an item in a block sequence. -/
  | blockEntry
  /-- A comma. -/
  | flowEntry
  /-- The mark of a key. -/
  | key
  /-- The mark of a value. -/
  | value
  /-- A reference to an anchor. -/
  | alias (name : String)
  /-- An anchor. -/
  | anchor (name : String)
  /-- A tag, by its handle and what follows it. -/
  | tag (handle rest : String)
  /-- A scalar, which is plain or not. -/
  | scalar (plain : Bool) (text : String)
  deriving DecidableEq, Repr

/-! ### Names and tags -/

/-- A name and the cursor behind it. -/
def Cursor.name (c : Cursor) : String × Cursor :=
  (String.ofList (c.run isNameChar), c.skip isNameChar)

/-- The name of an anchor at a cursor, which stands on its indicator. -/
def Cursor.anchorName? (c : Cursor) : Option (String × Cursor) :=
  let (name, c) := (c.advance 1).name
  let ends := c.peek.all fun d => isGapOrBreak d || "?:,]\x7d%@\x60".toList.contains d
  if name.isEmpty || !ends then none else some (name, c)

/-- Whether the character may stand in a tag. Between angle brackets three more may. -/
def isTagChar (verbatim : Bool) (c : Char) : Bool :=
  isNameChar c || ";/?:@&=+$.%!~*'()".toList.contains c ||
    (verbatim && ",[]".toList.contains c)

/-- The number of octets of a character, by its first octet. -/
def octetCount? (first : Nat) : Option Nat :=
  if first < 0x80 then some 1
  else if 0xC0 ≤ first && first < 0xE0 then some 2
  else if 0xE0 ≤ first && first < 0xF0 then some 3
  else if 0xF0 ≤ first && first < 0xF8 then some 4
  else none

/-- The octet that an escape writes. -/
def octet? : List Char → Option Nat
  | '%' :: a :: b :: _ => hexNumber? 0 [a, b]
  | _ => none

/-- The octets of some escapes that follow one another, all but the first of a character. -/
def laterOctets? : Nat → List Char → Option (List Nat)
  | 0, _ => some []
  | n + 1, text => do
    let octet ← octet? text
    if octet < 0x80 || 0xC0 ≤ octet then none
    else return octet :: (← laterOctets? n (text.drop 3))

/-- The character that the escapes at the start of a text write, and their number. -/
def escapedChar? (text : List Char) : Option (Char × Nat) := do
  let first ← octet? text
  let count ← octetCount? first
  let later ← laterOctets? (count - 1) (text.drop 3)
  let lead := if count = 1 then first else first % Nat.pow 2 (7 - count)
  return (← charOf? (later.foldl (fun n octet => n * 64 + octet % 64) lead), count)

/-- The text of a tag, up to the first character that cannot stand in it, and the number of
characters that write it. The first number counts characters of an escape that was read. -/
def tagText? (verbatim : Bool) : Nat → List Char → Option (List Char × Nat)
  | skip + 1, _ :: rest => (tagText? verbatim skip rest).map fun (t, n) => (t, n + 1)
  | _, [] => some ([], 0)
  | 0, c :: rest =>
    if !isTagChar verbatim c then some ([], 0)
    else if c == '%' then do
      let (d, count) ← escapedChar? (c :: rest)
      let (t, n) ← tagText? verbatim (3 * count - 1) rest
      return (d :: t, n + 1)
    else do
      let (t, n) ← tagText? verbatim 0 rest
      return (c :: t, n + 1)

/-- The text of a tag at a cursor. -/
def Cursor.tagText? (c : Cursor) (verbatim : Bool) : Option (String × Cursor) := do
  let (text, width) ← Yaml.tagText? verbatim 0 c.rest
  return (String.ofList text, c.advance width)

/-- A tag at a cursor, which stands on its exclamation mark. Without a second exclamation
mark behind a name, the handle is a single one; a tag that is nothing else has no handle. -/
def Cursor.tag? (c : Cursor) (flow : Bool) : Option (Token × Cursor) := do
  let (token, c) ←
    if c.at? "!<" then do
      let (text, c) ← (c.advance 2).tagText? true
      if text.isEmpty || c.peek ≠ some '>' then none
      else some (Token.tag "" text, c.advance 1)
    else do
      let (name, c') := (c.advance 1).name
      if c'.peek = some '!' then
        let (text, c'') ← (c'.advance 1).tagText? false
        if text.isEmpty then none else some (Token.tag s!"!{name}!" text, c'')
      else
        let (text, c'') ← c'.tagText? false
        let text := name ++ text
        some (if text.isEmpty then Token.tag "" "!" else Token.tag "!" text, c'')
  if c.endsAt 0 || (flow && c.peek = some ',') then some (token, c) else none

/-! ### Directives -/

/-- The number of digits that a part of a version may have. -/
def versionDigits : Nat := 9

/-- A part of a version. -/
def Cursor.versionPart? (c : Cursor) : Option (Nat × Cursor) :=
  let digits := c.run Char.isDigit
  if digits.isEmpty || versionDigits < digits.length then none
  else some (digits.foldl (fun n d => 10 * n + (d.toNat - '0'.toNat)) 0, c.skip Char.isDigit)

/-- A directive at a cursor, which stands on its percent sign. -/
def Cursor.directive? (c : Cursor) : Option (Token × Cursor) := do
  let (name, c) := (c.advance 1).name
  if name.isEmpty || !c.endsAt 0 then none
  let c := c.skip isGap
  let (token, c) ←
    if name = "YAML" then do
      let (major, c) ← c.versionPart?
      if c.peek ≠ some '.' then none
      let (minor, c) ← (c.advance 1).versionPart?
      some (Token.version major minor, c)
    else if name = "TAG" then do
      if c.peek ≠ some '!' then none
      let (handle, c') := (c.advance 1).name
      let closed := c'.peek = some '!'
      if !closed && !handle.isEmpty then none
      let c := if closed then c'.advance 1 else c'
      if !c.peek.any isGap then none
      let (meaning, c) ← (c.skip isGap).tagText? true
      if meaning.isEmpty || !c.endsAt 0 then none
      some (Token.handle (if closed then s!"!{handle}!" else "!") meaning, c)
    else none
  return (token, ← c.finishLine?)

/-! ### The state of the scan -/

/-- A place where a simple key may have started. -/
structure KeyStart where
  /-- Whether something else than a key there would be a fault. -/
  required : Bool
  /-- The number of tokens before it. -/
  position : Nat
  /-- The number of characters before it. -/
  index : Nat
  /-- Its line. -/
  line : Nat
  /-- Its column. -/
  column : Nat
  deriving Repr

/-- The state of the scan between two tokens. -/
structure Scan where
  /-- The tokens, the last one first. -/
  tokens : List Token
  /-- Their number. -/
  count : Nat
  /-- The columns of the open block collections, the innermost first. -/
  indents : List Nat
  /-- Whether a simple key may start at the cursor. -/
  keyAllowed : Bool
  /-- The possible simple key outside of flow collections and in each open one, the innermost
  first. -/
  keys : List (Option KeyStart)
  /-- The cursor. -/
  cursor : Cursor

namespace Scan

/-- Whether the cursor is inside of a flow collection. -/
def inFlow (s : Scan) : Bool :=
  1 < s.keys.length

/-- The column to which the lines of the innermost block collection must at least be
indented so as to belong to something inside of it. -/
def innerColumn (s : Scan) : Nat :=
  s.indents.head?.elim 0 (· + 1)

/-- The state with a token put before the last tokens, of a given number. -/
def insert (s : Scan) (back : Nat) (t : Token) : Scan :=
  { s with tokens := s.tokens.take back ++ t :: s.tokens.drop back, count := s.count + 1 }

/-- The state after a token. -/
def push (s : Scan) (t : Token) : Scan :=
  s.insert 0 t

/-- The state after a token that was read from the text. -/
def emit (s : Scan) (t : Token) (c : Cursor) : Scan :=
  { s.push t with cursor := c }

/-- Give up the possible key of the innermost collection. -/
def dropKey? (s : Scan) : Option Scan :=
  match s.keys with
  | some k :: rest => if k.required then none else some { s with keys := none :: rest }
  | _ => some s

/-- Note that a simple key may start at the cursor. One that starts at the indentation of a
block collection is required. -/
def noteKey? (s : Scan) : Option Scan := do
  if !s.keyAllowed then return s
  let required := !s.inFlow && s.indents.head? = some s.cursor.column
  let s' ← s.dropKey?
  let c := s.cursor
  return { s' with
    keys := some ⟨required, s.count, c.index, c.line, c.column⟩ :: s.keys.tail }

/-- The greatest number of characters of a simple key. -/
def keyLimit : Nat := 1024

/-- Whether what started at a place can no longer be a simple key at a cursor. -/
def isStale (c : Cursor) (k : KeyStart) : Bool :=
  k.line < c.line || k.index + keyLimit < c.index

/-- Give up all possible keys that can no longer be keys. -/
def dropStale? (s : Scan) : Option Scan :=
  if s.keys.any (·.any fun k => isStale s.cursor k && k.required) then none
  else some { s with keys := s.keys.map (·.filter fun k => !isStale s.cursor k) }

/-- Open a block collection at a column, if that is deeper than the innermost one. The token
is put before the last tokens, of a given number. -/
def openBlock (s : Scan) (column : Nat) (token : Token) (back : Nat) : Scan :=
  if s.inFlow || s.indents.head?.any (column ≤ ·) then s
  else { s.insert back token with indents := column :: s.indents }

/-- Close the block collections deeper than a bound. -/
def closeBlocks (s : Scan) (bound : Nat) : Scan :=
  if s.inFlow then s
  else
    let closed := s.indents.takeWhile (bound ≤ ·)
    { closed.foldl (fun s _ => s.push .blockEnd) s with indents := s.indents.drop closed.length }

/-! ### Single tokens -/

/-- Read an indicator of one character that starts no key. -/
def indicator? (s : Scan) (t : Token) (keyAllowed : Bool) : Option Scan := do
  let s ← s.dropKey?
  return { s with keyAllowed := keyAllowed }.emit t (s.cursor.advance 1)

/-- Read an opening bracket. -/
def openFlow? (s : Scan) (t : Token) : Option Scan := do
  let s ← s.noteKey?
  return { s with keys := none :: s.keys, keyAllowed := true }.emit t (s.cursor.advance 1)

/-- Read a closing bracket. -/
def closeFlow? (s : Scan) (t : Token) : Option Scan := do
  let s ← s.dropKey?
  let keys := if s.inFlow then s.keys.tail else s.keys
  return { s with keys := keys, keyAllowed := false }.emit t (s.cursor.advance 1)

/-- Read a directive or a marker between documents. -/
def betweenDocuments? (s : Scan) (read : Cursor → Option (Token × Cursor)) : Option Scan := do
  let s ← (s.closeBlocks 0).dropKey?
  let (t, c) ← read s.cursor
  return { s with keyAllowed := false }.emit t c

/-- Read the mark of an item. -/
def blockEntry? (s : Scan) : Option Scan :=
  if s.inFlow then s.indicator? .blockEntry true
  else if !s.keyAllowed then none
  else (s.openBlock s.cursor.column .blockSequenceStart 0).indicator? .blockEntry true

/-- Read the mark of a key. -/
def key? (s : Scan) : Option Scan :=
  if s.inFlow then s.indicator? .key false
  else if !s.keyAllowed then none
  else (s.openBlock s.cursor.column .blockMappingStart 0).indicator? .key true

/-- Read the mark of a value. If a simple key stands before it, it gets its mark now. -/
def value? (s : Scan) : Option Scan :=
  match s.keys with
  | some k :: rest =>
    let back := s.count - k.position
    let s := { s.insert back .key with keys := none :: rest, keyAllowed := false }
    let s := s.openBlock k.column .blockMappingStart (back + 1)
    some (s.emit .value (s.cursor.advance 1))
  | _ =>
    if s.inFlow then some ({ s with keyAllowed := false }.emit .value (s.cursor.advance 1))
    else if !s.keyAllowed then none
    else
      let s := s.openBlock s.cursor.column .blockMappingStart 0
      some (s.emit .value (s.cursor.advance 1))

/-- Read a token that may start a key. -/
def keyPart? (s : Scan) (read : Cursor → Option (Token × Cursor)) : Option Scan := do
  let s ← s.noteKey?
  let (t, c) ← read s.cursor
  return { s with keyAllowed := false }.emit t c

/-- Read a plain scalar. If a line has ended since its last word, a key may follow. -/
def plain? (s : Scan) (bound : Nat) : Option Scan := do
  let s ← s.noteKey?
  let p ← s.cursor.plain? s.inFlow s.innerColumn bound
  return { s with keyAllowed := p.broken }.emit (.scalar true (String.ofList p.text)) p.cursor

/-- Read a block. -/
def block? (s : Scan) (folded : Bool) (bound : Nat) : Option Scan := do
  let s ← s.dropKey?
  let (text, c) ← s.cursor.block? folded s.indents.head? bound
  return { s with keyAllowed := true }.emit (.scalar false (String.ofList text)) c

/-! ### The scan -/

/-- The state at the next token: gaps, comments and line ends are skipped. Outside of flow
collections, a tabulator must not stand where a key may start, and behind a line end one
may. The bound exceeds the number of lines that are left. -/
def settle (s : Scan) : Nat → Scan
  | 0 => s
  | rounds + 1 =>
    let c := s.cursor
    let c := if c.index == 0 && c.peek = some '\uFEFF' then c.advance 1 else c
    let c := c.skip fun d => d == ' ' || (d == '\t' && (s.inFlow || !s.keyAllowed))
    let c := if c.peek = some '#' then c.skip (!isBreak ·) else c
    if c.peek.any isBreak then
      { s with cursor := c.nextLine, keyAllowed := s.keyAllowed || !s.inFlow }.settle rounds
    else { s with cursor := c }

/-- Whether the character cannot start a plain scalar. -/
def isIndicator (c : Char) : Bool :=
  "-?:,[]\x7b\x7d#&*!|>'%@\x22\x60".toList.contains c

/-- Read the token at the cursor, which is not the end of the text. The bound exceeds the
number of characters that are left. -/
def next? (s : Scan) (bound : Nat) (first : Char) : Option Scan :=
  let c := s.cursor
  let lone := c.endsAt 1
  let marker (t : Token) := s.betweenDocuments? fun c => some (t, c.advance 3)
  if c.column == 0 && first == '%' then s.betweenDocuments? Cursor.directive?
  else if c.atMarker then marker (if first == '-' then .documentStart else .documentEnd)
  else if first == '[' then s.openFlow? .flowSequenceStart
  else if first == '{' then s.openFlow? .flowMappingStart
  else if first == ']' then s.closeFlow? .flowSequenceEnd
  else if first == '}' then s.closeFlow? .flowMappingEnd
  else if first == ',' then s.indicator? .flowEntry true
  else if first == '-' && lone then s.blockEntry?
  else if first == '?' && (s.inFlow || lone) then s.key?
  else if first == ':' && (s.inFlow || lone) then s.value?
  else if first == '*' then
    s.keyPart? fun c => c.anchorName?.map fun (name, c) => (.alias name, c)
  else if first == '&' then
    s.keyPart? fun c => c.anchorName?.map fun (name, c) => (.anchor name, c)
  else if first == '!' then s.keyPart? (·.tag? s.inFlow)
  else if first == '|' && !s.inFlow then s.block? false bound
  else if first == '>' && !s.inFlow then s.block? true bound
  else if first == '\x27' || first == '\x22' then
    s.keyPart? fun c => (c.quoted? (first == '\x27') bound).map fun (text, c) =>
      (.scalar false (String.ofList text), c)
  else if !isGapOrBreak first && !isIndicator first then s.plain? bound
  else if first == '-' && !(c.rest.drop 1).head?.any isGap then s.plain? bound
  else if (first == '?' || first == ':') && !s.inFlow && !lone then s.plain? bound
  else none

/-- The state after one more token, or the token that ends the text. The bound exceeds the
number of characters that are left. -/
def step? (s : Scan) (bound : Nat) : Option (Scan × Bool) := do
  let s := s.settle bound
  let s ← s.dropStale?
  let s := s.closeBlocks (s.cursor.column + 1)
  match s.cursor.rest with
  | [] =>
    let s ← (s.closeBlocks 0).dropKey?
    return (s.push .streamEnd, true)
  | first :: _ => return (← s.next? bound first, false)

/-- The tokens of a text that cannot be read any further. A token that may still be a key does
not count, and neither does any token behind it. -/
def settled (s : Scan) : List Token :=
  let pending := (s.dropStale?.getD s).keys.filterMap (·.map (·.position))
  s.tokens.reverse.take (pending.foldl min s.count)

/-- The tokens of the rest of the text, after those before. Each round reads a character at
least, so the number of rounds that are left exceeds that of the characters if it does so at
the start. -/
def run (s : Scan) : Nat → List Token
  | 0 => s.settled
  | rounds + 1 =>
    match s.step? (rounds + 1) with
    | none => s.settled
    | some (s, true) => s.tokens.reverse
    | some (s, false) => s.run rounds

/-- The start of a text. -/
def start (text : List Char) : Scan :=
  ⟨[], 0, [], true, [none], .start text⟩

end Scan

/-- The tokens of a text. -/
def tokens (text : List Char) : List Token :=
  if text.all isAllowed then (Scan.start text).run (text.length + 1) else []

end Packetry.Yaml

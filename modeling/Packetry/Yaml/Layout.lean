import Packetry.Yaml.Cursor
import Packetry.Yaml.Plain

/-!
# How texts are written

A mapping of texts, and of such mappings, is written with one entry a line, the inner ones
indented by two columns. A text is written plain where that is read back as the same text;
else between single quotes; and where these do not do, between double quotes, with escapes.
A text with a line feed is written as a literal block unless a gap at the end of a line, or a
character that does not print, would get lost in one.
-/

namespace Packetry.Yaml

/-! ### What a text holds -/

/-- Whether the character can be written as it is. -/
def isPrintable (c : Char) : Bool :=
  let n := c.toNat
  n == 0xA || (0x20 ≤ n && n ≤ 0x7E) || (0xA0 ≤ n && n != 0xFEFF && n != 0xFFFE && n != 0xFFFF)

/-- Whether one character follows the other somewhere. -/
def hasPairOf (first second : Char → Bool) : List Char → Bool
  | c :: d :: rest => (first c && second d) || hasPairOf first second (d :: rest)
  | _ => false

/-- Whether the character is a space. -/
def isSpace (c : Char) : Bool := c == ' '

/-- Whether the text starts with, or holds, what would not be read as part of a plain scalar:
an indicator at its start, a colon before a gap or a number sign behind one. -/
def hasIndicator (s : List Char) : Bool :=
  let marked := "---".toList.isPrefixOf s || "...".toList.isPrefixOf s
  let first := match s with
    | c :: rest =>
      "#,[]\x7b\x7d&*!|>'\x22%@\x60".toList.contains c ||
        ("?:-".toList.contains c && rest.head?.all isGapOrBreak)
    | [] => false
  let colon := s.getLast? = some ':' || hasPairOf (· == ':') isGapOrBreak s
  marked || first || colon || hasPairOf isGapOrBreak (· == '#') s

/-- Whether a line starts or ends with a space inside of the text, at its start included. -/
def hasLostSpace (s : List Char) : Bool :=
  hasPairOf isSpace isBreak s || hasPairOf isBreak isSpace s

/-- Whether the text may be written plain. -/
def allowsPlain (s : List Char) : Bool :=
  let outer (c : Option Char) := c.any fun c => isSpace c || isBreak c
  !outer s.head? && !outer s.getLast? && !s.any isBreak && s.all isPrintable && !hasIndicator s

/-- Whether the text may be written between single quotes. -/
def allowsSingle (s : List Char) : Bool :=
  !hasLostSpace s && s.all isPrintable

/-- Whether the text may be written as a block. -/
def allowsBlock (s : List Char) : Bool :=
  s.getLast? ≠ some ' ' && !hasPairOf isSpace isBreak s && s.all isPrintable

/-! ### Styles -/

/-- The spaces before a line. -/
def margin (indent : Nat) : List Char := List.replicate indent ' '

/-- The lines of a text, each but those that are empty behind a margin. The flag tells
whether a line starts here. -/
def indented (indent : Nat) : Bool → List Char → List Char
  | _, [] => []
  | fresh, c :: rest =>
    if isBreak c then c :: indented indent true rest
    else (if fresh then margin indent else []) ++ c :: indented indent false rest

/-- A text between single quotes. A quote is written twice. -/
def singleQuoted (indent : Nat) (s : List Char) : List Char :=
  let body := indented indent false (s.flatMap fun c => if c == '\x27' then [c, c] else [c])
  let closing := if s.getLast?.any isBreak then margin indent else []
  ['\x27'] ++ body ++ closing ++ ['\x27']

/-- The hexadecimal digits of a number, to some width. -/
def hexDigits (width n : Nat) : List Char :=
  let digits := (Nat.toDigits 16 n).map Char.toUpper
  List.replicate (width - digits.length) '0' ++ digits

/-- The letter by which an escape names a character. -/
def escapeLetter? (c : Char) : Option Char :=
  [('\x00', '0'), ('\x07', 'a'), ('\x08', 'b'), ('\t', 't'), ('\n', 'n'), ('\x0b', 'v'),
    ('\x0c', 'f'), ('\r', 'r'), ('\x1b', 'e'), ('\x22', '\x22'), ('\x5c', '\x5c'),
    ('\u0085', 'N'), ('\u00a0', '_'), ('\u2028', 'L'), ('\u2029', 'P')].lookup c

/-- A character between double quotes. -/
def doubleQuotedChar (c : Char) : List Char :=
  if isPrintable c && !isBreak c && c != '\x22' && c != '\x5c' then [c]
  else
    match escapeLetter? c with
    | some letter => ['\x5c', letter]
    | none =>
      let n := c.toNat
      if n ≤ 0xFF then ['\x5c', 'x'] ++ hexDigits 2 n
      else if n ≤ 0xFFFF then ['\x5c', 'u'] ++ hexDigits 4 n
      else ['\x5c', 'U'] ++ hexDigits 8 n

/-- A text between double quotes. -/
def doubleQuoted (s : List Char) : List Char :=
  ['\x22'] ++ s.flatMap doubleQuotedChar ++ ['\x22']

/-- Whether all line ends at the end of a block have to be kept. -/
def keepsBreaks (s : List Char) : Bool :=
  match s.reverse with
  | [c] => isBreak c
  | c :: d :: _ => isBreak c && isBreak d
  | [] => false

/-- The first line of a literal block: by how much it is indented, if its first line does not
show that, and what becomes of the line ends at its end. -/
def blockHeader (s : List Char) : List Char :=
  ['|'] ++ (if s.head?.any fun c => isSpace c || isBreak c then ['2'] else []) ++
    (if !s.getLast?.any isBreak then ['-'] else if keepsBreaks s then ['+'] else [])

/-- How a text is written. -/
inductive Style where
  /-- As it is. -/
  | plain
  /-- Between single quotes. -/
  | single
  /-- Between double quotes. -/
  | double
  /-- As a block. -/
  | block
  deriving DecidableEq, Repr

/-- Whether a plain scalar with this text would not be read as a text. -/
def meansOther (s : String) : Bool :=
  hasNeedlessZero s.toList ||
    match meaningOf s with
    | .text _ => false
    | _ => true

/-- The style of a text. -/
def styleOf (s : String) : Style :=
  let chars := s.toList
  if chars.contains '\n' then if allowsBlock chars then .block else .double
  else if !meansOther s && allowsPlain chars then .plain
  else if allowsSingle chars then .single
  else .double

/-- A text as a scalar with its line end, when its further lines are indented. -/
def scalarText (indent : Nat) (s : String) : List Char :=
  let chars := s.toList
  match styleOf s with
  | .plain => chars ++ ['\n']
  | .single => singleQuoted indent chars ++ ['\n']
  | .double => doubleQuoted chars ++ ['\n']
  | .block =>
    blockHeader chars ++ ['\n'] ++ indented indent true chars ++
      if chars.getLast?.any isBreak then [] else ['\n']

/-! ### Mappings -/

/-- What is written under a key. -/
inductive Item where
  /-- A text. -/
  | text (s : String)
  /-- A mapping of texts. -/
  | group (entries : List (String × String))

/-- An entry of a mapping. -/
def entryText (key : String) : Item → List Char
  | .text s => key.toList ++ [':', ' '] ++ scalarText 2 s
  | .group [] => key.toList ++ [':', ' ', '\x7b', '\x7d', '\n']
  | .group entries =>
    key.toList ++ [':', '\n'] ++ entries.flatMap fun (key, s) =>
      margin 2 ++ key.toList ++ [':', ' '] ++ scalarText 4 s

/-- The texts of a mapping, in order. -/
def Item.texts : Item → List String
  | .text s => [s]
  | .group entries => entries.map (·.2)

/-- Whether the last block of a mapping keeps all line ends, so that the end of the document
has to be marked. -/
def isOpenEnded (entries : List (String × Item)) : Bool :=
  let blocks := (entries.flatMap (·.2.texts)).filter (styleOf · = .block)
  blocks.getLast?.any (keepsBreaks ·.toList)

/-- A mapping as a document. -/
def document (entries : List (String × Item)) : String :=
  String.ofList (entries.flatMap (fun e => entryText e.1 e.2) ++
    if isOpenEnded entries then ['.', '.', '.', '\n'] else [])

end Packetry.Yaml

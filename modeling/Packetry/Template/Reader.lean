import Packetry.Template
import Packetry.Text.Blank
import Packetry.Text.Start

/-!
# How templates are written

A template is written as its text, with tags in it. There are three kinds of tags, and each
has brackets of its own: one prints an expression, one is a statement, and one is a comment.
A dash inside a bracket takes off the white space of the text next to that bracket.

Reading goes in three steps. `Packetry.Template.pieces?` cuts what is written into texts and
tags, `Packetry.Template.trimmed` takes off the white space at the dashes, and
`Packetry.Template.nested?` puts each choice together from its tags.
-/

namespace Packetry.Template

open Text

/-! ### Tokens -/

/-- A token of an expression. -/
inductive Token where
  /-- Names with dots between them. -/
  | path (names : List String)
  /-- A whole number. -/
  | number (n : Int)
  /-- A text between quotes. -/
  | text (s : String)
  /-- The sign of a comparison. -/
  | equality
  /-- Any other sign. -/
  | mark (c : Char)
  deriving DecidableEq, Repr

/-- Whether the character may set tokens apart. -/
def isGap (c : Char) : Bool :=
  c == ' ' || c == '\t' || c == '\r' || c == '\n'

/-- Whether a name may start with this character. -/
def isNameStart (c : Char) : Bool :=
  c.isAlpha || c == '_'

/-- Whether a name may hold this character. -/
def isNamePart (c : Char) : Bool :=
  c.isAlphanum || c == '_'

/-- A run of characters that names may hold, and the text behind it. -/
def namePart (text : List Char) : String × List Char :=
  (String.ofList (text.takeWhile isNamePart), text.dropWhile isNamePart)

/-- The names behind the first one of a path, and the text behind them; the number bounds how
many there are. -/
def morePath : Nat → List Char → List String × List Char
  | bound + 1, '.' :: c :: text =>
    if isNamePart c then
      let (name, rest) := namePart (c :: text)
      let (names, rest) := morePath bound rest
      (name :: names, rest)
    else ([], '.' :: c :: text)
  | _, text => ([], text)

/-- A number without a sign at the start of a text, and the text behind it. A zero is the only
digit of its number. -/
def digits? : List Char → Option (Nat × List Char)
  | '0' :: text => some (0, text)
  | c :: text =>
    if c.isDigit then
      let digits := (c :: text).takeWhile Char.isDigit
      some (digits.foldl (fun n d => 10 * n + (d.toNat - '0'.toNat)) 0,
        text.dropWhile Char.isDigit)
    else none
  | [] => none

/-- A number that fits into 64 bits with a sign. -/
def number? (n : Int) (rest : List Char) : Option (Token × List Char) :=
  if isShort n then some (.number n, rest) else none

/-- The token at the start of a text, and the text behind it. -/
def token? : List Char → Option (Token × List Char)
  | [] => none
  | '=' :: '=' :: text => some (.equality, text)
  | '-' :: text => do
    let (n, rest) ← digits? text
    number? (-n) rest
  | c :: text =>
    if c = '\x22' ∨ c = '\x27' ∨ c = '\x60' then
      match text.dropWhile (· ≠ c) with
      | _ :: rest => some (.text (String.ofList (text.takeWhile (· ≠ c))), rest)
      | [] => none
    else if isNameStart c then
      let (name, rest) := namePart (c :: text)
      let (names, rest) := morePath rest.length rest
      some (.path (name :: names), rest)
    else if c.isDigit then do
      let (n, rest) ← digits? (c :: text)
      number? n rest
    else if ['~', '+', '|', '(', ')', ',', '='].contains c then some (.mark c, text)
    else none

/-- The bracket that ends a tag: whether there is a dash in it, and the text behind it. -/
def bracket? (bracket : List Char) (text : List Char) : Option (Bool × List Char) :=
  match behind? ('-' :: bracket) text with
  | some rest => some (true, rest)
  | none => (behind? bracket text).map (false, ·)

/-- What is left of a tag: its tokens, whether there is a dash in the bracket that ends it,
and the text behind it. The number bounds how many tokens there are. -/
def tokens? (bracket : List Char) :
    Nat → List Char → Option (List Token × Bool × List Char)
  | 0, _ => none
  | bound + 1, text => do
    let text := text.dropWhile isGap
    match bracket? bracket text with
    | some (dash, rest) => return ([], dash, rest)
    | none =>
      let (t, rest) ← token? text
      let (ts, dash, rest) ← tokens? bracket bound rest
      return (t :: ts, dash, rest)

/-! ### Expressions -/

/-- A token as a part of a text. -/
def part? : Token → Option Expression
  | .path names => some (.lookup names)
  | .number n => some (.number n)
  | .text s => some (.text s)
  | _ => none

/-- A token as a summand. -/
def summand? : Token → Option Expression
  | .path ["true"] => some (.truth true)
  | .path ["True"] => some (.truth true)
  | .path ["false"] => some (.truth false)
  | .path ["False"] => some (.truth false)
  | .path names => some (.lookup names)
  | .number n => some (.number n)
  | _ => none

/-- An expression and what an operator adds to it, time after time, and the tokens behind. -/
def operated? (operator : Char) (operand? : Token → Option Expression)
    (combine : Expression → Expression → Expression) :
    Expression → List Token → Option (Expression × List Token)
  | e, .mark c :: t :: rest =>
    if c = operator then do
      operated? operator operand? combine (combine e (← operand? t)) rest
    else some (e, .mark c :: t :: rest)
  | e, rest => some (e, rest)

/-- Parts of a text, a sum, or a single value at the start of tokens, and the tokens behind. -/
def term? : List Token → Option (Expression × List Token)
  | t :: .mark '~' :: rest => do
    operated? '~' part? .joined (← part? t) (.mark '~' :: rest)
  | .text s :: rest => some (.text s, rest)
  | t :: rest => do operated? '+' summand? .sum (← summand? t) rest
  | [] => none

/-- The function of a name, with its arguments, applied to an expression. -/
def applied (e : Expression) (name : String) (arguments : List (String × Expression)) :
    Expression :=
  match name with
  | "upper" => .filtered e .upper
  | "lower" => .filtered e .lower
  | "default" =>
    match arguments.lookup "value" with
    | some d => .orElse e d
    | none => .filtered e .present
  | _ => .filtered e .unknown

mutual

/-- The expression at the start of tokens, and the tokens behind it. The number bounds the
steps, here and in the functions below. -/
def expression? : Nat → List Token → Option (Expression × List Token)
  | 0, _ => none
  | bound + 1, ts => do
    let (l, ts) ← filtered? bound (← term? ts)
    match ts with
    | .equality :: ts =>
      let (r, ts) ← filtered? bound (← term? ts)
      return (.equal l r, ts)
    | _ => return (l, ts)

/-- An expression with the functions behind it applied to it. -/
def filtered? : Nat → Expression × List Token → Option (Expression × List Token)
  | 0, _ => none
  | bound + 1, (e, .mark '|' :: .path [name] :: .mark '(' :: ts) => do
    let (arguments, ts) ← arguments? bound ts
    filtered? bound (applied e name arguments, ts)
  | bound + 1, (e, .mark '|' :: .path [name] :: ts) =>
    filtered? bound (applied e name [], ts)
  | _, (e, ts) => some (e, ts)

/-- Arguments with their names, up to the closing parenthesis. -/
def arguments? : Nat → List Token → Option (List (String × Expression) × List Token)
  | 0, _ => none
  | _, .mark ')' :: ts => some ([], ts)
  | bound + 1, .path [name] :: .mark '=' :: ts => do
    let (e, ts) ← expression? bound ts
    match ts with
    | .mark ',' :: ts =>
      let (more, ts) ← arguments? bound ts
      return ((name, e) :: more, ts)
    | .mark ')' :: ts => return ([(name, e)], ts)
    | _ => none
  | _, _ => none

end

/-- The expression that tokens are. -/
def whole? (ts : List Token) : Option Expression := do
  match ← expression? (4 * ts.length + 4) ts with
  | (e, []) => some e
  | _ => none

/-! ### Texts and tags -/

/-- What a tag does. -/
inductive Action where
  /-- Print a value. -/
  | print (e : Expression)
  /-- Name a value. -/
  | name (name : String) (e : Expression)
  /-- Begin a choice. -/
  | choose (condition : Expression)
  /-- Begin the second branch of a choice. -/
  | otherwise
  /-- End a choice. -/
  | close
  /-- Nothing. -/
  | nothing
  deriving DecidableEq, Repr

/-- A text or a tag. -/
inductive Piece where
  /-- A text. -/
  | text (s : List Char)
  /-- A tag, and whether there are dashes in its opening and in its closing bracket. -/
  | tag (dashBefore dashAfter : Bool) (action : Action)
  deriving DecidableEq, Repr

/-- Whether the two characters open a tag. -/
def opensTag (c d : Char) : Bool :=
  c == '{' && (d == '{' || d == '%' || d == '#')

/-- The text before the first tag, and what is left. -/
def untilTag : List Char → List Char × List Char
  | c :: d :: rest =>
    if opensTag c d then ([], c :: d :: rest)
    else
      let (text, rest) := untilTag (d :: rest)
      (c :: text, rest)
  | text => (text, [])

/-- Whether there is a dash at the start of a text, and the text behind it. -/
def dash (text : List Char) : Bool × List Char :=
  match text with
  | '-' :: rest => (true, rest)
  | _ => (false, text)

/-- What is left of a comment: whether there is a dash in the bracket that ends it, and the
text behind it. -/
def comment? : List Char → Option (Bool × List Char)
  | [] => none
  | c :: text => bracket? ['#', '}'] (c :: text) <|> comment? text

/-- The bracket that opens a statement. -/
def statementStart : List Char := ['{', '%']

/-- The bracket that ends a statement. -/
def statementEnd : List Char := ['%', '}']

/-- What is left of a statement that is a single word. -/
def word? (word : String) (text : List Char) : Option (Bool × List Char) := do
  let text ← behind? word.toList (text.dropWhile isGap)
  bracket? statementEnd (text.dropWhile isGap)

/-- A text that is taken as it is, up to the statement that ends it: the text, the dashes in
the brackets of that statement, and what is left. -/
def verbatim? : List Char → Option (List Char × Bool × Bool × List Char)
  | [] => none
  | c :: text =>
    let ending := do
      let (before, rest) := dash (← behind? statementStart (c :: text))
      let (after, rest) ← word? "endraw" rest
      return ([], before, after, rest)
    ending <|> do
      let (s, more) ← verbatim? text
      return (c :: s, more)

/-- The statement at the start of a text, up to its closing bracket; `before` tells whether
there was a dash in the opening one. -/
def statement? (before : Bool) (text : List Char) : Option (List Piece × List Char) := do
  match word? "endif" text with
  | some (after, rest) => return ([.tag before after .close], rest)
  | none =>
  match word? "else" text with
  | some (after, rest) => return ([.tag before after .otherwise], rest)
  | none =>
  match word? "raw" text with
  | some (after, rest) =>
    let (s, before', after', rest) ← verbatim? rest
    return ([.tag before after .nothing, .text s, .tag before' after' .nothing], rest)
  | none =>
  let text := text.dropWhile isGap
  match behind? "if".toList text with
  | some rest =>
    let (ts, after, rest) ← tokens? statementEnd (rest.length + 1) rest
    return ([.tag before after (.choose (← whole? ts))], rest)
  | none =>
    let rest ← behind? "set".toList text
    match ← tokens? statementEnd (rest.length + 1) rest with
    | (.path [name] :: .mark '=' :: ts, after, rest) =>
      return ([.tag before after (.name name (← whole? ts))], rest)
    | _ => none

/-- The texts and tags of what is written; the number bounds how many there are. -/
def pieces? : Nat → List Char → Option (List Piece)
  | 0, _ => none
  | bound + 1, text =>
    match untilTag text with
    | (s, []) => some [.text s]
    | (s, _ :: kind :: rest) => do
      let (before, rest) := dash rest
      if kind = '#' then
        let (after, rest) ← comment? rest
        return .text s :: .tag before after .nothing :: (← pieces? bound rest)
      else if kind = '%' then
        let (tags, rest) ← statement? before rest
        return .text s :: tags ++ (← pieces? bound rest)
      else
        let (ts, after, rest) ← tokens? ['}', '}'] (rest.length + 1) rest
        return .text s :: .tag before after (.print (← whole? ts)) :: (← pieces? bound rest)
    | _ => none

/-! ### White space -/

/-- Whether a dash in the first tag takes off the white space before it. -/
def cutsBefore : List Piece → Bool
  | .tag before _ _ :: _ => before
  | _ => false

/-- The pieces without the white space that the dashes take off; `cut` tells whether there is
a dash right before them. -/
def trimmed (cut : Bool) : List Piece → List Piece
  | [] => []
  | .text s :: rest =>
    let s := if cut then s.dropWhile isBlank else s
    .text (if cutsBefore rest then trimEnd s else s) :: trimmed false rest
  | .tag before after action :: rest => .tag before after action :: trimmed after rest

/-! ### Choices -/

/-- A choice that has not ended. -/
structure OpenChoice where
  /-- The condition. -/
  condition : Expression
  /-- What comes before the choice, the last block first. -/
  before : List Block
  /-- The first branch, if the second has begun. -/
  first : Option (List Block)

/-- A choice whose last branch has ended. -/
def OpenChoice.close (c : OpenChoice) (last : List Block) : Block :=
  match c.first with
  | some first => .choice c.condition first last
  | none => .choice c.condition last []

/-- The template that pieces are, behind blocks, the last one first, that may stand in choices
that have not ended, the innermost first. -/
def nested? : List OpenChoice → List Block → List Piece → Option Template
  | [], done, [] => some done.reverse
  | _ :: _, _, [] => none
  | opened, done, .text s :: rest => nested? opened (.text (String.ofList s) :: done) rest
  | opened, done, .tag _ _ action :: rest =>
    match action, opened with
    | .print e, _ => nested? opened (.print e :: done) rest
    | .name name e, _ => nested? opened (.name name e :: done) rest
    | .choose condition, _ => nested? (⟨condition, done, none⟩ :: opened) [] rest
    | .otherwise, ⟨condition, before, none⟩ :: outer =>
      nested? (⟨condition, before, some done.reverse⟩ :: outer) [] rest
    | .otherwise, _ => none
    | .close, c :: outer => nested? outer (c.close done.reverse :: c.before) rest
    | .close, [] => none
    | .nothing, _ => nested? opened done rest

end Template

/-- The template that is written in a text. -/
def Template.ofText? (text : String) : Option Template := do
  nested? [] [] (trimmed false (← pieces? (text.length + 1) text.toList))

end Packetry

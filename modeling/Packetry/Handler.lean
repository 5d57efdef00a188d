import Packetry.Text.Blank
import Packetry.Text.Start
import Packetry.Text.Word

/-!
# Handlers in a text

A session handles a packet `N` in a member function `OnN`. Which packets a text already has
handlers for is read off the text itself, in one of two forms:

* a *declaration* `void OnN(…);`, which begins a line but for white space, and whose
  parameter list is all that stands before the first closing parenthesis;
* a *definition* `void S::OnN(`, anywhere behind a character that is no word character, for
  one session class `S`.

Words of the form may be set apart by any white space. A name is a run of word characters,
as long as possible and not empty. `Packetry.HandlerForm.names` reads a text from left to
right; a handler that was recognised is skipped as a whole before the next one is looked
for.
-/

namespace Packetry

open Text

/-- How handlers are written. -/
inductive HandlerForm where
  /-- As declarations in a class. -/
  | declaration
  /-- As definitions of member functions of a session class. -/
  | definition (sessionClass : String)
  deriving DecidableEq, Repr

/-! ### Recognising one handler -/

/-- The text behind any white space it starts with. -/
def behindBlanks (text : List Char) : List Char :=
  text.dropWhile isBlank

/-- The text behind one or more white space characters it starts with. -/
def behindSomeBlanks? : List Char → Option (List Char)
  | [] => none
  | c :: text => if isBlank c then some (behindBlanks text) else none

/-- A name at the start of a text, and the text behind it. -/
def name? (text : List Char) : Option (List Char × List Char) :=
  match text.takeWhile isWord with
  | [] => none
  | name => some (name, text.dropWhile isWord)

/-- A handler's name behind `On`, up to the opening parenthesis, and the text behind that. -/
def handlerName? (text : List Char) : Option (List Char × List Char) := do
  let (name, text) ← name? (← behind? "On".toList text)
  let text ← behind? ['('] (behindBlanks text)
  return (name, text)

/-- The declaration that stands at the start of a text: its name and the text behind it. -/
def declaration? (text : List Char) : Option (List Char × List Char) := do
  let text ← behind? "void".toList (behindBlanks text)
  let (name, text) ← handlerName? (← behindSomeBlanks? text)
  let text ← behind? [')'] (text.dropWhile (· ≠ ')'))
  let text ← behind? [';'] (behindBlanks text)
  return (name, text)

/-- A handler of a class behind any white space. The class may itself begin with white
space, so every white space character may be the last one before it. -/
def member? (sessionClass : List Char) : List Char → Option (List Char × List Char)
  | [] => none
  | c :: text =>
    ((behind? (sessionClass ++ "::".toList) (c :: text)).bind handlerName?) <|>
      if isBlank c then member? sessionClass text else none

/-- The definition that stands at the start of a text: its name and the text behind it. -/
def definition? (sessionClass : List Char) (text : List Char) :
    Option (List Char × List Char) := do
  match ← behind? "void".toList text with
  | c :: text => if isBlank c then member? sessionClass text else none
  | [] => none

/-! ### All handlers of a text -/

/-- Whether a line starts behind this character; behind nothing, the first line does. -/
def startsLine (before : Option Char) : Bool :=
  before.all (· = '\n')

/-- Whether a word may start behind this character. -/
def startsWord (before : Option Char) : Bool :=
  before.all (!isWord ·)

/-- The handler at the start of a text that stands behind a character. -/
def HandlerForm.here? (form : HandlerForm) (before : Option Char) (text : List Char) :
    Option (List Char × List Char) :=
  match form with
  | declaration => if startsLine before then declaration? text else none
  | definition sessionClass =>
    if startsWord before then definition? sessionClass.toList text else none

/-- The names of the handlers in a text that stands behind a character, when the first
characters, to a number, belong to a handler that was met before. -/
def HandlerForm.namesFrom (form : HandlerForm) (before : Option Char) :
    Nat → List Char → List (List Char)
  | _, [] => []
  | skip + 1, c :: text => form.namesFrom (some c) skip text
  | 0, c :: text =>
    match form.here? before (c :: text) with
    | some (name, rest) => name :: form.namesFrom (some c) (text.length - rest.length) text
    | none => form.namesFrom (some c) 0 text

/-- The names of the handlers in a text, in order. -/
def HandlerForm.names (form : HandlerForm) (text : List Char) : List String :=
  (form.namesFrom none 0 text).map String.ofList

end Packetry

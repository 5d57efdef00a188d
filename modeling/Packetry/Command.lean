import Packetry.Path

/-!
# Commands

What the generator can be asked for on a command line. A word names the command; without one,
the command is to generate. Before and behind that word come *switches*, and an option with a
value: the path of the configuration. A switch belongs to a *level*: to the line as a whole or
to one of the commands. It may be given once at each level. At the level of the whole line the
switches are those of a run, and they count only if no word names a command.
-/

namespace Packetry

/-- What is asked for. -/
inductive Command where
  /-- Write all artifacts, or only say what would be written. -/
  | generate (isDry asJson : Bool)
  /-- See whether the schema is valid. -/
  | check
  /-- Show what would be changed. -/
  | diff
  /-- List the packets. -/
  | list (asJson : Bool)
  /-- Write a configuration to a directory, even over one that is there. -/
  | init (directory : Path) (force : Bool)
  deriving DecidableEq, Repr

/-- A command, and the path of the configuration if that was given. -/
structure Invocation where
  /-- The path of the configuration. -/
  configuration : Option Path
  /-- The command. -/
  command : Command
  deriving DecidableEq, Repr

/-- Why a command line asks for no command. -/
inductive Refusal where
  /-- It breaks the rules. -/
  | misuse
  /-- It asks for the version. -/
  | version
  /-- It asks for help. -/
  | help
  deriving DecidableEq, Repr

namespace Command

/-! ### Levels and switches -/

/-- A level of the command line. -/
inductive Level where
  /-- The line as a whole. -/
  | line
  /-- The command to generate. -/
  | generate
  /-- The command to check. -/
  | check
  /-- The command to show changes. -/
  | diff
  /-- The command to list. -/
  | list
  /-- The command to write a configuration. -/
  | init
  deriving DecidableEq, Repr

/-- The level of the command that a word names. -/
def Level.ofWord? : String → Option Level
  | "generate" => some .generate
  | "check" => some .check
  | "diff" => some .diff
  | "list" => some .list
  | "init" => some .init
  | _ => none

/-- A switch. -/
inductive Switch where
  /-- Write nothing. -/
  | dryRun
  /-- Answer in JSON. -/
  | json
  /-- Write over what is there. -/
  | force
  /-- Tell more of what happens. -/
  | verbose
  /-- Ask for help. -/
  | help
  /-- Ask for the version. -/
  | version
  deriving DecidableEq, Repr

/-- The long name of a switch. -/
def Switch.name : Switch → String
  | dryRun => "dry-run"
  | json => "json"
  | force => "force"
  | verbose => "verbose"
  | help => "help"
  | version => "version"

/-- The letter of a switch, if it has one. -/
def Switch.letter? : Switch → Option Char
  | verbose => some 'v'
  | help => some 'h'
  | version => some 'V'
  | _ => none

/-- The switches of a level. -/
def Level.switches : Level → List Switch
  | line => [.dryRun, .json, .verbose, .help, .version]
  | generate => [.dryRun, .json, .verbose, .help]
  | check => [.verbose, .help]
  | diff => [.verbose, .help]
  | list => [.json, .verbose, .help]
  | init => [.force, .verbose, .help]

/-- The name of the option for the path of the configuration. -/
def configurationName : String := "config"

/-- The letter of that option. -/
def configurationLetter : Char := 'c'

/-! ### One level -/

/-- What was given at a level. -/
structure Given where
  /-- The switches. -/
  switches : List Switch
  /-- The path of the configuration. -/
  configuration : Option String
  /-- What is neither a switch nor an option. -/
  operand : Option String
  /-- Whether the path of the configuration has still to come. -/
  awaits : Bool
  deriving DecidableEq, Repr

/-- Nothing was given. -/
def Given.nothing : Given := ⟨[], none, none, false⟩

/-- One more switch. -/
def Given.addSwitch (g : Given) (s : Switch) : Except Refusal Given :=
  if s = .help then .error .help
  else if s = .version then .error .version
  else if s ∈ g.switches then .error .misuse
  else .ok { g with switches := s :: g.switches }

/-- The path of the configuration, which must not be empty. -/
def Given.addConfiguration (g : Given) (value : List Char) : Except Refusal Given :=
  if value = [] ∨ g.configuration.isSome then .error .misuse
  else .ok { g with configuration := some (String.ofList value), awaits := false }

/-- The option for the path of the configuration, whose value comes next. -/
def Given.awaitConfiguration (g : Given) : Except Refusal Given :=
  .ok { g with awaits := true }

/-- What is neither a switch nor an option: at the level that wants it, once, and not empty. -/
def Given.addOperand (g : Given) (l : Level) (text : String) : Except Refusal Given :=
  if l ≠ .init ∨ g.operand.isSome ∨ text = "" then .error .misuse
  else .ok { g with operand := some text }

/-- A switch or an option by its long name, with its value if that stands behind an equals
sign. -/
def Given.addLong (g : Given) (l : Level) (text : List Char) : Except Refusal Given :=
  let name := String.ofList (text.takeWhile (· ≠ '='))
  match text.dropWhile (· ≠ '=') with
  | _ :: value => if name = configurationName then g.addConfiguration value else .error .misuse
  | [] =>
    if name = configurationName then g.awaitConfiguration
    else
      match l.switches.find? (·.name = name) with
      | some s => g.addSwitch s
      | none => .error .misuse

/-- Switches by their letters; the letter of the option may come last, with its value or
before it. -/
def Given.addLetters (g : Given) (l : Level) : List Char → Except Refusal Given
  | [] => .ok g
  | c :: rest =>
    if c = configurationLetter then
      match rest with
      | [] => g.awaitConfiguration
      | '=' :: value => g.addConfiguration value
      | value => g.addConfiguration value
    else
      match l.switches.find? (·.letter? = some c) with
      | some s => do (← g.addSwitch s).addLetters l rest
      | none => .error .misuse

/-- One more argument. -/
def Given.add (g : Given) (l : Level) (argument : String) : Except Refusal Given :=
  let text := argument.toList
  match text with
  | '-' :: '-' :: name => if g.awaits then .error .misuse else g.addLong l name
  | '-' :: c :: letters => if g.awaits then .error .misuse else g.addLetters l (c :: letters)
  | _ => if g.awaits then g.addConfiguration text else g.addOperand l argument

/-- Arguments none of which is a switch or an option. -/
def Given.addOperands (g : Given) (l : Level) : List String → Except Refusal Given
  | [] => if g.awaits then .error .misuse else .ok g
  | argument :: rest => do (← g.addOperand l argument).addOperands l rest

/-! ### The whole line -/

/-- The path of an option. -/
def pathOf (text : Option String) : Option Path :=
  text.map Path.mk

/-- The command of a level, by what was given at it. -/
def ofGiven (l : Level) (g : Given) : Command :=
  let has := fun s => decide (s ∈ g.switches)
  match l with
  | .line => .generate (has .dryRun) (has .json)
  | .generate => .generate (has .dryRun) (has .json)
  | .check => .check
  | .diff => .diff
  | .list => .list (has .json)
  | .init => .init ⟨g.operand.getD "."⟩ (has .force)

/-- Read the arguments at a level and those behind them. What was given at the level around
it is known; the path of the configuration counts that is given last. Behind two dashes there
are operands only. -/
def read (outer : Option String) (l : Level) (g : Given) :
    List String → Except Refusal Invocation
  | [] =>
    if g.awaits then .error .misuse
    else .ok ⟨pathOf (g.configuration <|> outer), ofGiven l g⟩
  | argument :: rest =>
    if argument = "--" then do
      let g ← g.addOperands l rest
      return ⟨pathOf (g.configuration <|> outer), ofGiven l g⟩
    else
      match Level.ofWord? argument with
      | some inner =>
        if l = .line ∧ !g.awaits then read g.configuration inner .nothing rest
        else do read outer l (← g.add l argument) rest
      | none =>
        if l = .line ∧ !g.awaits ∧ argument = "help" then .error .help
        else do read outer l (← g.add l argument) rest

end Command

/-- What a command line asks for. -/
def Invocation.ofArguments (arguments : List String) : Except Refusal Invocation :=
  Command.read none .line .nothing arguments

end Packetry

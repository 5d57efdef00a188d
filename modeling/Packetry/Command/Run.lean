import Packetry.Command
import Packetry.Command.Report
import Packetry.Config.Settings

/-!
# Running commands

What the generator does on a command line: it ends with a code and has printed a text. The code
is `0` if all went well, `1` if what was asked for failed, and `2` if the line breaks the
rules. A failure is printed in one line with all that it stems from.
-/

namespace Packetry

open Disk

/-- How a command ended. -/
structure Ending where
  /-- The code. -/
  code : Nat
  /-- What was printed. -/
  output : String
  deriving DecidableEq, Repr

namespace Ending

/-- All went well. -/
def success (output : String) : Ending := ⟨0, output⟩

/-- Something failed, for a chain of causes. -/
def failed (causes : List String) : Ending :=
  ⟨1, printed ["error: " ++ String.intercalate ": " causes]⟩

end Ending

/-- The name and the version of the generator. -/
def versionText : String :=
  "pktgen 0.1.0"

/-- The line that tells how to call the generator. -/
def usageText : String :=
  "Usage: pktgen [OPTIONS] [COMMAND]"

/-- What is printed for a line that asks for no command. -/
def Refusal.ending : Refusal → Ending
  | misuse => ⟨2, ""⟩
  | version => .success (printed [versionText])
  | help => .success (printed [usageText])

namespace Command

/-- The configuration: that of the path, or that of the working directory. -/
def loadConfig (p : Option Path) : Program (Except Ending Config) := do
  match p with
  | some p =>
    match ← Config.load p with
    | .ok config => return .ok config
    | .error fault =>
      return .error (.failed (s!"failed to load config '{p.text}'" :: fault.causes))
  | none =>
    match ← Config.discover (← Program.workingDirectory) with
    | .ok config => return .ok config
    | .error fault => return .error (.failed ("failed to load pktgen.yaml" :: fault.causes))

/-- Write all artifacts. -/
def runGenerate (config : Config) (isDry asJson : Bool) : Program Ending := do
  match ← Packetry.generate config isDry with
  | .error failure => return .failed ("code generation failed" :: failure.causes)
  | .ok report =>
    return .success (if asJson then printed [report.toJson.print] else report.text)

/-- See whether the schema is valid. -/
def runCheck (config : Config) : Program Ending := do
  let p := config.schemaPath
  match ← loadValid config with
  | .error failure =>
    return .failed (s!"schema check failed for '{p.text}'" :: failure.causes)
  | .ok packets => return .success (printed [s!"✓ {p.text} ({packets.length} packets)"])

/-- Show what would be changed. -/
def runDiff (config : Config) : Program Ending := do
  match ← compareWithPlan config with
  | .error failure => return .failed ("diff failed" :: failure.causes)
  | .ok changes => return .success (changesText changes)

/-- List the packets, be they valid or not. -/
def runList (config : Config) (asJson : Bool) : Program Ending := do
  let p := config.schemaPath
  match ← Schema.load p config.schemaKey with
  | .error fault => return .failed (s!"failed to load schema '{p.text}'" :: fault.causes)
  | .ok packets =>
    return .success <|
      if asJson then printed [(Json.list (packets.map (·.toJson))).print]
      else packetTable packets

/-- Write the default configuration to a directory. -/
def runInit (directory : Path) (force : Bool) : Program Ending := do
  let p := directory.join ⟨Config.fileName⟩
  if !force && (← Program.exists? p) then
    return .failed [s!"{p.text} already exists (use --force to overwrite)"]
  else
    match ← Program.makeDirectories (directory.text.length + 1) directory with
    | .error e => return .failed [s!"cannot create '{directory.text}'", e.message]
    | .ok () =>
      match ← Program.write p (Config.toText {}).toUTF8 with
      | .error e => return .failed [s!"cannot write '{p.text}'", e.message]
      | .ok () =>
        return .success <| printed [s!"✓ Wrote {p.text}",
          "  Run `pktgen` in that directory to scaffold and generate."]

end Command

/-- Run a command with the configuration that it wants. -/
def Invocation.run (i : Invocation) : Program Ending := do
  let withConfig := fun (run : Config → Program Ending) => do
    match ← Command.loadConfig i.configuration with
    | .error ending => return ending
    | .ok config => run config
  match i.command with
  | .generate isDry asJson => withConfig (Command.runGenerate · isDry asJson)
  | .check => withConfig Command.runCheck
  | .diff => withConfig Command.runDiff
  | .list asJson => withConfig (Command.runList · asJson)
  | .init directory force => Command.runInit directory force

/-- What the generator does with its arguments. -/
def runArguments (arguments : List String) : Program Ending :=
  match Invocation.ofArguments arguments with
  | .ok invocation => invocation.run
  | .error refusal => return refusal.ending

end Packetry

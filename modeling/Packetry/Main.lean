import Packetry.Command.Run

/-!
# The program

The generator as a program: a command is run on the disk of the computer, by performing one
operation after the other.
-/

open System (FilePath)

namespace Packetry

open Disk

/-! ### Failures of the operating system -/

/-- The number of a failure of the operating system, and what it says. -/
def osCause : IO.Error → Nat × String
  | .alreadyExists _ code details => (code.toNat, details)
  | .otherError code details => (code.toNat, details)
  | .resourceBusy code details => (code.toNat, details)
  | .resourceVanished code details => (code.toNat, details)
  | .unsupportedOperation code details => (code.toNat, details)
  | .hardwareFault code details => (code.toNat, details)
  | .unsatisfiedConstraints code details => (code.toNat, details)
  | .illegalOperation code details => (code.toNat, details)
  | .protocolError code details => (code.toNat, details)
  | .timeExpired code details => (code.toNat, details)
  | .interrupted _ code details => (code.toNat, details)
  | .noFileOrDirectory _ code details => (code.toNat, details)
  | .invalidArgument _ code details => (code.toNat, details)
  | .permissionDenied _ code details => (code.toNat, details)
  | .resourceExhausted _ code details => (code.toNat, details)
  | .inappropriateType _ code details => (code.toNat, details)
  | .noSuchThing _ code details => (code.toNat, details)
  | .unexpectedEof => (0, "unexpected end of file")
  | .userError text => (0, text)

/-- A failure of the operating system as a failure of the disk. -/
def diskError (e : IO.Error) : Disk.Error :=
  let (code, details) := osCause e
  match code with
  | 2 => .notFound
  | 16 => .busy
  | 17 => .exists
  | 20 => .notDirectory
  | 21 => .isDirectory
  | 22 => .invalidArgument
  | 36 => .nameTooLong
  | 39 => .notEmpty
  | _ => .other s!"{details} (os error {code})"

/-- Try an operation of the operating system. -/
def attempt {α : Type} (action : IO α) : IO (Except Disk.Error α) := do
  match ← action.toBaseIO with
  | .ok value => return .ok value
  | .error e => return .error (diskError e)

/-! ### Operations -/

/-- Perform one operation. -/
def perform : (operation : Operation) → IO operation.Answer
  | .read p => attempt (IO.FS.readBinFile p.text)
  | .exists? p => FilePath.pathExists p.text
  | .isDirectory p => FilePath.isDir p.text
  | .isFile p => do
    match ← attempt (FilePath.metadata p.text) with
    | .ok data => return data.type == .file
    | .error _ => return false
  | .list p => attempt do
    return (← FilePath.readDir p.text).toList.map (·.fileName)
  | .makeDirectory p => attempt (IO.FS.createDir p.text)
  | .write p bytes => attempt (IO.FS.writeBinFile p.text bytes)
  | .rename source target => attempt (IO.FS.rename source.text target.text)
  | .remove p => attempt (IO.FS.removeFile p.text)
  | .workingDirectory => return ⟨(← IO.currentDir).toString⟩

/-- Perform all operations of a program. -/
def performAll {α : Type} : Program α → IO α
  | .done value => return value
  | .ask operation next => do performAll (next (← perform operation))

end Packetry

/-- The generator. -/
def main (arguments : List String) : IO UInt32 := do
  let ending ← Packetry.performAll (Packetry.runArguments arguments)
  IO.print ending.output
  return ending.code.toUInt32

import Packetry.Packet.Validation
import Packetry.Scaffold
import Packetry.Schema

/-!
# Failures

Why a run of the generator did not come to its end. No artifact is half written then.
-/

namespace Packetry

/-- Why a run failed. -/
inductive Failure where
  /-- There is no schema. -/
  | schema (fault : SchemaFault)
  /-- The packets are not valid. -/
  | invalid (report : Report)
  /-- The region of an artifact cannot be found. -/
  | structural (p : Path) (fault : Region.Fault)
  /-- An artifact is not text; its bytes are, up to an offset. -/
  | notText (p : Path) (offset : Nat)
  /-- A file that is missing has no scaffold. -/
  | scaffold (fault : ScaffoldFault)
  /-- Files could not be written. -/
  | write (failure : WriteFailure)

/-- The text of a failure. -/
def Failure.message : Failure → String
  | schema fault => s!"schema error: {fault.message}"
  | invalid report => report.message
  | structural p fault => s!"{p.text}: {fault.message}"
  | notText p offset =>
    s!"{p.text} is not valid UTF-8 (first invalid byte at offset {offset}); " ++
      "managed artifacts must be saved as UTF-8"
  | scaffold fault => s!"render error: {fault.message}"
  | write failure => failure.message

/-- The texts of a failure and of what it stems from. -/
def Failure.causes (failure : Failure) : List String :=
  failure.message ::
    match failure with
    | schema fault => fault.causes
    | invalid _ => []
    | structural _ fault => [fault.message]
    | notText _ _ => []
    | scaffold fault => fault.causes
    | write failure => failure.causes.tail

end Packetry

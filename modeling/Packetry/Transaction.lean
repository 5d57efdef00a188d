import Packetry.Digest
import Packetry.Disk

/-!
# Transactions

A *transaction* replaces files all together or not at all. Each new content is first *staged*
as a copy beside its target. A commit then works through the copies in order: if the target
already has the content of its copy, by digest, the copy is removed; otherwise the target, if
there is one, becomes its own backup and the copy takes its place. If that fails for one
target, the targets replaced before are restored and the copies that are left are removed;
if it fails for none, the backups are removed.

A *dry* transaction stages nothing. It compares digests at once and reports what would be
written.
-/

namespace Packetry

open Disk

/-- What became of a file. -/
inductive Outcome where
  /-- The file was written. -/
  | written (p : Path)
  /-- The file already had the content. -/
  | unchanged (p : Path)
  /-- The file would have been written. -/
  | wouldWrite (p : Path)
  deriving DecidableEq, Repr

/-- The file. -/
def Outcome.path : Outcome → Path
  | written p => p
  | unchanged p => p
  | wouldWrite p => p

/-- Whether the file has, or would have, a new content. -/
def Outcome.isChange : Outcome → Bool
  | unchanged _ => false
  | _ => true

/-- The path of the staged copy for a target. -/
def stagingPath (target : Path) : Path :=
  target.withEnding ".pktgen.tmp"

/-- The path of the backup of a target. -/
def backupPath (target : Path) : Path :=
  target.withEnding ".pktgen.bak"

/-- Why files could not be written. -/
inductive WriteFailure where
  /-- A copy could not be staged. -/
  | staging (p : Path) (cause : Disk.Error)
  /-- A copy could not take the place of its target. -/
  | commit (p : Path) (cause : Disk.Error)
  /-- Some other access to a file failed. -/
  | access (p : Path) (cause : Disk.Error)
  deriving DecidableEq, Repr

/-- The text of a failure. -/
def WriteFailure.message : WriteFailure → String
  | staging p cause => s!"failed to stage {p.text}: {cause.message}"
  | commit p cause => s!"failed to commit {p.text}: {cause.message}"
  | access p cause => s!"I/O error at {p.text}: {cause.message}"

/-- The texts of a failure and of what it stems from. -/
def WriteFailure.causes (failure : WriteFailure) : List String :=
  failure.message ::
    match failure with
    | staging _ cause => [cause.message]
    | commit _ cause => [cause.message]
    | access _ cause => [cause.message]

/-! ### Single files -/

/-- The digest of a file, if it is there. -/
def digestOf (p : Path) : Program (Except Disk.Error (Option String)) := do
  match ← Program.read p with
  | .ok bytes => return .ok (some (digest bytes))
  | .error .notFound => return .ok none
  | .error e => return .error e

/-- Write a file outside a transaction: beside its place first, and then into it. -/
def replaceFile (p : Path) (bytes : ByteArray) : Program (Except WriteFailure Unit) := do
  let copy := stagingPath p
  match ← Program.writeWithParents copy bytes with
  | .error e => return .error (.access copy e)
  | .ok () =>
    match ← Program.rename copy p with
    | .ok () => return .ok ()
    | .error e =>
      let _ ← Program.remove copy
      return .error (.access p e)

/-- Remove files, as far as that is possible. -/
def removeAll : List Path → Program Unit
  | [] => return ()
  | p :: rest => do
    let _ ← Program.remove p
    removeAll rest

/-! ### Staging -/

/-- A copy that was staged. -/
structure Staged where
  /-- The file to be replaced. -/
  target : Path
  /-- The digest of the copy. -/
  digest : String
  deriving DecidableEq, Repr

/-- The path of the copy. -/
def Staged.copy (s : Staged) : Path :=
  stagingPath s.target

/-- A set of files to be replaced together. -/
structure Transaction where
  /-- Whether nothing is to be written. -/
  isDry : Bool
  /-- The staged copies, in the order of staging. -/
  staged : List Staged
  /-- What a dry transaction found, in the order of staging. -/
  planned : List Outcome
  deriving DecidableEq, Repr

namespace Transaction

/-- A transaction without files. -/
def new (isDry : Bool) : Transaction :=
  ⟨isDry, [], []⟩

/-- Give up what was staged. -/
def rollback (t : Transaction) : Program Transaction := do
  removeAll (t.staged.map (·.copy))
  return { t with staged := [] }

/-- What a dry transaction finds for a target and a content with some digest. -/
def compare (target : Path) (new : String) : Program (Except WriteFailure Outcome) := do
  match ← digestOf target with
  | .error e => return .error (.access target e)
  | .ok current =>
    return .ok (if current = some new then .unchanged target else .wouldWrite target)

/-- Stage a content for a target. If that fails, all that was staged is given up. -/
def stage (t : Transaction) (target : Path) (content : ByteArray) :
    Program (Except WriteFailure Unit × Transaction) := do
  let new := digest content
  if t.isDry then
    match ← compare target new with
    | .error e => return (.error e, t)
    | .ok outcome => return (.ok (), { t with planned := t.planned ++ [outcome] })
  else
    let copy := stagingPath target
    match ← Program.writeWithParents copy content with
    | .error e =>
      let _ ← Program.remove copy
      let t' ← t.rollback
      return (.error (.staging copy e), t')
    | .ok () => return (.ok (), { t with staged := t.staged ++ [⟨target, new⟩] })

/-! ### Committing -/

/-- A target that was replaced. -/
structure Replaced where
  /-- The target. -/
  target : Path
  /-- Whether it was there before and has a backup. -/
  hasBackup : Bool
  deriving DecidableEq, Repr

/-- Move a target out of the way, if it is there. The answer tells whether it was. -/
def backUp (target : Path) : Program (Except Disk.Error Bool) := do
  if ← Program.exists? target then
    match ← Program.rename target (backupPath target) with
    | .error e => return .error e
    | .ok () => return .ok true
  else return .ok false

/-- Put a copy into the place of its target, which was moved out of the way if it was there.
If that fails, the target is moved back. -/
def swap (s : Staged) (hasBackup : Bool) : Program (Except Disk.Error Unit) := do
  match ← Program.rename s.copy s.target with
  | .ok () => return .ok ()
  | .error e =>
    if hasBackup then
      let _ ← Program.rename (backupPath s.target) s.target
    let _ ← Program.remove s.copy
    return .error e

/-- Replace one target by its copy. The answer is nothing if they had the same content. -/
def commitOne (s : Staged) : Program (Except Disk.Error (Option Replaced)) := do
  match ← digestOf s.target with
  | .error e => return .error e
  | .ok current =>
    if current = some s.digest then
      match ← Program.remove s.copy with
      | .error e => return .error e
      | .ok () => return .ok none
    else
      match ← backUp s.target with
      | .error e => return .error e
      | .ok hasBackup =>
        match ← swap s hasBackup with
        | .error e => return .error e
        | .ok () => return .ok (some ⟨s.target, hasBackup⟩)

/-- Undo replacements, in the order of the list. -/
def restore : List Replaced → Program Unit
  | [] => return ()
  | r :: rest => do
    let _ ← if r.hasBackup then Program.rename (backupPath r.target) r.target
      else Program.remove r.target
    restore rest

/-- Commit the copies of a list, after some targets were replaced, the last one first. -/
def commitFrom (replaced : List Replaced) (outcomes : List Outcome) :
    List Staged → Program (Except WriteFailure (List Outcome))
  | [] => do
    removeAll ((replaced.reverse.filter (·.hasBackup)).map fun r => backupPath r.target)
    return .ok outcomes
  | s :: rest => do
    match ← commitOne s with
    | .ok none => commitFrom replaced (outcomes ++ [.unchanged s.target]) rest
    | .ok (some r) => commitFrom (r :: replaced) (outcomes ++ [.written s.target]) rest
    | .error e =>
      restore replaced
      removeAll ((s :: rest).map (·.copy))
      return .error (.commit s.target e)

/-- Replace every target by its copy, or none of them. -/
def commit (t : Transaction) : Program (Except WriteFailure (List Outcome)) :=
  if t.isDry then return .ok t.planned else commitFrom [] [] t.staged

end Transaction

end Packetry

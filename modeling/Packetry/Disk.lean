import Packetry.Disk.Tree

/-!
# Programs on the disk

A program that works on the disk is a value: it is done, or it asks for one operation and
goes on with the answer. The operations are the indivisible ones of the operating system.
The same program can be run on a `Packetry.Disk.Tree`, by `Packetry.Disk.Program.run`, and on
a real disk, by a loop that performs one operation after the other.
-/

namespace Packetry.Disk

/-- One operation on the disk. -/
inductive Operation where
  /-- Read a file. -/
  | read (p : Path)
  /-- Ask whether something is at a path. -/
  | exists? (p : Path)
  /-- Ask whether a directory is at a path. -/
  | isDirectory (p : Path)
  /-- Ask whether a regular file is at a path. -/
  | isFile (p : Path)
  /-- List the names in a directory. -/
  | list (p : Path)
  /-- Make a directory. -/
  | makeDirectory (p : Path)
  /-- Write a file. -/
  | write (p : Path) (bytes : ByteArray)
  /-- Rename a file. -/
  | rename (source target : Path)
  /-- Remove a file. -/
  | remove (p : Path)
  /-- Ask for the working directory. -/
  | workingDirectory

/-- The type of the answer to an operation. -/
def Operation.Answer : Operation → Type
  | .read _ => Except Error ByteArray
  | .exists? _ => Bool
  | .isDirectory _ => Bool
  | .isFile _ => Bool
  | .list _ => Except Error (List String)
  | .makeDirectory _ => Except Error Unit
  | .write _ _ => Except Error Unit
  | .rename _ _ => Except Error Unit
  | .remove _ => Except Error Unit
  | .workingDirectory => Path

/-- A program on the disk with a result. -/
inductive Program (α : Type) where
  /-- The program has ended. -/
  | done (value : α)
  /-- The program asks for an operation and goes on with the answer. -/
  | ask (operation : Operation) (next : operation.Answer → Program α)

namespace Program

variable {α β : Type}

/-- One program after another. -/
def bind : Program α → (α → Program β) → Program β
  | done value, f => f value
  | ask operation next, f => ask operation fun answer => (next answer).bind f

instance : Monad Program where
  pure := done
  bind := bind

/-! ### Single operations -/

/-- Read a file. -/
def read (p : Path) : Program (Except Error ByteArray) := ask (.read p) done

/-- Ask whether something is at a path. -/
def exists? (p : Path) : Program Bool := ask (.exists? p) done

/-- Ask whether a directory is at a path. -/
def isDirectory (p : Path) : Program Bool := ask (.isDirectory p) done

/-- Ask whether a regular file is at a path. -/
def isFile (p : Path) : Program Bool := ask (.isFile p) done

/-- List the names in a directory. -/
def list (p : Path) : Program (Except Error (List String)) := ask (.list p) done

/-- Make a directory. -/
def makeDirectory (p : Path) : Program (Except Error Unit) := ask (.makeDirectory p) done

/-- Write a file. -/
def write (p : Path) (bytes : ByteArray) : Program (Except Error Unit) :=
  ask (.write p bytes) done

/-- Rename a file. -/
def rename (source target : Path) : Program (Except Error Unit) :=
  ask (.rename source target) done

/-- Remove a file. -/
def remove (p : Path) : Program (Except Error Unit) := ask (.remove p) done

/-- Ask for the working directory. -/
def workingDirectory : Program Path := ask .workingDirectory done

end Program

/-! ### Running on a tree -/

/-- The path of a place. -/
def Place.path (place : Place) : Path :=
  ⟨"/" ++ String.intercalate "/" place.reverse⟩

/-- A change of a tree, as an answer and the tree after it: a failure changes nothing. -/
def Tree.commit (t : Tree) : Except Error Tree → Except Error Unit × Tree
  | .ok t' => (.ok (), t')
  | .error e => (.error e, t)

/-- An operation on a tree: the answer and the tree after it. -/
def Tree.perform (t : Tree) : (operation : Operation) → operation.Answer × Tree
  | .read p => (t.read p, t)
  | .exists? p => (t.exists? p, t)
  | .isDirectory p => (t.isDirectory p, t)
  | .isFile p => (t.isFile p, t)
  | .list p => (t.list p, t)
  | .makeDirectory p => t.commit (t.makeDirectory p)
  | .write p bytes => t.commit (t.write p bytes)
  | .rename source target => t.commit (t.rename source target)
  | .remove p => t.commit (t.remove p)
  | .workingDirectory => (t.workingDirectory.path, t)

namespace Program

variable {α β : Type}

/-- The result of a program that is run on a tree, and the tree after it. -/
def run : Program α → Tree → α × Tree
  | done value, t => (value, t)
  | ask operation next, t =>
    let answer := t.perform operation
    (next answer.1).run answer.2

/-- A finished program changes nothing. -/
@[simp] theorem run_pure (value : α) (t : Tree) : (pure value : Program α).run t = (value, t) :=
  rfl

/-- Programs in sequence are run in sequence. -/
@[simp] theorem run_bind (p : Program α) (f : α → Program β) (t : Tree) :
    (p >>= f).run t = (f (p.run t).1).run (p.run t).2 := by
  induction p generalizing t with
  | done value => rfl
  | ask operation next ih => exact ih _ _

/-! ### Compound operations -/

/-- Read a file as text. -/
def readText (p : Path) : Program (Except Error String) := do
  match ← read p with
  | .ok bytes => return (String.fromUTF8? bytes).elim (.error .notText) .ok
  | .error e => return .error e

/-- Make a directory and those above it that are missing. The number bounds how far the
missing ones go up. -/
def makeDirectories : Nat → Path → Program (Except Error Unit)
  | 0, _ => return .error .noTree
  | bound + 1, p => do
    if p.text = "" then return .ok ()
    match ← makeDirectory p with
    | .ok () => return .ok ()
    | .error .notFound =>
      match p.parent? with
      | none => return .error .noTree
      | some parent =>
        match ← makeDirectories bound parent with
        | .error e => return .error e
        | .ok () => settle p (← makeDirectory p)
    | .error e => settle p (.error e)
where
  /-- A directory that could not be made may be there all the same. -/
  settle (p : Path) : Except Error Unit → Program (Except Error Unit)
    | .ok () => return .ok ()
    | .error e => do return if ← isDirectory p then .ok () else .error e

/-- Write a file, after the directories above it have been made. -/
def writeWithParents (p : Path) (bytes : ByteArray) : Program (Except Error Unit) := do
  match p.parent? with
  | none => write p bytes
  | some parent =>
    match ← makeDirectories (parent.text.length + 1) parent with
    | .error e => return .error e
    | .ok () => write p bytes

end Program

end Packetry.Disk

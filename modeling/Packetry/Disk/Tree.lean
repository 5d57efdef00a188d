import Packetry.Disk.Error
import Packetry.Path

/-!
# File trees

The disk as a value: a finite map from *places* to entries, and the place of the working
directory. A place is the list of the names that lead to it from the root, the innermost
first, so that the tail of a place is the place of its directory. The root itself is always
there and is a directory.

`Packetry.Disk.Tree.find` walks a path from the root or from the working directory, segment
by segment; `Packetry.Disk.Tree.spot` walks to the directory of its last segment, which need
not be there itself. Each operation that changes a tree is a total function: it gives the
new tree, or the reason why nothing was changed.
-/

namespace Packetry.Disk

/-- What is at a place. -/
inductive Entry where
  /-- A directory. -/
  | directory
  /-- A regular file and its bytes. -/
  | file (bytes : ByteArray)
  /-- A special file, which reads as empty and forgets what is written to it. -/
  | device

/-- Whether the entry is a directory. -/
def Entry.isDirectory : Entry → Bool
  | .directory => true
  | _ => false

/-- The names that lead to an entry, the innermost first. -/
abbrev Place := List String

/-- A disk. -/
structure Tree where
  /-- The entries below the root, each with its place. -/
  entries : List (Place × Entry)
  /-- The place that relative paths start from. -/
  workingDirectory : Place

namespace Tree

/-! ### The map -/

/-- What is at a place. -/
def lookup (t : Tree) : Place → Option Entry
  | [] => some .directory
  | place => t.entries.lookup place

/-- The tree with nothing at a place. What lies below the place is not touched. -/
def erase (t : Tree) (place : Place) : Tree :=
  { t with entries := t.entries.filter (·.1 ≠ place) }

/-- The tree with an entry put at a place. -/
def insert (t : Tree) (place : Place) (entry : Entry) : Tree :=
  { t with entries := t.entries.filter (·.1 ≠ place) ++ [(place, entry)] }

/-- Whether a place is a directory. -/
def isDirectoryAt (t : Tree) (place : Place) : Bool :=
  (t.lookup place).any Entry.isDirectory

/-- The names of the entries of a directory. -/
def namesIn (t : Tree) (place : Place) : List String :=
  t.entries.filterMap fun entry =>
    match entry.1 with
    | name :: directory => if directory = place then some name else none
    | [] => none

/-- The tree with a place, and all that lies below it, moved to another place. -/
def move (t : Tree) (source target : Place) : Tree :=
  let moved := fun (entry : Place × Entry) =>
    if source <:+ entry.1 then
      (entry.1.take (entry.1.length - source.length) ++ target, entry.2)
    else entry
  { t with entries := (t.erase target).entries.map moved }

/-! ### Walking a path -/

/-- The greatest number of bytes of a name. -/
def nameLimit : Nat := 255

/-- The greatest number of bytes of a path. -/
def pathLimit : Nat := 4095

/-- One step of a walk: from a directory to what a segment of the path names there. -/
def step (t : Tree) (place : Place) (segment : String) : Except Error Place :=
  if !t.isDirectoryAt place then .error .notDirectory
  else if segment = "" ∨ segment = "." then .ok place
  else if segment = ".." then .ok place.tail
  else if nameLimit < segment.utf8ByteSize then .error .nameTooLong
  else if (t.lookup (segment :: place)).isNone then .error .notFound
  else .ok (segment :: place)

/-- A walk along segments. -/
def walk (t : Tree) (place : Place) : List String → Except Error Place
  | [] => .ok place
  | segment :: rest => do t.walk (← t.step place segment) rest

/-- Where the walk along a path starts, and its segments; or why the path cannot be walked
at all. -/
def start (t : Tree) (p : Path) : Except Error (Place × List String) :=
  if p.text.toList.contains '\x00' then .error .zeroInPath
  else if p.text = "" then .error .notFound
  else if pathLimit < p.text.utf8ByteSize then .error .nameTooLong
  else
    .ok (if p.isAbsolute then [] else t.workingDirectory,
      (Path.segmentsOf p.text.toList).map String.ofList)

/-- The place that a path leads to; something is there. -/
def find (t : Tree) (p : Path) : Except Error Place := do
  let (place, segments) ← t.start p
  t.walk place segments

/-- The end of a path as a name in a directory. -/
structure Spot where
  /-- The directory. -/
  directory : Place
  /-- The name, which need not be in the directory. -/
  name : String
  /-- Whether a slash follows the name. -/
  slash : Bool

/-- The place of a spot. -/
def Spot.place (s : Spot) : Place :=
  s.name :: s.directory

/-- The spot that a path leads to. A path that ends at the root or with a dot segment has
none. -/
def spot? (t : Tree) (p : Path) : Except Error (Option Spot) := do
  let (place, segments) ← t.start p
  match (segments.reverse.dropWhile (· = "")) with
  | [] => return none
  | last :: before =>
    let directory ← t.walk place before.reverse
    if !t.isDirectoryAt directory then throw .notDirectory
    if last = "." ∨ last = ".." then return none
    return some ⟨directory, last, segments.getLast? = some ""⟩

/-- What is at a spot, if its name is not too long. -/
def at? (t : Tree) (s : Spot) : Except Error (Option Entry) :=
  if nameLimit < s.name.utf8ByteSize then .error .nameTooLong else .ok (t.lookup s.place)

/-! ### Looking -/

/-- Whether a path leads to something. -/
def exists? (t : Tree) (p : Path) : Bool :=
  (t.find p).isOk

/-- Whether a path leads to a directory. -/
def isDirectory (t : Tree) (p : Path) : Bool :=
  match t.find p with
  | .ok place => t.isDirectoryAt place
  | .error _ => false

/-- Whether a path leads to a regular file. -/
def isFile (t : Tree) (p : Path) : Bool :=
  match t.find p with
  | .ok place => match t.lookup place with
    | some (.file _) => true
    | _ => false
  | .error _ => false

/-- The bytes of the file that a path leads to. -/
def read (t : Tree) (p : Path) : Except Error ByteArray := do
  match t.lookup (← t.find p) with
  | some (.file bytes) => return bytes
  | some .directory => throw .isDirectory
  | some .device => return .empty
  | none => throw .notFound

/-- The names of the entries of the directory that a path leads to. -/
def list (t : Tree) (p : Path) : Except Error (List String) := do
  let place ← t.find p
  if t.isDirectoryAt place then return t.namesIn place else throw .notDirectory

/-! ### Changing -/

/-- Makes a directory. -/
def makeDirectory (t : Tree) (p : Path) : Except Error Tree := do
  match ← t.spot? p with
  | none => throw .exists
  | some s =>
    match ← t.at? s with
    | some _ => throw .exists
    | none => return t.insert s.place .directory

/-- Writes a file, which need not be there before. -/
def write (t : Tree) (p : Path) (bytes : ByteArray) : Except Error Tree := do
  match ← t.spot? p with
  | none => throw .isDirectory
  | some s =>
    if s.slash then throw .isDirectory
    match ← t.at? s with
    | some .directory => throw .isDirectory
    | some .device => return t
    | _ => return t.insert s.place (.file bytes)

/-- Removes a file. -/
def remove (t : Tree) (p : Path) : Except Error Tree := do
  match ← t.spot? p with
  | none => throw .isDirectory
  | some s =>
    match ← t.at? s with
    | none => throw .notFound
    | some .directory => throw .isDirectory
    | some _ => if s.slash then throw .notDirectory else return t.erase s.place

/-- Renames a file or a directory. What is at the new name is replaced: a file by a file,
an empty directory by a directory. -/
def rename (t : Tree) (source target : Path) : Except Error Tree := do
  let old? ← t.spot? source
  let new? ← t.spot? target
  match old?, new? with
  | some old, some new =>
    match ← t.at? old with
    | none => throw .notFound
    | some entry =>
      let replaced ← t.at? new
      if !entry.isDirectory && (old.slash || new.slash) then throw .notDirectory
      if old.place <:+ new.directory then throw .invalidArgument
      if new.place <:+ old.directory then throw .notEmpty
      if old.place = new.place then return t
      match entry.isDirectory, replaced with
      | false, some .directory => throw .isDirectory
      | true, some .directory =>
        if t.namesIn new.place ≠ [] then throw .notEmpty
        return t.move old.place new.place
      | true, some _ => throw .notDirectory
      | _, _ => return t.move old.place new.place
  | _, _ => throw .busy

end Tree

end Packetry.Disk

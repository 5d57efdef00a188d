/-!
# Failures of the disk

Why an operation on the disk failed. Each cause has the text by which it is reported; for
the causes that the operating system gives, the text ends with their number.
-/

namespace Packetry.Disk

/-- Why an operation on the disk failed. -/
inductive Error where
  /-- Nothing is there, or a directory on the way is missing. -/
  | notFound
  /-- A name is held by something else. -/
  | busy
  /-- Something is there already. -/
  | exists
  /-- Something on the way is not a directory. -/
  | notDirectory
  /-- A directory is where a file is wanted. -/
  | isDirectory
  /-- A directory would become part of itself. -/
  | invalidArgument
  /-- A name or a path is too long. -/
  | nameTooLong
  /-- A directory still has entries. -/
  | notEmpty
  /-- A path holds the character zero. -/
  | zeroInPath
  /-- A file that is read as text is not text. -/
  | notText
  /-- No directory of a path could be made. -/
  | noTree
  /-- Any other cause, by its text. -/
  | other (text : String)
  deriving DecidableEq, Repr

/-- The text of a cause. -/
def Error.message : Error → String
  | .notFound => "No such file or directory (os error 2)"
  | .busy => "Device or resource busy (os error 16)"
  | .exists => "File exists (os error 17)"
  | .notDirectory => "Not a directory (os error 20)"
  | .isDirectory => "Is a directory (os error 21)"
  | .invalidArgument => "Invalid argument (os error 22)"
  | .nameTooLong => "File name too long (os error 36)"
  | .notEmpty => "Directory not empty (os error 39)"
  | .zeroInPath => "file name contained an unexpected NUL byte"
  | .notText => "stream did not contain valid UTF-8"
  | .noTree => "failed to create whole tree"
  | .other text => text

end Packetry.Disk

/-!
# File systems

The few operations on files that the program needs, in whatever monad a file system lives. An
operation that fails says why, and the reason has one text.
-/

namespace SchemaHistory.Files

/-- Why an operation on files **failed**. -/
inductive Fault
  | notFound
  | busy
  | alreadyExists
  | notFolder
  | isFolder
  | invalidArgument
  | nameTooLong
  | notEmpty
  | nulInName
  | notText
  /-- A reason that only the system knows. -/
  | other (reason : String)
  deriving DecidableEq

/-- The reason as the system words it. -/
def Fault.message : Fault → String
  | notFound => "No such file or directory (os error 2)"
  | busy => "Device or resource busy (os error 16)"
  | alreadyExists => "File exists (os error 17)"
  | notFolder => "Not a directory (os error 20)"
  | isFolder => "Is a directory (os error 21)"
  | invalidArgument => "Invalid argument (os error 22)"
  | nameTooLong => "File name too long (os error 36)"
  | notEmpty => "Directory not empty (os error 39)"
  | nulInName => "file name contained an unexpected NUL byte"
  | notText => "stream did not contain valid UTF-8"
  | other reason => reason

/-- A **file system**. -/
structure System (m : Type → Type) where
  /-- Whether there is a file or folder at a path. -/
  has : String → m Bool
  /-- The text of a file. -/
  read : String → m (Except Fault String)
  /-- Stores a text in a file, which is created if need be. -/
  write : String → String → m (Except Fault Unit)
  /-- The names of the files, without the folders, directly inside a folder. -/
  fileNames : String → m (Except Fault (List String))
  /-- Creates a folder and all folders above it. -/
  makeFolders : String → m (Except Fault Unit)
  /-- Moves a file or folder to another path. -/
  move : String → String → m (Except Fault Unit)

end SchemaHistory.Files

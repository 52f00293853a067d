import SchemaHistory.Files.System
import SchemaHistory.Files.Path
import SchemaHistory.Store
import SchemaHistory.Text.Quoted

/-!
# Migrations in folders

The store that lives in a file system: migrations are the files of one folder in the order of
their names, scripts go into a second folder, and archiving moves a migration into a third one.
Archiving into the folder where the migrations are is no move at all.
-/

namespace SchemaHistory

/-- The **folders** of a squash, and how scripts are named. -/
structure Folders where
  migrations : String
  output : String
  archive : Option String := none
  extension : String := "php"
  date : Date

namespace Folders

open Files

/-- What failed on folders, at which path and why. -/
inductive Fault
  | createFolder (path : String) (cause : Files.Fault)
  | readFolder (path : String) (cause : Files.Fault)
  | readMigration (path : String) (cause : Files.Fault)
  | moveMigration (source target : String) (cause : Files.Fault)
  | writeScript (path : String) (cause : Files.Fault)
  deriving DecidableEq

/-- The reason in words. -/
def Fault.message : Fault → String
  | createFolder path cause =>
    "Failed to create directory: " ++ Text.quoted path ++ ": " ++ cause.message
  | readFolder path cause =>
    "Failed to read migration directory: " ++ Text.quoted path ++ ": " ++ cause.message
  | readMigration path cause =>
    "Failed to read migration: " ++ Text.quoted path ++ ": " ++ cause.message
  | moveMigration source target cause =>
    "Failed to move " ++ Text.quoted source ++ " to " ++ Text.quoted target ++ ": " ++ cause.message
  | writeScript path cause =>
    "Failed to write squashed migration: " ++ Text.quoted path ++ ": " ++ cause.message

/-- The folder into which migrations are **moved**, if they are moved at all. -/
def archiveTarget? (f : Folders) : Option String :=
  match f.archive with
  | some folder => if Path.same folder f.migrations then none else some folder
  | none => none

/-- Whether migrations are moved. -/
def archives (f : Folders) : Bool :=
  f.archiveTarget?.isSome

variable {m : Type → Type} [Monad m]

/-- Creates folders that are not there, up to the first that cannot be created. -/
def createMissing (fs : System m) : List String → m (Except Fault Unit)
  | [] => return .ok ()
  | path :: rest => do
    if ← fs.has path then createMissing fs rest
    else
      match ← fs.makeFolders path with
      | .error cause => return .error (.createFolder path cause)
      | .ok _ => createMissing fs rest

/-- Creates the folders that a squash writes to. -/
def setUp (f : Folders) (fs : System m) : m (Except Fault Unit) :=
  createMissing fs (f.output :: f.archive.toList)

/-- Reads migrations, up to the first that cannot be read. -/
def readAll (f : Folders) (fs : System m) : List String → m (Except Fault (List Migration))
  | [] => return .ok []
  | name :: rest => do
    let path := Path.join f.migrations name
    match ← fs.read path with
    | .error cause => return .error (.readMigration path cause)
    | .ok text =>
      match ← f.readAll fs rest with
      | .error e => return .error e
      | .ok ms => return .ok (⟨name, text⟩ :: ms)

/-- The migrations, in the order of their names. -/
def list (f : Folders) (fs : System m) : m (Except Fault (List Migration)) := do
  match ← fs.fileNames f.migrations with
  | .error cause => return .error (.readFolder f.migrations cause)
  | .ok names => f.readAll fs (names.mergeSort fun a b => decide (a ≤ b))

/-- The path of a script. -/
def scriptPath (f : Folders) (index : Nat) (table : String) : String :=
  Path.join f.output (scriptFileName f.date index table f.extension)

/-- Writes a script, and says where. -/
def write (f : Folders) (fs : System m) (script : Script) : m (Except Fault String) := do
  let path := f.scriptPath script.index script.table
  match ← fs.write path script.content with
  | .error cause => return .error (.writeScript path cause)
  | .ok _ => return .ok path

/-- Moves a migration into the archive, if there is one. -/
def moveAway (f : Folders) (fs : System m) (name : String) : m (Except Fault Unit) :=
  match f.archiveTarget? with
  | none => return .ok ()
  | some folder => do
    let source := Path.join f.migrations name
    let target := Path.join folder name
    match ← fs.move source target with
    | .error cause => return .error (.moveMigration source target cause)
    | .ok _ => return .ok ()

/-- The folders as a **store**. -/
def store (f : Folders) (fs : System m) : Store m where
  list := do return (← f.list fs).mapError Fault.message
  write script := do return (← f.write fs script).mapError Fault.message
  save path text := do return (← fs.write path text).mapError Files.Fault.message
  archive name := do return (← f.moveAway fs name).mapError Fault.message

end Folders

end SchemaHistory

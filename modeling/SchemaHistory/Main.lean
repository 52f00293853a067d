import SchemaHistory.CommandLine
import Std.Time.Zoned

/-!
# The program

Runs a command on the file system of the machine.
-/

namespace SchemaHistory

open Files

/-- A fault of the machine. -/
def Files.Fault.ofError : IO.Error → Fault
  | .noFileOrDirectory .. => .notFound
  | .alreadyExists _ 39 _ => .notEmpty
  | .alreadyExists .. => .alreadyExists
  | .inappropriateType _ 21 _ => .isFolder
  | .inappropriateType .. => .notFolder
  | .resourceBusy .. => .busy
  | .permissionDenied .. => .other "Permission denied (os error 13)"
  | e => .other e.toString

/-- The outcome of an operation on the machine, with its fault as a value. -/
def settle {α : Type} (action : IO α) : IO (Except Fault α) := do
  return (← action.toBaseIO).mapError Fault.ofError

/-- The **file system** of the machine. -/
def Files.machine : System IO where
  has path := do
    if path.isEmpty then return false
    ((← IO.currentDir) / path).pathExists
  read path := do
    match ← settle (IO.FS.readBinFile path) with
    | .error f => return .error f
    | .ok bytes =>
      match String.fromUTF8? bytes with
      | some text => return .ok text
      | none => return .error .notText
  write path text := settle (IO.FS.writeFile path text)
  fileNames path := settle do
    let entries ← ((← IO.currentDir) / path).readDir
    let files ← entries.filterM fun e => return !(← e.path.isDir)
    return (files.map (·.fileName)).toList
  makeFolders path := settle (IO.FS.createDirAll path)
  move old new := settle (IO.FS.rename old new)

/-- The date of today. -/
def Date.today : IO Date := do
  let now := (← Std.Time.PlainDateTime.now).date
  return (Date.of? now.year now.month.val.toNat now.day.val.toNat).getD default

end SchemaHistory

open SchemaHistory in
/-- Runs the command that the arguments ask for. -/
def main (words : List String) : IO UInt32 := do
  match CommandLine.Invocation.ofWords? words with
  | none =>
    IO.eprintln "usage: squash [--config FILE] [--log-level LEVEL] squash|plan|init [OPTIONS]"
    return 2
  | some i =>
    match ← i.run Files.machine (← Date.today) with
    | .error f =>
      IO.eprintln ("Error: " ++ f.record)
      return 1
    | .ok lines =>
      lines.forM IO.println
      return 0

import SchemaHistory.CommandLine.Arguments
import SchemaHistory.Settings.File
import SchemaHistory.Squash

/-!
# Commands

What each command does with a file system, and what it prints. A command reads the settings, lets
the command line overrule them, and works in the folders that they name. What is printed is known
only after everything has succeeded, so a command that fails prints nothing.
-/

namespace SchemaHistory.CommandLine

/-- A text filled up with blanks on the left. -/
def padLeft (width : Nat) (s : String) : String :=
  "".pushn ' ' (width - s.length) ++ s

/-- A text filled up with blanks on the right. -/
def padRight (width : Nat) (s : String) : String :=
  s.pushn ' ' (width - s.length)

/-! ### What is printed -/

/-- One table of a plan. -/
def tableLine (index : Nat) (t : Table) (name : String) : String :=
  padLeft 4 (toString index) ++ "  " ++ padRight 32 name ++ " " ++ toString t.columns.size ++
    " columns, " ++ toString t.relationships.length ++ " foreign keys"

/-- The lines of a **plan**: how many migrations there are, the tables in order, and what was
skipped. -/
def planLines (p : Plan) : List String :=
  (toString p.sourceCount ++ " migrations replayed, " ++ toString p.schemaSources.length ++
      " with schema operations") ::
    p.order.zipIdx.filterMap (fun e => (p.schema.table? e.1).map (tableLine e.2 · e.1)) ++
    p.diagnostics.map fun f => "warning: " ++ f.message

/-- A script, as it is shown when nothing is written. -/
def scriptLines (s : Script) : List String :=
  ["// " ++ Date.zeroFilled 6 s.index ++ " " ++ s.table, s.content]

/-- What a run has written and moved. -/
def effectLines (r : Report) (moveTo : String) : List String :=
  r.written.map (fun path => "✓ Squashed migration written: " ++ path) ++
    if r.archived.isEmpty then []
    else ["Moved " ++ toString r.archived.length ++ " migrations to " ++ moveTo]

/-- What a run has skipped. -/
def skippedLines (diagnostics : List Failure) : List String :=
  if diagnostics.isEmpty then []
  else
    (toString diagnostics.length ++ " statements were skipped:") ::
      diagnostics.map fun f => "  " ++ f.message

/-! ### The commands -/

variable {m : Type → Type} [Monad m]

/-- The settings for a command: what is in the file, overruled by the command line. -/
def Invocation.settings (i : Invocation) (fs : Files.System m) : m (Except Failure Settings) := do
  return (← Settings.load fs i.config).map (·.withFolders i.migrations i.output i.moveTo)

/-- Shows the plan for the migrations. -/
def runPlan (i : Invocation) (fs : Files.System m) (date : Date) :
    m (Except Failure (List String)) := do
  match ← i.settings fs with
  | .error f => return .error f
  | .ok s => return (← ((s.folders date).store fs).plan).map planLines

/-- Squashes in the folders of the settings. -/
def squashIn (s : Settings) (fs : Files.System m) (date : Date) :
    m (Except Failure (List String)) := do
  let folders := s.folders date
  match ← folders.setUp fs with
  | .error f => return .error (.io f.message)
  | .ok _ =>
    let run ← (folders.store fs).squash { snapshot := s.snapshotPath? }
    return run.map fun r => effectLines r s.moveTo ++ skippedLines r.plan.diagnostics

/-- Shows the scripts of a squash, and writes and moves nothing. -/
def rehearseIn (s : Settings) (fs : Files.System m) (date : Date) :
    m (Except Failure (List String)) := do
  let run ← ((s.folders date).store fs).squash { dryRun := true }
  return run.map fun r => r.scripts.flatMap scriptLines ++ skippedLines r.plan.diagnostics

/-- Squashes the migrations, or shows what that would write. -/
def runSquash (i : Invocation) (dryRun snapshot : Bool) (fs : Files.System m) (date : Date) :
    m (Except Failure (List String)) := do
  match ← i.settings fs with
  | .error f => return .error f
  | .ok s =>
    let s := { s with snapshot := s.snapshot || snapshot }
    if dryRun then rehearseIn s fs date else squashIn s fs date

/-- Stores the settings in the settings file, which is created if there is none. -/
def storeSettings (i : Invocation) (s : Settings) (isThere : Bool) (fs : Files.System m) :
    m (Except Failure (List String)) := do
  if isThere then
    return (← s.updateFile fs i.config).map fun _ => ["✓ Updated " ++ i.config]
  else
    return (← s.save fs i.config).map fun _ => ["✓ Created " ++ i.config]

/-- Creates a settings file, or updates one if that is wanted. -/
def runInit (i : Invocation) (extension : Option String) (update : Bool) (fs : Files.System m) :
    m (Except Failure (List String)) := do
  let isThere ← fs.has i.config
  if isThere && !update then
    return .error (.usage (i.config ++ " already exists, pass --update to merge into it"))
  else
    match ← i.settings fs with
    | .error f => return .error f
    | .ok s =>
      storeSettings i { s with extension := extension.getD s.extension } isThere fs

/-- **Runs** a command, and answers the lines that it prints. -/
def Invocation.run (i : Invocation) (fs : Files.System m) (date : Date) :
    m (Except Failure (List String)) :=
  match i.command with
  | .squash dryRun snapshot => runSquash i dryRun snapshot fs date
  | .plan => runPlan i fs date
  | .init extension update => runInit i extension update fs

end SchemaHistory.CommandLine

import SchemaHistory.Files.Tree
import SchemaHistory.Squash

/-!
# Rehearsals

A store that lives in memory. It holds its migrations, remembers which effects have succeeded,
and can be told to fail, so a run can be rehearsed together with everything that may go wrong.
-/

namespace SchemaHistory

/-- An operation of a store that is told to **fail**, in general or for one subject. -/
structure Hindrance where
  /-- The table or migration for which the operation fails; for every one if there is none. -/
  subject : Option String := none
  /-- Why it fails, from the outermost reason to the innermost. -/
  reasons : List String := []

/-- The reason for which an operation on a subject fails, if it does. -/
def Hindrance.reason? (h : Hindrance) (subject : String) : Option String :=
  if h.reasons.isEmpty then none
  else
    match h.subject with
    | none => some (": ".intercalate h.reasons)
    | some s => if s = subject then some (": ".intercalate h.reasons) else none

/-- What a rehearsal is given. -/
structure Rehearsal where
  migrations : List Migration
  listing : Hindrance := {}
  writing : Hindrance := {}
  archiving : Hindrance := {}

/-- What a rehearsal remembers. -/
structure RehearsalState where
  /-- The effects that have succeeded, in order. -/
  log : List Effect := []
  /-- The files that were saved. -/
  files : Files.Tree := {}

namespace Rehearsal

/-- An operation that fails if it is told to, and otherwise changes the state. -/
def attempt {α : Type} (h : Hindrance) (subject : String) (answer : α)
    (change : RehearsalState → RehearsalState) : StateM RehearsalState (Except String α) := fun s =>
  match h.reason? subject with
  | some reason => (.error reason, s)
  | none => (.ok answer, change s)

/-- The place of a script in a rehearsal. -/
def scriptPath (script : Script) : String :=
  "out/" ++ toString script.index ++ "_" ++ script.table

/-- A rehearsal as a **store**. -/
def store (r : Rehearsal) : Store (StateM RehearsalState) where
  list := attempt r.listing "" r.migrations id
  write script := attempt r.writing script.table (scriptPath script) fun s =>
    { s with log := s.log ++ [.write script] }
  save path text := fun s =>
    match s.files.write path text with
    | .ok files => (.ok (), { s with files })
    | .error f => (.error f.message, s)
  archive name := attempt r.archiving name () fun s => { s with log := s.log ++ [.archive name] }

end Rehearsal

end SchemaHistory

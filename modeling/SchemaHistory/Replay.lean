import SchemaHistory.Replay.Call
import SchemaHistory.Schema
import SchemaHistory.Source.Lines
import SchemaHistory.Statement

/-!
# Replaying migrations

A replay carries the cumulative schema through the statements of one migration after the other. It
also knows which table's block is open and what has been reported so far.

One statement is one step, and a step has an **outcome**: the replay goes on, the source ends
here, or a failure ends the run. A failure leaves the replay in the state that the step has
reached, so the steps are functions to a state *and* an outcome.
-/

namespace SchemaHistory

/-- A **migration**: the name of its source, which sorts by time, and its text. -/
structure Migration where
  name : String
  text : String
  deriving DecidableEq, Inhabited

/-- The **state** of a replay. -/
structure Replay where
  schema : Schema := {}
  /-- The name of the table whose block is open. -/
  current : Option String := none
  /-- What was reported, in order. -/
  diagnostics : List Failure := []
  deriving DecidableEq, Inhabited

namespace Replay

/-- The outcome of one line. -/
inductive Outcome
  /-- The replay goes on; the flag says whether the line was a schema operation. -/
  | proceed (operation : Bool)
  /-- Nothing behind this line is replayed. -/
  | stop
  /-- The run ends. -/
  | fail (failure : Failure)
  deriving DecidableEq

/-- The state with more diagnostics. -/
def report (r : Replay) (fs : List Failure) : Replay :=
  { r with diagnostics := r.diagnostics ++ fs }

/-- A table directive: a table is opened, and created if need be, or dropped. -/
def direct (r : Replay) (verb : TableVerb) (table : String) : Replay :=
  match verb with
  | .create | .alter => { r with schema := r.schema.openTable table, current := some table }
  | .drop => { r with schema := r.schema.drop table, current := none }

/-- A table is renamed. The open table stays open under its new name. -/
def rename (r : Replay) (old new : String) (location : Location) : Replay :=
  match r.schema.rename? old new with
  | none => r.report [.unknownTable old location]
  | some renamed =>
    { r with
      schema := renamed.schema
      current := if r.current = some old then some new else r.current
      diagnostics := r.diagnostics ++
        if renamed.replaced.isSome then [.tableReplaced new location] else [] }

/-- A raw alteration, of whatever table it names. -/
def alter (r : Replay) (a : Alteration) (location : Location) : Replay :=
  match r.schema.table? a.table with
  | none => r.report [.unknownTable a.table location]
  | some t =>
    let effect := t.alter a location
    { r with schema := r.schema.setTable a.table effect.1 }.report effect.2

/-- A property of the open table gets a value. -/
def assign (r : Replay) (property value : String) : Replay :=
  match r.current with
  | none => r
  | some name => { r with schema := r.schema.modifyTable name (·.assign property value) }

/-- Calls on the open table. -/
def call (r : Replay) (chain : Chain) (location : Location) : Replay × Option Failure :=
  match chain.head?, r.current with
  | some head, some name =>
    let schema := r.schema.openTable name
    match (schema.tableOrNew name).apply name head chain location with
    | .ok effect => ({ r with schema := schema.setTable name effect.1 }.report effect.2, none)
    | .error f => ({ r with schema }, some f)
  | _, _ => (r, none)

/-- The step of one **statement**. -/
def step (r : Replay) (s : Statement) (location : Location) : Replay × Outcome :=
  match s with
  | .downBoundary => (r, .stop)
  | .blockClose => ({ r with current := none }, .proceed false)
  | .query _ => (r, .proceed false)
  | .alteration a => (r.alter a location, .proceed true)
  | .renameTable old new => (r.rename old new location, .proceed true)
  | .directive verb table => (r.direct verb table, .proceed true)
  | .assignment property value => (r.assign property value, .proceed false)
  | .calls chain =>
    match r.call chain location with
    | (r', none) => (r', .proceed false)
    | (r', some f) => (r', .fail f)

theorem fst_step_calls (r : Replay) (chain : Chain) (l : Location) :
    (r.step (.calls chain) l).1 = (r.call chain l).1 := by
  rw [step]
  split <;> rename_i heq <;> rw [heq]

/-- The step of one logical **line**. -/
def line (r : Replay) (text : String) (location : Location) : Replay × Outcome :=
  match Statement.recognize text.toList r.current.isSome location with
  | .error f => (r, .fail f)
  | .ok none => (r, .proceed false)
  | .ok (some s) => r.step s location

/-- The steps of the logical lines of a source, the first of which has the number `n`. The answer
says whether one of them was a schema operation. -/
def lines (source : String) (n : Nat) (operation : Bool) (r : Replay) :
    List String → Replay × Except Failure Bool
  | [] => (r, .ok operation)
  | text :: rest =>
    match r.line text ⟨source, n⟩ with
    | (r', .fail f) => (r', .error f)
    | (r', .stop) => (r', .ok operation)
    | (r', .proceed b) => lines source (n + 1) (operation || b) r' rest

/-- Replays the forward direction of one **source**. No block is open before and after it, except
that a failure leaves the replay as it stands. -/
def source (r : Replay) (m : Migration) : Replay × Except Failure Bool :=
  match lines m.name 1 false { r with current := none } (Source.normalize m.text) with
  | (r', .ok b) => ({ r' with current := none }, .ok b)
  | (r', .error f) => (r', .error f)

/-- Replays sources until one fails, and gives the names of those with schema operations. -/
def sources (r : Replay) : List Migration → Replay × Except Failure (List String)
  | [] => (r, .ok [])
  | m :: rest =>
    match r.source m with
    | (r', .error f) => (r', .error f)
    | (r', .ok b) =>
      match r'.sources rest with
      | (r'', .ok names) => (r'', .ok (if b then m.name :: names else names))
      | (r'', .error f) => (r'', .error f)

end Replay

end SchemaHistory

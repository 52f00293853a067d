import SchemaHistory.Order
import SchemaHistory.Schema.Snapshot
import SchemaHistory.Store

/-!
# Squashing

Squashing replaces a history of migrations by one script for each table of the schema that it
leads to. It first makes a **plan**: the migrations are replayed and the tables are ordered. From
the plan follow the **effects**, a list that is known before the first of them happens: a script
is written for each table in order, a snapshot is saved if one is wanted, and the migrations that
changed the schema are archived. The effects are carried out one after the other, and the first
one that fails is the last one that is tried.
-/

namespace SchemaHistory

/-- The result of replaying and ordering, before anything is written. -/
structure Plan where
  schema : Schema
  order : List String
  diagnostics : List Failure
  /-- The names of the migrations with schema operations, in the order of the replay. -/
  schemaSources : List String
  sourceCount : Nat
  deriving DecidableEq

/-- The **plan** for a list of migrations. -/
def Plan.ofMigrations (ms : List Migration) : Except Failure Plan :=
  match Replay.sources {} ms with
  | (_, .error f) => .error f
  | (r, .ok names) =>
    r.schema.order.map fun order =>
      { schema := r.schema, order, diagnostics := r.diagnostics, schemaSources := names
        sourceCount := ms.length }

/-- The scripts that a plan asks for. -/
def Plan.scripts (p : Plan) : List Script :=
  p.schema.scripts p.order

/-- What a run may do besides planning. -/
structure SquashOptions where
  /-- Nothing is written and nothing is archived. -/
  dryRun : Bool := false
  /-- Where a snapshot of the schema goes. -/
  snapshot : Option String := none

/-- One **effect** of a run. -/
inductive Effect
  | write (script : Script)
  | save (path text : String)
  | archive (name : String)
  deriving DecidableEq

/-- The **effects** of a plan, in the order in which they happen. -/
def Plan.effects (p : Plan) (o : SquashOptions) : List Effect :=
  if o.dryRun then []
  else
    p.scripts.map .write ++ (o.snapshot.map fun path => .save path p.schema.snapshot).toList ++
      p.schemaSources.map .archive

/-- What a run has done. -/
structure Report where
  plan : Plan
  scripts : List Script
  /-- Where the scripts went. -/
  written : List String := []
  /-- The names of the migrations that were archived. -/
  archived : List String := []
  deriving DecidableEq

variable {m : Type → Type} [Monad m]

/-- The plan for the migrations of a store. -/
def Store.plan (store : Store m) : m (Except Failure Plan) := do
  match ← store.list with
  | .error reason => return .error (.io reason)
  | .ok ms => return Plan.ofMigrations ms

/-- Carries out one effect and enters it in the report. -/
def Store.perform (store : Store m) (r : Report) : Effect → m (Except Failure Report)
  | .write script => do
    match ← store.write script with
    | .error reason => return .error (.io reason)
    | .ok path => return .ok { r with written := r.written ++ [path] }
  | .save path text => do
    match ← store.save path text with
    | .error reason => return .error (.io reason)
    | .ok _ => return .ok r
  | .archive name => do
    match ← store.archive name with
    | .error reason => return .error (.io reason)
    | .ok _ => return .ok { r with archived := r.archived ++ [name] }

/-- Carries out effects up to the first that fails. -/
def Store.performAll (store : Store m) (r : Report) : List Effect → m (Except Failure Report)
  | [] => return .ok r
  | e :: rest => do
    match ← store.perform r e with
    | .error f => return .error f
    | .ok r' => store.performAll r' rest

/-- **Squashes** the migrations of a store. -/
def Store.squash (store : Store m) (o : SquashOptions) : m (Except Failure Report) := do
  match ← store.plan with
  | .error f => return .error f
  | .ok plan => store.performAll { plan, scripts := plan.scripts } (plan.effects o)

end SchemaHistory

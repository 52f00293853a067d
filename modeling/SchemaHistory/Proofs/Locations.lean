import SchemaHistory.Replay

/-!
# Statements and their locations

A line is replayed together with its location, but the location decides nothing. It is handed down
to whatever may report or fail, and comes out again in what is reported. So moving a line moves its
reports, and changes nothing else.

This is said once for every function that is given a location: to compute at one location and to
**move** the failures in the result to another one (`SchemaHistory.Failure.moveTo`) is to compute
at the other one. The last of these equations, `SchemaHistory.Replay.moveTo_line`, is the one for a
line. There the replay brings along what it has reported before, which is moved as well.
-/

namespace SchemaHistory

namespace Failure

/-- The **location** of the statement that a failure is about. Failures of a run as a whole have
none. -/
def location? : Failure → Option Location
  | unsupportedOperation _ _ l | unknownTable _ l | unknownColumn _ _ l | tableReplaced _ l
  | unrecognizedCall _ l | malformedStatement _ l => some l
  | io _ | settings _ | usage _ | unresolvableOrder _ => none

/-- The same failure of a statement at another location. -/
def moveTo (l : Location) : Failure → Failure
  | unsupportedOperation call table _ => unsupportedOperation call table l
  | unknownTable table _ => unknownTable table l
  | unknownColumn table column _ => unknownColumn table column l
  | tableReplaced table _ => tableReplaced table l
  | unrecognizedCall call _ => unrecognizedCall call l
  | malformedStatement reason _ => malformedStatement reason l
  | f => f

theorem location?_moveTo (f : Failure) (l : Location) :
    (f.moveTo l).location? = f.location?.map fun _ => l := by
  cases f <;> rfl

end Failure

variable (k l : Location)

/-! ### Definitions -/

/-- What is made of a result does not depend on the location of a failure. -/
theorem mapError_map {α β : Type} (g : α → β) (x : Except Failure α) :
    (x.map g).mapError (Failure.moveTo l) = (x.mapError (Failure.moveTo l)).map g := by
  cases x <;> rfl

theorem Column.moveTo_ofHead (type : ColumnType) (head : Call) :
    (ofHead type head k).mapError (Failure.moveTo l) = ofHead type head l := by
  rw [ofHead, ofHead]
  split
  · rfl
  · split <;> rfl

theorem Column.moveTo_ofChain (type : ColumnType) (chain : Chain) :
    (ofChain type chain k).mapError (Failure.moveTo l) = ofChain type chain l := by
  rw [ofChain, ofChain]
  split
  · rfl
  · rw [mapError_map, moveTo_ofHead]

theorem Relationship.moveTo_ofChain (chain : Chain) :
    (ofChain chain k).mapError (Failure.moveTo l) = ofChain chain l := by
  rw [ofChain, ofChain]
  split <;> rfl

/-! ### Calls and raw alterations -/

namespace Table

/-- The effect of a call at another location. -/
def Effect.moveTo (l : Location) : Effect → Effect
  | .ok (t, fs) => .ok (t, fs.map (Failure.moveTo l))
  | .error f => .error (f.moveTo l)

/-- Of an effect that reports nothing, only the failure is moved. -/
theorem moveTo_map {α : Type} (g : α → Table) (x : Except Failure α) :
    Effect.moveTo l (x.map fun a => (g a, [])) =
      (x.mapError (Failure.moveTo l)).map fun a => (g a, []) := by
  cases x <;> rfl

variable (t : Table)

theorem moveTo_makeUnique (key : String) (head : Call) :
    Effect.moveTo l (t.makeUnique key head k) = t.makeUnique key head l := by
  rw [makeUnique, makeUnique]
  split
  · split <;> rfl
  · rfl

theorem moveTo_renameByCall (key : String) (head : Call) :
    Effect.moveTo l (t.renameByCall key head k) = t.renameByCall key head l := by
  rw [renameByCall, renameByCall]
  split
  · split <;> rfl
  · rfl

theorem moveTo_define (type : ColumnType) (chain : Chain) :
    Effect.moveTo l (t.define type chain k) = t.define type chain l := by
  rw [define, define, ← Column.moveTo_ofChain k l]
  exact moveTo_map l _ _

theorem moveTo_applyBuilder (head : Call) (chain : Chain) :
    Effect.moveTo l (t.applyBuilder head chain k) = t.applyBuilder head chain l := by
  rw [applyBuilder, applyBuilder]
  split
  · rfl
  · split
    · exact moveTo_define k l t _ chain
    · rfl

theorem moveTo_apply (key : String) (head : Call) (chain : Chain) :
    Effect.moveTo l (t.apply key head chain k) = t.apply key head chain l := by
  rw [apply, apply]
  split
  case h_3 => exact moveTo_makeUnique k l t key head
  case h_4 => exact moveTo_renameByCall k l t key head
  case h_7 =>
    rw [← Relationship.moveTo_ofChain k l]
    exact moveTo_map l _ _
  case h_12 => exact moveTo_applyBuilder k l t head chain
  all_goals rfl

theorem moveTo_alter (a : Alteration) :
    ((t.alter a k).1, (t.alter a k).2.map (Failure.moveTo l)) = t.alter a l := by
  rw [alter, alter]
  dsimp only
  split
  · split <;> rfl
  · split <;> rfl

end Table

/-! ### Recognition -/

namespace Statement

theorem moveTo_tableDirective (verb : TableVerb) (call : Call) :
    (tableDirective verb call k).mapError (Failure.moveTo l) = tableDirective verb call l := by
  rw [tableDirective, tableDirective]
  split <;> rfl

theorem moveTo_ofDirectiveCall (call : Call) :
    (ofDirectiveCall call k).mapError (Failure.moveTo l) = ofDirectiveCall call l := by
  rw [ofDirectiveCall, ofDirectiveCall]
  split
  · split <;> rfl
  · exact moveTo_tableDirective k l _ call
  · exact moveTo_tableDirective k l _ call
  · exact moveTo_tableDirective k l _ call
  · exact moveTo_tableDirective k l _ call
  · rfl

theorem moveTo_ofSchemaChain (chain : Chain) :
    (ofSchemaChain chain k).mapError (Failure.moveTo l) = ofSchemaChain chain l := by
  rw [ofSchemaChain, ofSchemaChain]
  split
  · exact moveTo_ofDirectiveCall k l _
  · rfl

/-- **A line is recognised alike at every location.** -/
theorem moveTo_recognize (line : List Char) (inTable : Bool) :
    (recognize line inTable k).mapError (Failure.moveTo l) = recognize line inTable l := by
  rw [recognize, recognize]
  split
  · rfl
  split
  · rfl
  split
  · rfl
  split
  · rw [mapError_map, moveTo_ofSchemaChain]
  · split <;> rfl

variable {k}

/-- What a line is recognised as does not depend on where it stands. -/
theorem recognize_eq_ok {line : List Char} {inTable : Bool} {s : Option Statement}
    (h : recognize line inTable k = .ok s) : recognize line inTable l = .ok s := by
  rw [← moveTo_recognize k l, h]
  rfl

end Statement

/-! ### Replays -/

namespace Replay

/-- The replay with all that it has reported moved to one location. -/
def moveTo (l : Location) (r : Replay) : Replay :=
  { r with diagnostics := r.diagnostics.map (Failure.moveTo l) }

/-- The outcome of a line at another location. -/
def Outcome.moveTo (l : Location) : Outcome → Outcome
  | .fail f => .fail (f.moveTo l)
  | o => o

variable (r : Replay)

theorem schema_moveTo : (r.moveTo l).schema = r.schema := rfl

theorem current_moveTo : (r.moveTo l).current = r.current := rfl

theorem moveTo_report (fs : List Failure) :
    (r.report fs).moveTo l = (r.moveTo l).report (fs.map (Failure.moveTo l)) := by
  simp only [report, moveTo, List.map_append]

theorem moveTo_alter (a : Alteration) : (r.alter a k).moveTo l = (r.moveTo l).alter a l := by
  rw [alter, alter, schema_moveTo]
  split
  · rw [moveTo_report]
    rfl
  · rename_i t _
    simp only [← Table.moveTo_alter k l t]
    exact moveTo_report l _ _

theorem moveTo_rename (old new : String) :
    (r.rename old new k).moveTo l = (r.moveTo l).rename old new l := by
  rw [rename, rename, schema_moveTo]
  split
  · rw [moveTo_report]
    rfl
  · rename_i renamed _
    simp only [moveTo, List.map_append]
    cases renamed.replaced <;> rfl

theorem moveTo_call (chain : Chain) :
    ((r.call chain k).1.moveTo l, (r.call chain k).2.map (Failure.moveTo l)) =
      (r.moveTo l).call chain l := by
  rw [call, call, schema_moveTo, current_moveTo]
  split
  · simp only [← Table.moveTo_apply k l]
    rcases Table.apply _ _ _ _ k with f | ⟨t, fs⟩
    · rfl
    · simp only [Table.Effect.moveTo, moveTo_report]
      rfl
  · rfl

theorem moveTo_step (s : Statement) :
    ((r.step s k).1.moveTo l, (r.step s k).2.moveTo l) = (r.moveTo l).step s l := by
  cases s with
  | downBoundary => rfl
  | blockClose => rfl
  | query verb => rfl
  | alteration a => exact Prod.ext (moveTo_alter k l r a) rfl
  | renameTable old new => exact Prod.ext (moveTo_rename k l r old new) rfl
  | directive verb table => cases verb <;> rfl
  | assignment property value =>
    refine Prod.ext ?_ rfl
    simp only [step, assign, moveTo]
    split <;> rfl
  | calls chain =>
    rw [step, step, ← moveTo_call k l]
    rcases r.call chain k with ⟨r', _ | f⟩ <;> rfl

/-- **A line does the same at every location**, and reports it there. -/
theorem moveTo_line (text : String) :
    ((r.line text k).1.moveTo l, (r.line text k).2.moveTo l) = (r.moveTo l).line text l := by
  rw [line, line, current_moveTo, ← Statement.moveTo_recognize k l]
  rcases Statement.recognize text.toList r.current.isSome k with f | _ | s
  · rfl
  · rfl
  · exact moveTo_step k l r s

end Replay

end SchemaHistory

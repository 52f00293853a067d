import Mathlib.Control.Monad.Basic
import SchemaHistory.Proofs.Replays
import SchemaHistory.Squash

/-!
# Sources without schema operations

A history holds more than changes of the schema: some migrations only fill tables. The replay of a
source says whether it met a **schema operation**, that is a table directive, a rename or a raw
alteration, and a squash archives the sources that did. The others stay where they are, and will
be read again together with the scripts, so they had better do nothing.

They do nothing because of the block context. A call or an assignment is no schema operation,
but it only acts while the block of a table is open; a block is only opened by a directive, and no
block is open where a source begins. So as long as no operation was met, the replay is in the state
in which the source found it (`SchemaHistory.Replay.source_inert`), and such sources may be deleted
from a history (`SchemaHistory.Replay.Thinned`) without a trace in its schema, its diagnostics and
its plan (`SchemaHistory.Replay.inert`).
-/

namespace SchemaHistory

namespace Replay

variable {r : Replay}

/-- The state in which no block is open. -/
def closed (r : Replay) : Replay :=
  { r with current := none }

theorem schema_closed (r : Replay) : r.closed.schema = r.schema := rfl

theorem diagnostics_closed (r : Replay) : r.closed.diagnostics = r.diagnostics := rfl

/-! ### One source -/

/-- Outside all blocks, a statement is a schema operation or does nothing. -/
theorem step_inert (hr : r.current = none) (s : Statement) (l : Location) :
    (r.step s l).1 = r ∨ (r.step s l).2 = .proceed true := by
  cases s with
  | downBoundary => exact Or.inl rfl
  | blockClose =>
    left
    show { r with current := none } = r
    rw [← hr]
  | query verb => exact Or.inl rfl
  | alteration a => exact Or.inr rfl
  | renameTable old new => exact Or.inr rfl
  | directive verb table => exact Or.inr rfl
  | assignment property value =>
    left
    show r.assign property value = r
    rw [assign, hr]
  | calls chain =>
    -- There is no table that the calls could be made on.
    have hcall : r.call chain l = (r, none) := by
      rw [call, hr]
      cases chain.head? <;> rfl
    left
    rw [step, hcall]

theorem line_inert (hr : r.current = none) (text : String) (l : Location) :
    (r.line text l).1 = r ∨ (r.line text l).2 = .proceed true := by
  rw [line]
  split
  · exact Or.inl rfl
  · exact Or.inl rfl
  · exact step_inert hr _ l

/-- What was met is not forgotten: behind a schema operation the answer is that there was one. -/
theorem eq_true_of_lines {source : String} {n : Nat} {texts : List String} {b : Bool}
    (h : (lines source n true r texts).2 = .ok b) : b = true := by
  induction texts generalizing n r with
  | nil => exact (Except.ok.inj h).symm
  | cons text rest ih =>
    rw [lines] at h
    split at h
    · exact absurd h (by simp)
    · exact (Except.ok.inj h).symm
    · exact ih h

theorem lines_inert {source : String} {n : Nat} {texts : List String} (hr : r.current = none)
    (h : (lines source n false r texts).2 = .ok false) :
    (lines source n false r texts).1 = r := by
  -- Every line leaves `r` as it is, so the lines behind it are read in `r` again.
  induction texts generalizing n with
  | nil => rfl
  | cons text rest ih =>
    have hline := line_inert hr text ⟨source, n⟩
    rw [lines] at h ⊢
    split at h <;> rename_i heq <;> rw [heq] at hline
    · exact absurd h (by simp)
    · exact hline.resolve_right (by simp)
    · rename_i r' b
      cases b with
      | true => exact absurd (eq_true_of_lines h) (by simp)
      | false =>
        obtain rfl : r' = r := hline.resolve_right (by simp)
        exact ih h

/-- **A source without schema operations is inert**: it leaves the state that it found. -/
theorem source_inert {m : Migration} (h : (r.source m).2 = .ok false) :
    (r.source m).1 = r.closed := by
  have hlines : (lines m.name 1 false r.closed (Source.normalize m.text)).2 = .ok false →
      (lines m.name 1 false r.closed (Source.normalize m.text)).1 = r.closed := lines_inert rfl
  rw [source] at h ⊢
  split at h <;> rename_i heq
  · rw [closed, heq] at hlines
    obtain rfl := hlines h
    rfl
  · exact absurd h (by simp)

/-! ### Deleting sources -/

/-- Sources are **thinned** if some of those that met no schema operation, when all of them were
replayed one after the other, are deleted. -/
inductive Thinned : Replay → List Migration → List Migration → Prop
  /-- There is nothing to delete. -/
  | nil {r : Replay} : Thinned r [] []
  /-- A source stays, whatever its replay has answered. -/
  | keep {r : Replay} (m : Migration) {ms kept : List Migration}
    (h : Thinned (r.source m).1 ms kept) : Thinned r (m :: ms) (m :: kept)
  /-- A source without schema operations is deleted. -/
  | delete {r : Replay} (m : Migration) {ms kept : List Migration}
    (hm : (r.source m).2 = .ok false) (h : Thinned (r.source m).1 ms kept) :
    Thinned r (m :: ms) kept

/-- A source does not see which block was open before it. -/
theorem source_closed (r : Replay) (m : Migration) : r.closed.source m = r.source m := by
  simp only [source, closed]

theorem sources_closed (r : Replay) (ms : List Migration) :
    (r.closed.sources ms).1.closed = (r.sources ms).1.closed ∧
      (r.closed.sources ms).2 = (r.sources ms).2 := by
  cases ms with
  | nil => exact ⟨rfl, rfl⟩
  | cons m rest =>
    rw [sources, sources, source_closed]
    exact ⟨rfl, rfl⟩

/-- A source without schema operations in front of others does not matter. -/
theorem sources_cons_inert {m : Migration} (hm : (r.source m).2 = .ok false)
    (ms : List Migration) : r.sources (m :: ms) = r.closed.sources ms := by
  have hsource : r.source m = (r.closed, .ok false) := Prod.ext (source_inert hm) hm
  rw [sources_cons_of_ok hsource]
  rcases r.closed.sources ms with ⟨r', f | names⟩ <;> rfl

/-- A replay of thinned sources ends as the replay of all of them, be it in a failure. -/
theorem Thinned.sources_eq {ms kept : List Migration} (h : r.Thinned ms kept) :
    (r.sources kept).1.closed = (r.sources ms).1.closed ∧
      (r.sources kept).2 = (r.sources ms).2 := by
  induction h with
  | nil => exact ⟨rfl, rfl⟩
  | @keep r m ms kept _ ih =>
    rcases hm : r.source m with ⟨r', f | b⟩
    · rw [sources, sources, hm]
      exact ⟨rfl, rfl⟩
    · -- What follows the source is replayed in the state that it leaves, with and without the rest.
      rw [hm] at ih
      rw [sources_cons_of_ok hm, sources_cons_of_ok hm]
      exact ⟨ih.1, congrArg (Except.map fun names => if b then m.name :: names else names) ih.2⟩
  | @delete r m ms kept hm _ ih =>
    have hbefore := sources_closed r kept
    rw [source_inert hm] at ih
    rw [sources_cons_inert hm]
    exact ⟨hbefore.1.symm.trans ih.1, hbefore.2.symm.trans ih.2⟩

/-- So it ends with the same schema and the same diagnostics. -/
theorem Thinned.schema_eq {ms kept : List Migration} (h : r.Thinned ms kept) :
    (r.sources kept).1.schema = (r.sources ms).1.schema := by
  rw [← schema_closed, h.sources_eq.1, schema_closed]

theorem Thinned.diagnostics_eq {ms kept : List Migration} (h : r.Thinned ms kept) :
    (r.sources kept).1.diagnostics = (r.sources ms).1.diagnostics := by
  rw [← diagnostics_closed, h.sources_eq.1, diagnostics_closed]

/-- The plan for thinned sources is the plan for all of them, but for the number of sources. -/
theorem Thinned.ofMigrations_eq {ms kept : List Migration} (h : ({} : Replay).Thinned ms kept) :
    Plan.ofMigrations kept =
      (Plan.ofMigrations ms).map fun p => { p with sourceCount := kept.length } := by
  have hschema := h.schema_eq
  have hdiagnostics := h.diagnostics_eq
  have hanswer := h.sources_eq.2
  rw [Plan.ofMigrations, Plan.ofMigrations]
  rcases hkept : ({} : Replay).sources kept with ⟨rk, f | names⟩ <;>
    rcases hall : ({} : Replay).sources ms with ⟨ra, g | names'⟩ <;>
    rw [hkept, hall] at hschema hdiagnostics hanswer
  · obtain rfl := Except.error.inj hanswer
    rfl
  · exact absurd hanswer (by simp)
  · exact absurd hanswer (by simp)
  · obtain rfl := Except.ok.inj hanswer
    -- The two states agree in all that goes into the plan.
    simp only at hschema hdiagnostics ⊢
    rw [hschema, hdiagnostics]
    cases ra.schema.order <;> rfl

/-- **Sources without schema operations are inert.** From whatever state such a source is replayed,
it changes neither the schema nor the diagnostics. To delete any of them from a history changes
neither what the history leads to, nor what it reports, nor which sources met schema operations, nor
the plan that is made for it. -/
theorem inert :
    (∀ (r : Replay) (m : Migration), (r.source m).2 = .ok false →
      (r.source m).1.schema = r.schema ∧ (r.source m).1.diagnostics = r.diagnostics) ∧
    (∀ (r : Replay) (ms kept : List Migration), r.Thinned ms kept →
      (r.sources kept).1.schema = (r.sources ms).1.schema ∧
      (r.sources kept).1.diagnostics = (r.sources ms).1.diagnostics ∧
      (r.sources kept).2 = (r.sources ms).2) ∧
    ∀ ms kept : List Migration, ({} : Replay).Thinned ms kept →
      Plan.ofMigrations kept =
        (Plan.ofMigrations ms).map fun p => { p with sourceCount := kept.length } := by
  refine ⟨fun r m h => ?_, fun r ms kept h => ?_, fun ms kept h => h.ofMigrations_eq⟩
  · rw [source_inert h]
    exact ⟨r.schema_closed, r.diagnostics_closed⟩
  · exact ⟨h.schema_eq, h.diagnostics_eq, h.sources_eq.2⟩

/-- A source with a schema operation and something to report. -/
def createdRoles : Migration :=
  ⟨"a.php", "Schema::create('roles', function (Blueprint $table) \x7b\n" ++
    "$table->id();\n$table->index('id');\n\x7d);\n"⟩

/-- A source that only fills a table. -/
def seededRoles : Migration :=
  ⟨"b.php", "public function up()\n\x7b\n" ++
    "DB::table('roles')->insert(['name' => 'admin']);\n\x7d\n"⟩

/-- A source that asks for a table, with a call outside all blocks. -/
def missingRoles : Migration :=
  ⟨"c.php", "if (!Schema::hasTable('roles')) \x7b\n$table->string('name');\n\x7d\n"⟩

/-- A source with a schema operation. -/
def renamedRoles : Migration :=
  ⟨"d.php", "Schema::rename('roles', 'groups');\n"⟩

/-- The plan for a history is the one for its sources with schema operations. -/
theorem inert_roles :
    ({} : Replay).Thinned [createdRoles, seededRoles, missingRoles, renamedRoles]
        [createdRoles, renamedRoles] ∧
      Plan.ofMigrations [createdRoles, renamedRoles] =
        (Plan.ofMigrations [createdRoles, seededRoles, missingRoles, renamedRoles]).map
          (fun p => { p with sourceCount := 2 }) ∧
      (Plan.ofMigrations [createdRoles, renamedRoles]).map
          (fun p => (p.order, p.schemaSources, p.diagnostics)) =
        .ok (["groups"], ["a.php", "d.php"],
          [.unsupportedOperation "index" "roles" ⟨"a.php", 3⟩]) := by
  have hthinned : ({} : Replay).Thinned [createdRoles, seededRoles, missingRoles, renamedRoles]
      [createdRoles, renamedRoles] :=
    .keep _ (.delete _ (by decide +kernel) (.delete _ (by decide +kernel) (.keep _ .nil)))
  have hplan := inert.2.2 _ _ hthinned
  have hlength : [createdRoles, renamedRoles].length = 2 := rfl
  rw [hlength] at hplan
  exact ⟨hthinned, hplan, by decide +kernel⟩

end Replay

end SchemaHistory

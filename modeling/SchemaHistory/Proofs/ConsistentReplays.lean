import Mathlib.Control.Monad.Basic
import SchemaHistory.Proofs.LastingProperties
import SchemaHistory.Proofs.Visits

/-!
# Consistent replays

A replay refers to tables and columns by their names: the open table by the name in
`SchemaHistory.Replay.current`, a table and a column by the key they are stored under. A state is
**consistent** if these names lead to what they mean. Every reachable state is
(`SchemaHistory.Replay.Reachable.consistent`).

The point of it is that nothing is lost inside a block. In a consistent state the open table is in
the schema, so an assignment or a call changes this very table, and it neither creates one nor
brings a dropped one back (`SchemaHistory.Replay.Reachable.block_effective`).
-/

namespace SchemaHistory

/-- A table is **keyed** if every column is stored under its own name. -/
def Table.Keyed (t : Table) : Prop :=
  ∀ e ∈ t.columns.entries, e.2.name = e.1

/-- A state is **consistent** if tables and columns are stored under their own names and the open
table is one of the schema. -/
structure Replay.Consistent (r : Replay) : Prop where
  tables : r.schema.Keyed
  columns : r.schema.Each Table.Keyed
  current : ∀ name, r.current = some name → name ∈ r.schema.tableNames

/-! ### Columns -/

namespace Table

variable {t : Table}

theorem Keyed.addColumn (h : t.Keyed) (c : Column) : (t.addColumn c).Keyed := by
  intro e he
  rcases Dict.mem_entries_insert he with rfl | he
  · rfl
  · exact h e he

theorem Keyed.dropColumns (h : t.Keyed) (names : List String) : (t.dropColumns names).Keyed := by
  induction names generalizing t with
  | nil => exact h
  | cons name names ih =>
    exact ih (t := t.dropColumn name) fun e he => h e (Dict.mem_entries_of_mem_erase he)

theorem Keyed.renameColumn? (h : t.Keyed) {old new : String} {t' : Table}
    (ht : t.renameColumn? old new = some t') : t'.Keyed := by
  rw [renameColumn?_eq_some ht]
  intro e he
  -- The column that the new name displaces is gone, and the others keep their keys.
  obtain ⟨a, ha, rfl⟩ := List.mem_map.1 he
  have ha : a ∈ t.columns.entries := by
    split at ha
    · exact ha
    · exact Dict.mem_entries_of_mem_erase ha
  split
  · rfl
  · exact h a ha

/-- **A call stores columns under their own names.** -/
theorem Keyed.apply (h : t.Keyed) {key : String} {head : Call} {chain : Chain} {l : Location}
    {e : Table × List Failure} (he : t.apply key head chain l = .ok e) : e.1.Keyed := by
  cases answers_of_apply he with
  | primary => exact h
  | report => exact h
  | unique name =>
    intro e he
    obtain ⟨c, hc, hec⟩ := Dict.mem_entries_modify he
    rw [hec]
    split
    · exact h _ hc
    · exact h _ hc
  | rename old new t' _ _ _ hrename => exact h.renameColumn? hrename
  | dropColumns names => exact h.dropColumns names
  | foreign => exact h
  | dropRelationships names =>
    have hcolumns : ∀ (names : List String) (u : Table),
        (u.dropRelationships names).columns = u.columns := by
      intro names
      induction names with
      | nil => exact fun u => rfl
      | cons name names ih => exact fun u => ih (u.dropRelationship name)
    intro e he
    exact h e (hcolumns names t ▸ he)
  | define type e _ hdefine =>
    obtain ⟨c, -, -, t', he, ht', -⟩ := define_eq_ok hdefine
    rw [he]
    refine Keyed.addColumn ?_ c
    rw [ht']
    exact h

/-- A raw alteration stores columns under their own names. -/
theorem Keyed.alter (h : t.Keyed) (a : Alteration) (l : Location) : (t.alter a l).1.Keyed := by
  rw [Table.alter]
  refine Keyed.addColumn ?_ _
  cases a.renamed with
  | none => exact h
  | some new =>
    cases hrename : t.renameColumn? a.column new with
    | none => simpa [hrename] using h
    | some t' => simpa [hrename] using h.renameColumn? hrename

theorem lasting_keyed : Lasting Keyed where
  empty _ := by
    intro e he
    simp at he
  named _ h := h
  pruned _ h := h
  retargeted _ _ h := h
  assigned property value h := by
    unfold assign
    split <;> exact h

end Table

/-! ### The names of the tables -/

namespace Schema

variable {s : Schema} {name : String}

theorem mem_tableNames_setTable {other : String} {t : Table} :
    other ∈ (s.setTable name t).tableNames ↔ other ∈ s.tableNames ∨ other = name :=
  Dict.mem_keys_insert

theorem tableNames_setTable (h : name ∈ s.tableNames) (t : Table) :
    (s.setTable name t).tableNames = s.tableNames :=
  Dict.keys_insert_of_mem t h

theorem mem_tableNames_openTable {other : String} :
    other ∈ (s.openTable name).tableNames ↔ other ∈ s.tableNames ∨ other = name := by
  by_cases h : name ∈ s.tableNames
  · rw [openTable_of_mem h]
    exact ⟨Or.inl, fun hother => hother.elim id fun heq => heq ▸ h⟩
  · rw [openTable, if_neg fun hc => h (Dict.mem_keys_iff_contains.2 hc)]
    exact mem_tableNames_setTable

/-- A renamed table is in the schema under its new name, and all other tables stay. -/
theorem mem_tableNames_rename {old new : String} {renamed : Renamed}
    (hr : s.rename? old new = some renamed) {other : String} :
    other ∈ renamed.schema.tableNames ↔ other = new ∨ (other ∈ s.tableNames ∧ other ≠ old) := by
  obtain ⟨t, -, rfl⟩ := Option.map_eq_some_iff.1 hr
  simp only [tableNames, Dict.keys_mapValues, Dict.mem_keys_insert, Dict.keys_erase,
    List.mem_filter, Bool.not_eq_true', decide_eq_false_iff_not]
  constructor
  · rintro (⟨hother, -⟩ | hother)
    · exact Or.inr hother
    · exact Or.inl hother
  · rintro (hother | hother)
    · exact Or.inr hother
    · by_cases hnew : other = new
      · exact Or.inr hnew
      · exact Or.inl ⟨hother, hnew⟩

end Schema

/-! ### Reachable states -/

namespace Replay

variable {r : Replay}

/-- Calls remove no table. -/
theorem mem_tableNames_call {other : String} (h : other ∈ r.schema.tableNames) (chain : Chain)
    (l : Location) : other ∈ (r.call chain l).1.schema.tableNames := by
  rw [call]
  split
  · have hopen : ∀ name, other ∈ (r.schema.openTable name).tableNames :=
      fun _ => Schema.mem_tableNames_openTable.2 (.inl h)
    simp only
    split
    · exact Schema.mem_tableNames_setTable.2 (.inl (hopen _))
    · exact hopen _
  · exact h

/-- **A statement keeps the open table in the schema.** -/
theorem current_mem_step (h : ∀ name, r.current = some name → name ∈ r.schema.tableNames)
    (s : Statement) (l : Location) {name : String} (hname : (r.step s l).1.current = some name) :
    name ∈ (r.step s l).1.schema.tableNames := by
  cases s with
  | downBoundary => exact h name hname
  | blockClose => exact absurd hname (by simp [step])
  | query verb => exact h name hname
  | alteration a =>
    simp only [step, alter] at hname ⊢
    split at hname
    · exact h name hname
    · exact Schema.mem_tableNames_setTable.2 (Or.inl (h name hname))
  | renameTable old new =>
    simp only [step, rename] at hname ⊢
    split at hname
    · exact h name hname
    · rename_i renamed hrenamed
      refine (Schema.mem_tableNames_rename hrenamed).2 ?_
      simp only at hname
      split at hname
      · exact Or.inl (Option.some.inj hname).symm
      · rename_i hold
        exact Or.inr ⟨h name hname, fun heq => hold (heq ▸ hname)⟩
  | directive verb table =>
    cases verb with
    | create => exact Schema.mem_tableNames_openTable.2 (Or.inr (Option.some.inj hname).symm)
    | alter => exact Schema.mem_tableNames_openTable.2 (Or.inr (Option.some.inj hname).symm)
    | drop => exact absurd hname (by simp [step, direct])
  | assignment property value =>
    simp only [step, assign] at hname ⊢
    split at hname
    · exact h name hname
    · rw [Schema.tableNames, Schema.modifyTable, Dict.keys_modify]
      exact h name hname
  | calls chain =>
    rw [fst_step_calls] at hname ⊢
    rw [current_call] at hname
    exact mem_tableNames_call (h name hname) chain l

/-- A state is **grounded** if the open table is one of the schema. -/
def Grounded (r : Replay) : Prop :=
  ∀ name, r.current = some name → name ∈ r.schema.tableNames

theorem grounded_of_none (h : r.current = none) : r.Grounded := by
  intro name hname
  exact absurd (h.symm.trans hname) (by simp)

/-- The open table stays in the schema over a line. -/
theorem Grounded.line (h : r.Grounded) (text : String) (l : Location) :
    (r.line text l).1.Grounded := by
  rw [Replay.line]
  split
  · exact h
  · exact h
  · exact fun _ hname => current_mem_step h _ l hname

/-- **A statement keeps a state consistent.** -/
theorem Consistent.step (h : r.Consistent) (s : Statement) (l : Location) :
    (r.step s l).1.Consistent where
  tables := keyed_step s l h.tables
  columns := each_step Table.lasting_keyed h.columns
    (fun a _ _ ht => (h.columns.table? ht).alter a l)
    (fun _ _ name _ _ _ _ he =>
      Table.Keyed.apply ((h.columns.openTable Table.lasting_keyed name).tableOrNew
        Table.lasting_keyed name) he)
  current _ := current_mem_step h.current s l

/-- **Every reachable state is consistent.** -/
theorem Reachable.consistent (h : r.Reachable) : r.Consistent := by
  refine h.induction (P := Consistent) ⟨Schema.keyed_empty, Schema.each_empty, by simp⟩ ?_ ?_
  · exact fun r hr => ⟨hr.tables, hr.columns, by simp⟩
  · exact fun r s l _ hr => hr.step s l

/-! ### The effect of a statement inside a block -/

/-- **In every reachable state, names lead to what they mean, and what is said inside a block
happens to the open table.** The state is consistent; an assignment or a call changes the table
that is open in the schema, or the call fails and changes nothing; and neither creates a table or
brings a dropped one back. -/
theorem Reachable.block_effective (h : r.Reachable) :
    r.Consistent ∧ ∀ name, r.current = some name → ∃ t, r.schema.table? name = some t ∧
      (∀ property value l, r.step (.assignment property value) l =
        ({ r with schema := r.schema.setTable name (t.assign property value) },
          .proceed false)) ∧
      (∀ chain head l, chain.head? = some head → r.step (.calls chain) l =
        match t.apply name head chain l with
        | .ok e => ({ r with schema := r.schema.setTable name e.1 }.report e.2, .proceed false)
        | .error f => (r, .fail f)) ∧
      ∀ u, (r.schema.setTable name u).tableNames = r.schema.tableNames := by
  refine ⟨h.consistent, fun name hname => ?_⟩
  have hmem := h.consistent.current name hname
  obtain ⟨t, ht⟩ := Schema.mem_tableNames_iff.1 hmem
  refine ⟨t, ht, fun property value l => ?_, fun chain head l hhead => ?_,
    Schema.tableNames_setTable hmem⟩
  · rw [step, assign_inside hname ht]
  · simp only [step, call_inside hname ht hhead l]
    cases t.apply name head chain l with
    | ok e => rfl
    | error f => rfl

/-- A source that fails inside the block of a table that it renames from there. -/
def brokenTeams : Migration :=
  ⟨"a.php", "Schema::create('groups', function (Blueprint $table) \x7b\n$table->id();\n" ++
    "Schema::rename('groups', 'teams');\n$table->nothing('x');\n\x7d);"⟩

/-- The table that the failure leaves. -/
def keyedTeams : Table where
  name := "teams"
  columns := Dict.ofList [("id", { type := .builder .bigIncrements, name := "id" })]

/-- The failure leaves the block of the table open under its new name. -/
theorem Reachable.block_effective_brokenTeams :
    (({} : Replay).source brokenTeams).2 = .error (.unrecognizedCall "nothing" ⟨"a.php", 4⟩) ∧
      ∃ t, (({} : Replay).source brokenTeams).1.schema.table? "teams" = some t ∧
        ∀ property value l,
          (({} : Replay).source brokenTeams).1.step (.assignment property value) l =
            ({ (({} : Replay).source brokenTeams).1 with
              schema := (({} : Replay).source brokenTeams).1.schema.setTable "teams"
                (t.assign property value) }, .proceed false) := by
  have hrun : ({} : Replay).source brokenTeams =
      ({ schema := ⟨Dict.ofList [("teams", keyedTeams)]⟩, current := some "teams" },
        .error (.unrecognizedCall "nothing" ⟨"a.php", 4⟩)) := by
    decide +kernel
  have hcurrent : (({} : Replay).source brokenTeams).1.current = some "teams" := by rw [hrun]
  obtain ⟨t, ht, hassign, -⟩ := (block_effective (.left .fresh brokenTeams)).2 "teams" hcurrent
  exact ⟨by rw [hrun], t, ht, hassign⟩

end Replay

end SchemaHistory

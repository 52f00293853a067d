import Mathlib.Control.Monad.Basic
import SchemaHistory.Order
import SchemaHistory.Proofs.CancelledTables

/-!
# Dropped tables

Dropping a table takes the relationships to it along, wherever they are, and hands them back with
the names of their owners. Nothing else happens to the other tables (`SchemaHistory.Schema.DropsTo`).

That is what a drop does if there is such a table. If there is none, the drop does nothing at all,
although other tables may refer to it: a foreign key may be defined before its table, and a history
may refer to tables that it never creates. Such references stay. So a drop leaves no reference
behind exactly if the schema has the table, or has no reference to it
(`SchemaHistory.Replay.dropsTo_step_iff`). With a reference that stays there is no order in which the
tables can be created, unless the table comes later.
-/

namespace SchemaHistory

namespace Schema

/-! ### What a drop should do -/

/-- The relationships of all tables with the names of their **owners**, in the order of the tables
and then of each table. -/
def owned (s : Schema) : List (String × Relationship) :=
  s.tables.values.flatMap fun t => t.relationships.map fun k => (t.name, k)

/-- The schema with a table **taken out** and nothing else changed. -/
def takeOut (s : Schema) (name : String) : Schema :=
  ⟨s.tables.erase name⟩

/-- What is handed back by a drop, which is nothing if there is nothing to drop. -/
def orphaned (s : Schema) (name : String) : List (String × Relationship) :=
  ((s.drop? name).map Dropped.orphaned).getD []

/-- A schema **drops** a table **to** another schema and orphaned relationships if the table and all
references to it are gone, if everything else is as it was, and if the orphaned relationships are
those that have gone from the other tables. -/
structure DropsTo (s : Schema) (name : String) (orphaned : List (String × Relationship))
    (s' : Schema) : Prop where
  /-- The other tables are there, in their order. -/
  names : s'.tableNames = s.tableNames.filter (· != name)
  /-- They have lost their relationships to the table, and nothing else. -/
  kept : ∀ other, other ≠ name → s'.table? other = (s.table? other).map fun t =>
    { t with relationships := t.relationships.filter (·.foreignTable != name) }
  /-- No relationship refers to the table. -/
  unreferenced : ¬s'.IsForeign name
  /-- What is handed back are the relationships that are lost, in order. -/
  orphaned : orphaned = (s.takeOut name).owned.filter (·.2.foreignTable == name)

variable {s : Schema} {name : String}

/-! ### What a drop does -/

theorem not_isForeign_without (s : Schema) (name : String) : ¬(s.without name).IsForeign name := by
  rintro ⟨t, ht, hname⟩
  obtain ⟨e, he, rfl⟩ := List.mem_map.1 ht
  obtain ⟨e', -, rfl⟩ := List.mem_map.1 he
  obtain ⟨k, hk, hforeign⟩ := List.mem_map.1 hname
  exact absurd hforeign (by simpa using (List.mem_filter.1 hk).2)

/-- The references to a table, table by table, are those among all relationships. -/
theorem filter_owned (s : Schema) (name : String) :
    s.owned.filter (·.2.foreignTable == name) = s.tables.values.flatMap (referencesTo name) := by
  rw [owned, List.filter_flatMap]
  exact congrArg (s.tables.values.flatMap ·) (funext fun t => List.filter_map)

/-- **A table that is there is dropped** with all references to it. -/
theorem dropsTo_drop (h : name ∈ s.tableNames) :
    s.DropsTo name (s.orphaned name) (s.drop name) := by
  obtain ⟨t, ht⟩ := mem_tableNames_iff.1 h
  rw [drop_of_mem h]
  refine ⟨?_, fun other hne => table?_without hne, not_isForeign_without s name, ?_⟩
  · simp [tableNames, without, Dict.keys_erase, bne, beq_eq_decide]
  · rw [filter_owned, orphaned, drop?, ht]
    rfl

theorem orphaned_of_not_mem (h : name ∉ s.tableNames) : s.orphaned name = [] := by
  rw [orphaned, drop?, table?_eq_none_iff.2 h]
  rfl

/-- Where there is no table to drop, it is enough to do nothing exactly if nothing refers to it. -/
theorem dropsTo_self_iff (h : name ∉ s.tableNames) :
    s.DropsTo name [] s ↔ ¬s.IsForeign name := by
  refine ⟨fun hdrops => hdrops.unreferenced, fun hforeign => ?_⟩
  have hother : ∀ t ∈ s.tables.values, ∀ k ∈ t.relationships, k.foreignTable ≠ name :=
    fun t ht k hk hname => hforeign ⟨t, ht, List.mem_map.2 ⟨k, hk, hname⟩⟩
  refine ⟨?_, fun other hne => ?_, hforeign, ?_⟩
  · refine (List.filter_eq_self.2 fun other hmem => ?_).symm
    have hne : other ≠ name := fun heq => h (heq ▸ hmem)
    simpa using hne
  · cases ht : s.table? other with
    | none => rfl
    | some t =>
      have hfilter : t.relationships.filter (·.foreignTable != name) = t.relationships :=
        List.filter_eq_self.2 fun k hk => by simpa using hother t (mem_values_of_table? ht) k hk
      rw [Option.map_some, hfilter]
  · have hself : s.takeOut name = s := congrArg Schema.mk (Dict.erase_eq_self h)
    rw [hself]
    refine (List.filter_eq_nil_iff.2 fun x hx => ?_).symm
    obtain ⟨t, ht, hx⟩ := List.mem_flatMap.1 hx
    obtain ⟨k, hk, rfl⟩ := List.mem_map.1 hx
    simpa using hother t ht k hk

/-- **A drop leaves no reference behind exactly if there is something to drop, or nothing refers to
it.** -/
theorem dropsTo_drop_iff :
    s.DropsTo name (s.orphaned name) (s.drop name) ↔
      name ∈ s.tableNames ∨ ¬s.IsForeign name := by
  by_cases h : name ∈ s.tableNames
  · exact iff_of_true (dropsTo_drop h) (Or.inl h)
  · rw [drop_of_not_mem h, orphaned_of_not_mem h, dropsTo_self_iff h]
    exact (or_iff_right h).symm

theorem not_mem_drop (s : Schema) (name : String) : name ∉ (s.drop name).tableNames := by
  by_cases h : name ∈ s.tableNames
  · rw [drop_of_mem h]
    exact name_not_mem_without s name
  · rwa [drop_of_not_mem h]

end Schema

namespace Replay

/-- **What becomes of a dropped table.** Behind a statement that drops a table no block is open,
nothing is reported, and the schema has no such table. The table is gone with all references to it,
which are handed back, and nothing else is changed, exactly if there was such a table or no
reference to it. Otherwise the schema is as it was. -/
theorem dropsTo_step_iff (r : Replay) (name : String) (l : Location) :
    let after := r.step (.directive .drop name) l
    after.2 = .proceed true ∧ after.1.current = none ∧ after.1.diagnostics = r.diagnostics ∧
      name ∉ after.1.schema.tableNames ∧
      (r.schema.DropsTo name (r.schema.orphaned name) after.1.schema ↔
        name ∈ r.schema.tableNames ∨ ¬r.schema.IsForeign name) ∧
      (name ∉ r.schema.tableNames → after.1.schema = r.schema) :=
  ⟨rfl, rfl, rfl, Schema.not_mem_drop _ _, Schema.dropsTo_drop_iff, Schema.drop_of_not_mem⟩

/-- A source that refers to a table and drops it, and never creates it. -/
def droppedTeams : Migration :=
  ⟨"a.php", "Schema::create('users', function (Blueprint $table) \x7b\n" ++
    "$table->foreignId('team_id')->constrained();\n\x7d);\nSchema::dropIfExists('teams');"⟩

/-- The schema of users that refer to teams. -/
def teamUsers : Schema where
  tables := Dict.ofList [("users",
    { name := "users"
      columns := Dict.ofList [("team_id", { type := .builder .foreignId, name := "team_id" })]
      relationships := [⟨"team_id", "id", "teams", none, none⟩] })]

/-- **A reference to a dropped table** stays, and so the tables have no order. -/
theorem droppedTeams_isForeign :
    (({} : Replay).sources [droppedTeams]).2 = .ok ["a.php"] ∧
      (({} : Replay).sources [droppedTeams]).1.diagnostics = [] ∧
      (({} : Replay).sources [droppedTeams]).1.schema.IsForeign "teams" ∧
      (({} : Replay).sources [droppedTeams]).1.schema.order =
        .error (.unresolvableOrder [⟨"users", ["teams"]⟩]) := by
  have hrun : ({} : Replay).sources [droppedTeams] = ({ schema := teamUsers }, .ok ["a.php"]) := by
    decide +kernel
  have hnames : teamUsers.tableNames = ["users"] := by decide
  have hpass : teamUsers.pass [] ["users"] = ([], ["users"]) := by decide
  have hreport : ["users"].filterMap (teamUsers.waiting? []) = [⟨"users", ["teams"]⟩] := by decide
  rw [hrun]
  refine ⟨rfl, rfl, by decide, ?_⟩
  rw [Schema.order, hnames, Schema.orderFrom, hpass, if_neg (by decide), hreport]

end Replay

end SchemaHistory

import Mathlib.Data.List.Basic
import SchemaHistory.Proofs.SquashRoundTrip
import SchemaHistory.Squash

/-!
# Squashing twice

The scripts of a plain schema are themselves a history of migrations, and squashing that history
gives the same scripts again (`SchemaHistory.Schema.Plain.squash_scripts`). Replaying them rebuilds
the schema with its tables in creation order, and two things have to be seen then.

* A schema whose tables stand in an order that is settled already keeps it: the first pass places
  every table where it stands (`SchemaHistory.Schema.order_of_settled`).
* The primary key that an increments column implies is the only thing that the rebuilt tables lack.
  It matters neither for what a table depends on nor for what its script says
  (`SchemaHistory.Table.scriptText_withoutImpliedKey`), since no script has ever said it.
-/

namespace SchemaHistory

/-! ### Tables without an implied key -/

namespace Table

@[simp] theorem name_withoutImpliedKey (t : Table) : t.withoutImpliedKey.name = t.name := rfl

@[simp] theorem engine_withoutImpliedKey (t : Table) : t.withoutImpliedKey.engine = t.engine := rfl

@[simp] theorem charset_withoutImpliedKey (t : Table) :
    t.withoutImpliedKey.charset = t.charset := rfl

@[simp] theorem collation_withoutImpliedKey (t : Table) :
    t.withoutImpliedKey.collation = t.collation := rfl

@[simp] theorem columns_withoutImpliedKey (t : Table) :
    t.withoutImpliedKey.columns = t.columns := rfl

@[simp] theorem relationships_withoutImpliedKey (t : Table) :
    t.withoutImpliedKey.relationships = t.relationships := rfl

/-- A key that is written is written again. -/
@[simp] theorem writtenKey_withoutImpliedKey (t : Table) :
    t.withoutImpliedKey.writtenKey = t.writtenKey := by
  have hkey : t.withoutImpliedKey.primaryKey = t.writtenKey := rfl
  rw [writtenKey, hkey, columns_withoutImpliedKey, writtenKey, Option.filter_filter]
  simp only [Bool.and_self]

/-- The script of a table is made of the name of the table and its statements. -/
theorem scriptText_congr {t t' : Table} (hname : t.name = t'.name) (hbody : t.body = t'.body) :
    t.scriptText = t'.scriptText := by
  unfold scriptText
  rw [hname, hbody]

/-- **The script of a table does not say the key that an increments column implies.** -/
theorem scriptText_withoutImpliedKey (t : Table) :
    t.withoutImpliedKey.scriptText = t.scriptText := by
  have hstatements : t.withoutImpliedKey.statements = t.statements := by
    simp only [statements, primaryStatement?_eq, writtenKey_withoutImpliedKey,
      engine_withoutImpliedKey, charset_withoutImpliedKey, collation_withoutImpliedKey,
      columns_withoutImpliedKey, relationships_withoutImpliedKey]
  have hbody : t.withoutImpliedKey.body = t.body := by
    rw [body, hstatements, body]
  exact scriptText_congr rfl hbody

end Table

/-! ### The rebuilt schema -/

namespace Schema

variable {s : Schema} {names : List String}

/-- The tables of a keyed schema are rebuilt in the order of their names. -/
theorem Keyed.tableNames_rebuilt (h : s.Keyed) (hnames : names.Perm s.tableNames) :
    (({} : Schema).rebuilt (names.filterMap s.table?)).tableNames = names ∧
      ∀ name ∈ names, (({} : Schema).rebuilt (names.filterMap s.table?)).table? name =
        (s.table? name).map Table.withoutImpliedKey := by
  have hmap : (names.filterMap s.table?).map (·.name) = names :=
    h.map_name_filterMap fun n hn => hnames.mem_iff.1 hn
  have hnodup : (({} : Schema).tableNames ++ (names.filterMap s.table?).map (·.name)).Nodup := by
    rw [hmap]
    exact hnames.nodup_iff.2 s.nodup_tableNames
  have hentries := entries_rebuilt hnodup
  refine ⟨?_, fun name hname => ?_⟩
  · rw [tableNames, Dict.keys, hentries, List.map_append, List.map_map]
    exact hmap
  · obtain ⟨t, ht⟩ := mem_tableNames_iff.1 (hnames.mem_iff.1 hname)
    rw [ht]
    refine Dict.find?_eq_some_iff.2 ?_
    rw [hentries, ← h.name_eq ht]
    exact List.mem_map_of_mem (List.mem_filterMap.2 ⟨name, hname, ht⟩)

/-- **The rebuilt schema has the order in which it was rebuilt**, and the same scripts. -/
theorem Keyed.order_rebuilt (h : s.Keyed) (horder : s.order = .ok names) :
    (({} : Schema).rebuilt (names.filterMap s.table?)).order = .ok names ∧
      (({} : Schema).rebuilt (names.filterMap s.table?)).scripts names = s.scripts names := by
  have harranges := h.arranges_of_order horder
  obtain ⟨htables, hsettled⟩ := h.arranges_iff.1 harranges
  obtain ⟨hnames, hfind⟩ := h.tableNames_rebuilt htables
  generalize ({} : Schema).rebuilt (names.filterMap s.table?) = s' at hnames hfind
  constructor
  · have hready : s'.Settled s'.tableNames := by
      intro before name after hsplit
      rw [hnames] at hsplit
      have hmem : name ∈ names := by
        rw [hsplit]
        exact List.mem_append_right _ List.mem_cons_self
      have hs := hsettled before name after hsplit
      rw [isReady] at hs ⊢
      rw [hfind name hmem]
      cases ht : s.table? name with
      | none => rfl
      | some t =>
        rw [ht] at hs
        exact hs
    rw [order_of_settled hready, hnames]
  · have hall : names.filterMap s'.table? =
        (names.filterMap s.table?).map Table.withoutImpliedKey := by
      rw [List.map_filterMap]
      exact List.filterMap_congr hfind
    rw [scripts, scripts, hall]
    refine List.ext_getElem (by simp) fun i _ _ => ?_
    simp only [List.getElem_mapIdx, List.getElem_map, Table.script,
      Table.scriptText_withoutImpliedKey, Table.name_withoutImpliedKey]

/-- **Squashing the scripts of a plain schema gives the same scripts.** They make up a history that
can be planned, whatever the names are under which they are stored, and the plan has the same
tables in the same order and asks for the same scripts: with the same places, for the same tables,
and with the same contents. -/
theorem Plain.squash_scripts (h : s.Plain) {order : List String} (horder : s.order = .ok order)
    (sourceName : Script → String) :
    ∃ p, Plan.ofMigrations (s.scriptMigrations order sourceName) = .ok p ∧ p.order = order ∧
      p.diagnostics = [] ∧ p.scripts = s.scripts order := by
  have hperm : order.Perm s.tableNames := (h.keyed.arranges_of_order horder).1
  have hnames : (order.filterMap s.table?).map (·.name) = order :=
    h.keyed.map_name_filterMap fun n hn => hperm.mem_iff.1 hn
  have hplain : ∀ t ∈ order.filterMap s.table?, t.Plain := by
    intro t ht
    obtain ⟨n, -, hn⟩ := List.mem_filterMap.1 ht
    exact h.tables t (mem_values_of_table? hn)
  have hnodup : (({} : Schema).tableNames ++ (order.filterMap s.table?).map (·.name)).Nodup := by
    rw [hnames]
    exact hperm.nodup_iff.2 s.nodup_tableNames
  obtain ⟨-, hsources⟩ := Replay.results_scripts (r := {}) hplain
    (s.map_text_scriptMigrations order sourceName) rfl hnodup
  obtain ⟨hagain, hscripts⟩ := h.keyed.order_rebuilt horder
  refine ⟨{ schema := ({} : Schema).rebuilt (order.filterMap s.table?), order, diagnostics := []
            schemaSources := (s.scriptMigrations order sourceName).map (·.name)
            sourceCount := (s.scriptMigrations order sourceName).length },
    ?_, rfl, rfl, hscripts⟩
  rw [Plan.ofMigrations, hsources]
  simp only
  rw [hagain]
  rfl

/-- The members are still created after the teams, with an increments column whose key is not
written the second time either. -/
theorem squash_membersAndTeams :
    membersAndTeams.Plain ∧ membersAndTeams.order = .ok ["teams", "members"] ∧
      ∃ p, Plan.ofMigrations (membersAndTeams.scriptMigrations ["teams", "members"] (·.table)) =
          .ok p ∧ p.order = ["teams", "members"] ∧ p.diagnostics = [] ∧
        p.scripts = membersAndTeams.scripts ["teams", "members"] ∧
        p.scripts.map (fun x => (x.index, x.table)) = [(0, "teams"), (1, "members")] := by
  obtain ⟨p, hp, hagain, hdiagnostics, hscripts⟩ :=
    Plain.squash_scripts plain_membersAndTeams order_membersAndTeams (·.table)
  refine ⟨plain_membersAndTeams, order_membersAndTeams, p, hp, hagain, hdiagnostics, hscripts, ?_⟩
  rw [hscripts]
  rfl

end Schema

end SchemaHistory

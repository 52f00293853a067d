import Mathlib.Data.List.Nodup
import SchemaHistory.Proofs.LocalStatements

/-!
# Independent sources

Teams merge migrations that were written side by side, so the order in which two sources come to
be replayed is often an accident. It does not matter if the two are **independent**: neither of them
drops or renames a table, and no table is opened or altered by both.

This follows from the reach of statements. A source is local to the tables that it names, so it
makes the same change before and behind the other one, and the two changes store different tables.
What the order decides is only in which order new tables are created and diagnostics are reported.
-/

namespace SchemaHistory

namespace Migration

/-- The tables that the statements of a source **name**. -/
def tables (m : Migration) : List String :=
  m.statements.flatMap fun x => x.1.tables

/-- Two sources are **independent** if neither of them removes a table and they name different
ones. -/
structure Independent (a b : Migration) : Prop where
  left : ∀ x ∈ a.statements, x.1.removes = false
  right : ∀ x ∈ b.statements, x.1.removes = false
  disjoint : ∀ name ∈ a.tables, name ∉ b.tables

theorem staysIn_tables {m : Migration} (h : ∀ x ∈ m.statements, x.1.removes = false) :
    ∀ x ∈ m.statements, x.1.StaysIn m.tables :=
  fun x hx => ⟨fun _ hname => List.mem_flatMap.2 ⟨x, hx, hname⟩, h x hx⟩

end Migration

namespace Replay

/-- Two sources **commute** in a state if it does not matter which of them is replayed first. -/
structure Commute (r : Replay) (a b : Migration) : Prop where
  /-- The first source gives the same answer behind the second one: a failure, or whether it met a
  schema operation. -/
  left : ((r.source b).1.source a).2 = (r.source a).2
  /-- The second source gives the same answer behind the first one. -/
  right : ((r.source a).1.source b).2 = (r.source b).2
  /-- Both orders end with the same names of tables. -/
  names : ((r.source a).1.source b).1.schema.tableNames.Perm
    ((r.source b).1.source a).1.schema.tableNames
  /-- Both orders end with the same table under each name. -/
  tables : ∀ name, ((r.source a).1.source b).1.schema.table? name =
    ((r.source b).1.source a).1.schema.table? name
  /-- Each source reports the same in both orders, `fa` the first and `fb` the second. -/
  reports : ∃ fa fb : List Failure,
    (r.source a).1.diagnostics = r.diagnostics ++ fa ∧
    ((r.source a).1.source b).1.diagnostics = r.diagnostics ++ fa ++ fb ∧
    (r.source b).1.diagnostics = r.diagnostics ++ fb ∧
    ((r.source b).1.source a).1.diagnostics = r.diagnostics ++ fb ++ fa

variable {r : Replay} {names others : List String} {c d : Change}

/-- A change that stays within other tables does not touch these. -/
theorem table?_commit (hd : d.Within others) {name : String} (h : name ∉ others) :
    (r.commit d).schema.table? name = r.schema.table? name :=
  Schema.table?_storeAll_of_not_mem fun e he heq => h (heq ▸ hd.stored e he)

/-- Changes of different tables lead to the same tables in both orders. -/
theorem table?_commit_comm (hc : c.Within names) (hd : d.Within others)
    (hdisjoint : ∀ name ∈ names, name ∉ others) (name : String) :
    ((r.commit c).commit d).schema.table? name = ((r.commit d).commit c).schema.table? name := by
  by_cases h : name ∈ others
  · -- The second change decides, and it finds the table as it is without the first one.
    have hnames : name ∉ names := fun hname => hdisjoint name hname h
    rw [table?_commit hc hnames]
    exact Schema.table?_storeAll_congr (table?_commit hc hnames) d.stored
  · rw [table?_commit hd h]
    exact (Schema.table?_storeAll_congr (table?_commit hd h) c.stored).symm

/-- **Independent sources commute**, from every state. Each of them fails in one order exactly if it
fails in the other, so if the one order succeeds, then so does the other. -/
theorem commute_of_independent (r : Replay) {a b : Migration} (h : a.Independent b) :
    r.Commute a b := by
  obtain ⟨c, x, hc, ha⟩ := local_source (Migration.staysIn_tables h.left) r
  obtain ⟨d, y, hd, hb⟩ := local_source (Migration.staysIn_tables h.right) r
  -- Each source makes one change, in `r` as well as behind the other one.
  have ha₁ : r.source a = (r.commit c, x) := ha r fun _ _ => rfl
  have hb₁ : r.source b = (r.commit d, y) := hb r fun _ _ => rfl
  have ha₂ : (r.commit d).source a = ((r.commit d).commit c, x) :=
    ha _ fun name hname => table?_commit hd (h.disjoint name hname)
  have hb₂ : (r.commit c).source b = ((r.commit c).commit d, y) :=
    hb _ fun name hname => table?_commit hc fun hmem => h.disjoint name hmem hname
  have htables := table?_commit_comm (r := r) hc hd h.disjoint
  refine ⟨?_, ?_, ?_, ?_, c.reports, d.reports, ?_⟩
  · rw [hb₁, ha₁, ha₂]
  · rw [ha₁, hb₁, hb₂]
  · rw [ha₁, hb₁, ha₂, hb₂]
    refine (List.perm_ext_iff_of_nodup (Schema.nodup_tableNames _) (Schema.nodup_tableNames _)).2
      fun name => ?_
    rw [Schema.mem_tableNames_iff, Schema.mem_tableNames_iff, htables name]
  · intro name
    rw [ha₁, hb₁, ha₂, hb₂]
    exact htables name
  · rw [ha₁, hb₁, ha₂, hb₂]
    exact ⟨rfl, rfl, rfl, rfl⟩

/-- A source that refers to a table which the other source opens. -/
def createdUsers : Migration :=
  ⟨"a.php", "Schema::create('users', function ($table) \x7b\n" ++
    "$table->foreignId('team_id')->constrained();\n\x7d);"⟩

/-- A source that opens a table which need not exist, and has something to report. -/
def openedTeams : Migration :=
  ⟨"b.php", "Schema::table('teams', function ($table) \x7b\n$table->index('id');\n\x7d);"⟩

/-- Two sources that both succeed may be replayed in either order. -/
theorem commute_usersAndTeams :
    createdUsers.Independent openedTeams ∧
      (({} : Replay).sources [createdUsers, openedTeams]).2 = .ok ["a.php", "b.php"] ∧
      ({} : Replay).Commute createdUsers openedTeams := by
  have hindependent : createdUsers.Independent openedTeams :=
    ⟨by decide +kernel, by decide +kernel, by decide +kernel⟩
  exact ⟨hindependent, by decide +kernel, commute_of_independent _ hindependent⟩

end Replay

end SchemaHistory

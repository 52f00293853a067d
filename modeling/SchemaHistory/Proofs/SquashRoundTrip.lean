import SchemaHistory.Order
import SchemaHistory.Proofs.CreationOrder
import SchemaHistory.Proofs.Replays
import SchemaHistory.Proofs.ScriptReplay

/-!
# Squashing preserves the schema

The scripts of a plain schema, replayed in creation order from nothing, rebuild the schema
(`SchemaHistory.Schema.Plain.replay_scripts`). Each script adds its table
(`SchemaHistory.Table.Plain.source`), and no script meets a table that is there already, because
the creation order has every table exactly once. Two things differ in the schema that is rebuilt:
its tables stand in creation order, and a primary key that is an increments column is not said a
second time.
-/

namespace SchemaHistory

namespace Schema

/-- The schema after the tables of a list, without implied keys, are stored one by one. -/
def rebuilt (s : Schema) (ts : List Table) : Schema :=
  ts.foldl (fun s t => s.setTable t.name t.withoutImpliedKey) s

/-- Tables with new names are stored in order. -/
theorem entries_rebuilt {s : Schema} {ts : List Table}
    (h : (s.tableNames ++ ts.map (·.name)).Nodup) :
    (s.rebuilt ts).tables.entries =
      s.tables.entries ++ ts.map fun t => (t.name, t.withoutImpliedKey) := by
  induction ts generalizing s with
  | nil => simp [rebuilt]
  | cons t ts ih =>
    have hnew : t.name ∉ s.tables.keys := by
      intro hmem
      exact (List.nodup_append.1 h).2.2 _ hmem _ (by simp) rfl
    have hnames : (s.setTable t.name t.withoutImpliedKey).tableNames = s.tableNames ++ [t.name] :=
      Dict.keys_insert_of_not_mem _ hnew
    have hentries : (s.setTable t.name t.withoutImpliedKey).tables.entries =
        s.tables.entries ++ [(t.name, t.withoutImpliedKey)] :=
      Dict.entries_insert_of_not_mem _ hnew
    have hnodup : ((s.setTable t.name t.withoutImpliedKey).tableNames ++ ts.map (·.name)).Nodup := by
      rw [hnames, List.append_assoc]
      exact h
    have hcons : s.rebuilt (t :: ts) = (s.setTable t.name t.withoutImpliedKey).rebuilt ts := rfl
    rw [hcons, ih hnodup, hentries, List.append_assoc]
    rfl

end Schema

namespace Replay

/-- **Replaying the scripts of plain tables stores them one by one**, and each script is a schema
operation. -/
theorem results_scripts {ts : List Table} (hplain : ∀ t ∈ ts, t.Plain) {ms : List Migration}
    (hms : ms.map (·.text) = ts.map Table.scriptText) {r : Replay} (hr : r.current = none)
    (hnodup : (r.schema.tableNames ++ ts.map (·.name)).Nodup) :
    (∀ x ∈ r.results ms, x.2 = .ok true) ∧
      r.sources ms = ({ r with schema := r.schema.rebuilt ts }, .ok (ms.map (·.name))) := by
  induction ts generalizing ms r with
  | nil =>
    obtain rfl : ms = [] := List.map_eq_nil_iff.1 hms
    exact ⟨by simp [results], rfl⟩
  | cons t ts ih =>
    obtain ⟨m, rest, rfl, htext, hrest⟩ : ∃ m rest, ms = m :: rest ∧ m.text = t.scriptText ∧
        rest.map (·.text) = ts.map Table.scriptText := by
      obtain ⟨m, rest, rfl, h1, h2⟩ := List.map_eq_cons_iff.1 hms
      exact ⟨m, rest, rfl, h1, h2⟩
    have hnew : t.name ∉ r.schema.tableNames := by
      intro hmem
      exact (List.nodup_append.1 hnodup).2.2 _ hmem _ (by simp) rfl
    have hsource : r.source m =
        ({ r with schema := r.schema.setTable t.name t.withoutImpliedKey }, .ok true) := by
      have hplain := (hplain t List.mem_cons_self).source hr hnew m.name
      rwa [← htext] at hplain
    have hnames : (r.schema.setTable t.name t.withoutImpliedKey).tableNames =
        r.schema.tableNames ++ [t.name] := Dict.keys_insert_of_not_mem _ hnew
    obtain ⟨hresults, hsources⟩ := ih (fun u hu => hplain u (List.mem_cons_of_mem t hu)) hrest
      (r := { r with schema := r.schema.setTable t.name t.withoutImpliedKey }) hr (by
        rw [hnames, List.append_assoc]
        exact hnodup)
    refine ⟨fun x hx => ?_, ?_⟩
    · rw [results, hsource] at hx
      rcases List.mem_cons.1 hx with rfl | hx
      · rfl
      · exact hresults x hx
    · rw [sources, hsource]
      simp only
      rw [hsources]
      rfl

end Replay

namespace Schema

/-- The **migrations** that the scripts of an order make, under whatever names they are stored. -/
def scriptMigrations (s : Schema) (order : List String) (sourceName : Script → String) :
    List Migration :=
  (s.scripts order).map fun x => ⟨sourceName x, x.content⟩

theorem map_text_scriptMigrations (s : Schema) (order : List String)
    (sourceName : Script → String) :
    (s.scriptMigrations order sourceName).map (·.text) =
      (order.filterMap s.table?).map Table.scriptText := by
  rw [scriptMigrations, scripts]
  exact List.ext_getElem (by simp) (by simp [Table.script])

/-- **Squashing preserves a plain schema.** Its scripts are replayed from nothing without a
failure and without a report, each of them is a schema operation, and they lead to a schema with
the same tables in creation order, but for primary keys that an increments column implies. -/
theorem Plain.replay_scripts {s : Schema} (h : s.Plain) {order : List String}
    (horder : s.order = .ok order) (sourceName : Script → String) :
    (∀ x ∈ Replay.results {} (s.scriptMigrations order sourceName), x.2 = .ok true) ∧
      ∃ r names, Replay.sources {} (s.scriptMigrations order sourceName) = (r, .ok names) ∧
        r.diagnostics = [] ∧ r.current = none ∧ r.schema.tableNames = order ∧
        ∀ name, r.schema.table? name = (s.table? name).map Table.withoutImpliedKey := by
  have hperm : order.Perm s.tableNames := (h.keyed.arranges_of_order horder).1
  have hmem : ∀ n, n ∈ order ↔ n ∈ s.tableNames := fun n => hperm.mem_iff
  have hnames : (order.filterMap s.table?).map (·.name) = order :=
    h.keyed.map_name_filterMap fun n hn => (hmem n).1 hn
  have hnodup : (({} : Schema).tableNames ++ (order.filterMap s.table?).map (·.name)).Nodup := by
    rw [hnames]
    exact hperm.nodup_iff.2 s.nodup_tableNames
  have htable : ∀ t ∈ order.filterMap s.table?, s.table? t.name = some t := by
    intro t ht
    obtain ⟨n, -, hn⟩ := List.mem_filterMap.1 ht
    rw [h.keyed.name_eq hn, hn]
  obtain ⟨hresults, hsources⟩ := Replay.results_scripts (r := {})
    (fun t ht => h.tables t (mem_values_of_table? (htable t ht)))
    (s.map_text_scriptMigrations order sourceName) rfl hnodup
  have hentries := entries_rebuilt hnodup
  have hkeys : (({} : Schema).rebuilt (order.filterMap s.table?)).tableNames = order := by
    rw [tableNames, Dict.keys, hentries, List.map_append, List.map_map]
    exact hnames
  refine ⟨hresults, _, _, hsources, rfl, rfl, hkeys, ?_⟩
  · intro name
    cases ht : s.table? name with
    | none =>
      have hnot : name ∉ order := fun hn => (table?_eq_none_iff.1 ht) ((hmem name).1 hn)
      refine table?_eq_none_iff.2 fun hmem => hnot ?_
      exact Eq.mp (congrArg (name ∈ ·) hkeys) hmem
    | some t =>
      have hn : name ∈ order := (hmem name).2 (mem_tableNames_iff.2 ⟨t, ht⟩)
      refine Dict.find?_eq_some_iff.2 ?_
      rw [hentries, ← h.keyed.name_eq ht]
      exact List.mem_map_of_mem (List.mem_filterMap.2 ⟨name, hn, ht⟩)

/-- The columns of the members of a team. -/
def memberColumns : List Column :=
  [{ type := .builder .increments, name := "id" },
   { type := .builder .decimal, name := "rank", unsigned := true, nullable := true
     default := some "-1.50", parameters := some "8, 2" },
   { type := .builder .enum, name := "role", unique := true, default := some "'a.b'"
     parameters := some "['a.b',  x], null" },
   { type := .builder .string, name := "team_code" },
   { type := .builder .timestamps, name := "timestamps", parameters := some "6" }]

/-- Two tables in the wrong order: members with columns of several kinds, and their teams. -/
def membersAndTeams : Schema where
  tables := Dict.ofList
    [("members",
      { name := "members"
        engine := some "InnoDB"
        primaryKey := some "id"
        columns := Dict.ofList (memberColumns.map fun c => (c.name, c))
        relationships := [⟨"team_code", "code", "teams", some "set null", some "cascade"⟩] }),
     ("teams",
      { name := "teams"
        primaryKey := some "code"
        columns := Dict.ofList [("code", { type := .builder .string, name := "code" })] })]

/-- The columns of members are plain: their parameters and defaults are literals. -/
theorem plain_memberColumns : ∀ c ∈ memberColumns, c.Plain := by
  have hdigit : ∀ {c : Char}, Text.isDigit c = true → IsLiteral [c] := by
    intro c hc
    exact IsLiteral.number (Or.inl rfl) (List.cons_ne_nil c []) (by simpa using hc) (Or.inl rfl)
  have hfraction : IsLiteral (['-'] ++ (['1'] ++ ['.', '5', '0'])) :=
    .number (Or.inr rfl) (by decide) (by decide)
      (Or.inr ⟨['5', '0'], by decide, by decide, rfl⟩)
  have hquoted : IsLiteral ('\'' :: (['a', '.', 'b'] ++ ['\''])) := .quoted (by decide)
  have hword : IsLiteral ['x'] := .word (by decide) (by decide)
  have harray : IsLiteral ('[' :: ('\'' :: (['a', '.', 'b'] ++ ['\'']) ++
      ([([' ', ' '], ['x'])].flatMap fun i => ',' :: (i.1 ++ i.2)) ++ [']'])) :=
    .array hquoted (by decide) (by simpa using hword)
  have height : IsLiteralList "8, 2".toList :=
    ⟨['8'], [['2']], hdigit (by decide), by simpa using hdigit (by decide), by decide⟩
  have hsix : IsLiteralList "6".toList := ⟨['6'], [], hdigit (by decide), by simp, by decide⟩
  have hnull : IsLiteral "null".toList := .word (c := 'n') (s := "ull".toList) (by decide) (by decide)
  have hitems : IsLiteralList "['a.b',  x], null".toList :=
    ⟨_, ["null".toList], harray, by simpa using hnull, by decide⟩
  have hname : ∀ s ∈ ["id", "rank", "role", "team_code", "timestamps"], IsName s := by
    intro s hs
    have hall : ∀ s ∈ ["id", "rank", "role", "team_code", "timestamps"],
        s ≠ "" ∧ ∀ c ∈ s.toList, Text.isAsciiWordPart c = true := by decide
    exact ⟨(hall s hs).1, (hall s hs).2⟩
  intro c hc
  simp only [memberColumns, List.mem_cons, List.not_mem_nil, or_false] at hc
  rcases hc with rfl | rfl | rfl | rfl | rfl
  · exact ⟨⟨_, rfl⟩, hname _ (by decide), by decide, by simp, by simp⟩
  · exact ⟨⟨_, rfl⟩, hname _ (by decide), by decide, by simpa using height, by simpa using hfraction⟩
  · exact ⟨⟨_, rfl⟩, hname _ (by decide), by decide, by simpa using hitems, by simpa using hquoted⟩
  · exact ⟨⟨_, rfl⟩, hname _ (by decide), by decide, by simp, by simp⟩
  · exact ⟨⟨_, rfl⟩, hname _ (by decide), by decide, by simpa using hsix, by simp⟩

/-- The two tables make up a plain schema. -/
theorem plain_membersAndTeams : membersAndTeams.Plain := by
  have hname : ∀ s ∈ ["members", "teams", "id", "code", "team_code", "InnoDB", "set", "null",
      "cascade"], IsName s := by
    intro s hs
    have hall : ∀ s ∈ ["members", "teams", "id", "code", "team_code", "InnoDB", "set", "null",
        "cascade"], s ≠ "" ∧ ∀ c ∈ s.toList, Text.isAsciiWordPart c = true := by decide
    exact ⟨(hall s hs).1, (hall s hs).2⟩
  have hrelationship : Relationship.Plain
      ⟨"team_code", "code", "teams", some "set null", some "cascade"⟩ := by
    have hset : IsAction "set null" :=
      Or.inr ⟨"set", "null", hname _ (by decide), hname _ (by decide), by decide⟩
    have hcascade : IsAction "cascade" := Or.inl (hname _ (by decide))
    exact ⟨hname _ (by decide), hname _ (by decide), hname _ (by decide), by simpa using hset,
      by simpa using hcascade⟩
  have hcode : Column.Plain { type := .builder .string, name := "code" } :=
    ⟨⟨_, rfl⟩, hname _ (by decide), by decide, by simp, by simp⟩
  have hvalues : (Dict.ofList (memberColumns.map fun c => (c.name, c))).values = memberColumns := by
    decide
  have htables : membersAndTeams.tables.values =
      [{ name := "members", engine := some "InnoDB", primaryKey := some "id"
         columns := Dict.ofList (memberColumns.map fun c => (c.name, c))
         relationships := [⟨"team_code", "code", "teams", some "set null", some "cascade"⟩] },
       { name := "teams", primaryKey := some "code"
         columns := Dict.ofList [("code", { type := .builder .string, name := "code" })] }] := rfl
  refine ⟨by decide, fun t ht => ?_⟩
  rw [htables, List.mem_cons, List.mem_singleton] at ht
  rcases ht with rfl | rfl
  · refine ⟨hname _ (by decide), ?_, by simp, by simp, ?_, ?_, by decide, ?_, by decide⟩
    · simpa using hname "InnoDB" (by decide)
    · simpa using hname "id" (by decide)
    · rw [hvalues]
      exact plain_memberColumns
    · simpa using hrelationship
  · refine ⟨hname _ (by decide), by simp, by simp, by simp, ?_, ?_, by decide, by simp, by decide⟩
    · simpa using hname "code" (by decide)
    · simpa [Dict.values, Dict.ofList, Dict.insert, Dict.push] using hcode

/-- The teams are created first, since the members refer to them. -/
theorem order_membersAndTeams : membersAndTeams.order = .ok ["teams", "members"] := by
  have hfirst : membersAndTeams.pass [] ["members", "teams"] = (["teams"], ["members"]) := by
    decide
  have hsecond : membersAndTeams.pass ["teams"] ["members"] = (["teams", "members"], []) := by
    decide
  have hnames : membersAndTeams.tableNames = ["members", "teams"] := by decide
  rw [order, hnames, orderFrom, hfirst]
  rw [if_pos (by decide), orderFrom, hsecond]
  rw [if_pos (by decide), orderFrom]

/-- The two tables are created in the other order, and they come back as they were, but for the
primary key of the members, which is an increments column. -/
theorem replay_membersAndTeams :
    membersAndTeams.Plain ∧ membersAndTeams.order = .ok ["teams", "members"] ∧
      ∃ r names, Replay.sources {} (membersAndTeams.scriptMigrations ["teams", "members"]
          (·.table)) = (r, .ok names) ∧
        r.diagnostics = [] ∧ r.schema.tableNames = ["teams", "members"] ∧
        r.schema.table? "teams" = membersAndTeams.table? "teams" ∧
        r.schema.table? "members" = (membersAndTeams.table? "members").map fun t =>
          { t with primaryKey := none } := by
  obtain ⟨-, r, names, hsources, hdiagnostics, -, hnames, htables⟩ :=
    Plain.replay_scripts plain_membersAndTeams order_membersAndTeams (·.table)
  refine ⟨plain_membersAndTeams, order_membersAndTeams, r, names, hsources, hdiagnostics, hnames,
    ?_, ?_⟩
  · rw [htables]
    decide
  · rw [htables]
    decide

end Schema

end SchemaHistory

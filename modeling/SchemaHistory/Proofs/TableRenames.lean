import SchemaHistory.Proofs.Keyed

/-!
# Renamed tables

A table is renamed by taking it out, giving it the new name and storing it at the end. Then every
relationship of the schema is **redirected**: where it referred to the old name, it refers to the
new one. So a rename is three facts (`SchemaHistory.Schema.IsRename`): which names there are, what
the renamed table is, and what any other table is. They hold for every schema, also where the new
name belongs to another table, which is replaced then.

A rename can be undone if the new name is fresh, that is, neither a table nor a foreign table
before. A table with the new name would be lost, and a relationship that referred to the new name
already would be captured: it could not be told from one that has been redirected. Otherwise
redirecting back gives every relationship its old foreign table
(`SchemaHistory.Table.redirect_redirect`), and all that a rename and its reverse change is the
place of the table, which is the last one now.
-/

namespace SchemaHistory

/-- What a name has become after a rename of `old` to `new`. -/
def renamed (old new name : String) : String :=
  if name = old then new else name

/-- A table with its relationships **redirected** from `old` to `new`. -/
def Table.redirect (old new : String) (t : Table) : Table :=
  { t with relationships := t.relationships.map fun r =>
      { r with foreignTable := renamed old new r.foreignTable } }

/-- A schema that has come of another one by a **rename** of the table `t`. -/
structure Schema.IsRename (s : Schema) (old new : String) (t : Table) (s' : Schema) : Prop where
  /-- The new name is the last one, and the names of all other tables keep their order. -/
  tableNames : s'.tableNames = (s.tableNames.filter fun n => n ≠ old ∧ n ≠ new) ++ [new]
  /-- The renamed table is as it was, except that its references to itself are redirected. -/
  table?_new : s'.table? new = some { t.redirect old new with name := new }
  /-- Every other table is as it was, with its references redirected. -/
  table?_of_ne : ∀ name, name ≠ old → name ≠ new →
    s'.table? name = (s.table? name).map (Table.redirect old new)

/-! ### Names -/

section Names

variable {old new name : String}

@[simp] theorem renamed_self (old new : String) : renamed old new old = new :=
  if_pos rfl

theorem renamed_of_ne (h : name ≠ old) : renamed old new name = name :=
  if_neg h

/-- Renamed to itself, every name stays. -/
theorem renamed_same (old : String) : renamed old old = id := by
  funext name
  rw [renamed, id]
  split
  · exact Eq.symm ‹_›
  · rfl

/-- No name is the old one any more. -/
theorem renamed_ne_old (hne : old ≠ new) (name : String) : renamed old new name ≠ old := by
  by_cases h : name = old
  · rw [h, renamed_self]
    exact hne.symm
  · rwa [renamed_of_ne h]

/-- A fresh name can be renamed back. -/
theorem renamed_renamed (h : name ≠ new) : renamed new old (renamed old new name) = name := by
  by_cases hold : name = old
  · rw [hold, renamed_self, renamed_self]
  · rw [renamed_of_ne hold, renamed_of_ne h]

end Names

/-! ### Tables -/

namespace Table

variable {old new : String} {t : Table}

theorem foreignTables_redirect (old new : String) (t : Table) :
    (t.redirect old new).foreignTables = t.foreignTables.map (renamed old new) := by
  simp [foreignTables, redirect, Function.comp_def]

/-- **Redirecting can be undone** if no relationship referred to the new name before. -/
theorem redirect_redirect (h : new ∉ t.foreignTables) :
    (t.redirect old new).redirect new old = t := by
  have hback : t.relationships.map (fun r =>
      { r with foreignTable := renamed new old (renamed old new r.foreignTable) }) =
        t.relationships := by
    refine (List.map_congr_left fun r hr => ?_).trans (List.map_id _)
    have hne : r.foreignTable ≠ new := fun heq => h (heq ▸ List.mem_map_of_mem hr)
    rw [renamed_renamed hne]
    rfl
  simp only [redirect, List.map_map, Function.comp_def, hback]

/-- So a table that was renamed and redirected is itself again. -/
theorem rename_redirect (h : new ∉ t.foreignTables) (hname : t.name = old) :
    { ({ t.redirect old new with name := new } : Table).redirect new old with name := old } = t := by
  have hback : { ({ t.redirect old new with name := new } : Table).redirect new old with
      name := old } = { (t.redirect old new).redirect new old with name := old } := rfl
  rw [hback, redirect_redirect h, ← hname]

end Table

/-! ### Schemas -/

namespace Schema

variable {s s' s'' : Schema} {old new name : String} {t u : Table}

theorem isForeign_iff : s.IsForeign name ↔ ∃ n u, s.table? n = some u ∧ name ∈ u.foreignTables := by
  constructor
  · rintro ⟨u, hu, hname⟩
    obtain ⟨e, he, rfl⟩ := List.mem_map.1 hu
    exact ⟨e.1, e.2, Dict.find?_eq_some_iff.2 he, hname⟩
  · rintro ⟨n, u, hu, hname⟩
    exact ⟨u, mem_values_of_table? hu, hname⟩

theorem retarget_eq (old new : String) (r : Relationship) :
    retarget old new r = { r with foreignTable := renamed old new r.foreignTable } := by
  rw [retarget, renamed]
  split <;> rfl

/-- **A table that the schema has can be renamed.** The table that had the new name is handed
back. -/
theorem exists_rename (ht : s.table? old = some t) (hne : old ≠ new) :
    ∃ x, s.rename? old new = some x ∧ x.replaced = s.table? new ∧
      s.IsRename old new t x.schema := by
  have hredirect : (fun (_ : String) (u : Table) =>
      { u with relationships := u.relationships.map (retarget old new) }) =
        fun _ => Table.redirect old new := by
    funext _ u
    simp only [Table.redirect, ← retarget_eq]
  have hnew : new ∉ ((s.tables.erase old).erase new).keys := by simp [Dict.keys_erase]
  rw [rename?, ht, Option.map_some, hredirect]
  refine ⟨_, rfl, Dict.find?_erase_of_ne _ hne.symm, ?_, ?_, ?_⟩
  · simp only [Schema.tableNames, Dict.keys_mapValues]
    rw [Dict.keys_insert_of_not_mem _ hnew, Dict.keys_erase, Dict.keys_erase, List.filter_filter]
    refine congrArg (· ++ [new]) (List.filter_congr fun n _ => ?_)
    simp [Bool.and_comm]
  · simp only [table?, Dict.find?_mapValues, Dict.find?_insert_self, Option.map_some]
    rfl
  · intro name hold hnew
    simp only [table?, Dict.find?_mapValues]
    rw [Dict.find?_insert_of_ne _ hnew, Dict.find?_erase_of_ne _ hnew,
      Dict.find?_erase_of_ne _ hold]

namespace IsRename

theorem old_not_mem (h : s.IsRename old new t s') (hne : old ≠ new) : old ∉ s'.tableNames := by
  simp [h.tableNames, hne]

/-- A table of a schema after a rename is one from before, under the name that it has become. -/
theorem exists_of_table? (h : s.IsRename old new t s') (ht : s.table? old = some t)
    (hu : s'.table? name = some u) : ∃ n v, s.table? n = some v ∧
      u.foreignTables = v.foreignTables.map (renamed old new) := by
  by_cases hnew : name = new
  · rw [hnew, h.table?_new] at hu
    exact ⟨old, t, ht, Option.some.inj hu ▸ Table.foreignTables_redirect old new t⟩
  · have hmem : name ∈ s'.tableNames := mem_tableNames_iff.2 ⟨u, hu⟩
    have hold : name ≠ old := by
      intro hold
      simp [h.tableNames, hold ▸ hnew, hold] at hmem
    rw [h.table?_of_ne name hold hnew] at hu
    obtain ⟨v, hv, rfl⟩ := Option.map_eq_some_iff.1 hu
    exact ⟨name, v, hv, Table.foreignTables_redirect old new v⟩

/-- **No relationship refers to the old name any more.** -/
theorem not_isForeign (h : s.IsRename old new t s') (ht : s.table? old = some t)
    (hne : old ≠ new) : ¬s'.IsForeign old := by
  rw [isForeign_iff]
  rintro ⟨n, u, hu, hold⟩
  obtain ⟨-, v, -, hforeign⟩ := h.exists_of_table? ht hu
  rw [hforeign] at hold
  obtain ⟨d, -, hd⟩ := List.mem_map.1 hold
  exact renamed_ne_old hne d hd

section Undo

variable (h : s.IsRename old new t s')
  (hback : s'.IsRename new old { t.redirect old new with name := new } s'')

include h hback

/-- Renamed back, the names of the tables are the same, and only one has another place. -/
theorem tableNames_undo (hnew : new ∉ s.tableNames) :
    s''.tableNames = (s.tableNames.filter fun n => n ≠ old) ++ [old] := by
  rw [hback.tableNames, h.tableNames, List.filter_append, List.filter_filter,
    List.filter_cons_of_neg (by simp), List.filter_nil, List.append_nil]
  refine congrArg (· ++ [old]) (List.filter_congr fun n hn => ?_)
  have hne : n ≠ new := fun heq => hnew (heq ▸ hn)
  simp [hne]

/-- **A rename to a fresh name can be undone**: renamed back, every table is as it was. -/
theorem table?_undo (hkeyed : s.Keyed) (ht : s.table? old = some t) (hne : old ≠ new)
    (hnew : new ∉ s.tableNames) (hforeign : ¬s.IsForeign new) (name : String) :
    s''.table? name = s.table? name := by
  have hfresh : ∀ n u, s.table? n = some u → new ∉ u.foreignTables := fun n u hu hmem =>
    hforeign (isForeign_iff.2 ⟨n, u, hu, hmem⟩)
  by_cases hold : name = old
  · rw [hold, hback.table?_new, ht, Table.rename_redirect (hfresh old t ht) (hkeyed.name_eq ht)]
  by_cases hn : name = new
  · rw [hn, table?_eq_none_iff.2 (hback.old_not_mem hne.symm), table?_eq_none_iff.2 hnew]
  rw [hback.table?_of_ne name hn hold, h.table?_of_ne name hold hn, Option.map_map]
  cases hu : s.table? name with
  | none => rfl
  | some u => exact congrArg some (Table.redirect_redirect (hfresh name u hu))

end Undo

end IsRename

/-- **A rename moves the table with every reference, and can be undone.** Let a keyed schema have
the table `old`, which is renamed to another name `new`. Then `old` is neither a table nor a foreign
table. The last table is `new`, which is `old` as it was, every other table except a former `new` is
there in its order, and in all of them the relationships are as they were, except that `new` has
taken the place of `old`. A former `new` is handed back. If there was none, and `new` was not a
foreign table either, then the rename of `new` to `old` gives back every table as it was. -/
theorem rename_moves (h : s.Keyed) (ht : s.table? old = some t) (hne : old ≠ new) :
    ∃ x, s.rename? old new = some x ∧
      (old ∉ x.schema.tableNames ∧ ¬x.schema.IsForeign old) ∧
      s.IsRename old new t x.schema ∧ x.replaced = s.table? new ∧
      (new ∉ s.tableNames → ¬s.IsForeign new →
        ∃ y, x.schema.rename? new old = some y ∧ y.replaced = none ∧
          y.schema.tableNames = (s.tableNames.filter fun n => n ≠ old) ++ [old] ∧
          ∀ name, y.schema.table? name = s.table? name) := by
  obtain ⟨x, hx, hreplaced, hrename⟩ := exists_rename ht hne
  have hgone := hrename.old_not_mem hne
  refine ⟨x, hx, ⟨hgone, hrename.not_isForeign ht hne⟩, hrename, hreplaced, fun hnew hforeign => ?_⟩
  obtain ⟨y, hy, hnone, hback⟩ := exists_rename hrename.table?_new hne.symm
  exact ⟨y, hy, hnone.trans (table?_eq_none_iff.2 hgone), hrename.tableNames_undo hback hnew,
    hrename.table?_undo hback h ht hne hnew hforeign⟩

/-- Teams that belong to a team, between the users of a team and the logs of nothing. -/
def nestedTeams : Schema where
  tables := Dict.ofList
    [("users", { name := "users", relationships := [⟨"team_id", "id", "teams", none, none⟩] }),
     ("teams", {
        name := "teams"
        engine := some "InnoDB"
        relationships := [⟨"parent_id", "id", "teams", some "cascade", none⟩,
          ⟨"owner_id", "id", "users", none, none⟩] }),
     ("logs", { name := "logs" })]

/-- The teams become groups and teams again. -/
theorem rename_moves_nestedTeams :
    nestedTeams.Keyed ∧ "teams" ≠ "groups" ∧
      ∃ t x y, nestedTeams.table? "teams" = some t ∧
        nestedTeams.rename? "teams" "groups" = some x ∧
        x.schema.tableNames = ["users", "logs", "groups"] ∧
        x.schema.table? "groups" = some {
          name := "groups"
          engine := some "InnoDB"
          relationships := [⟨"parent_id", "id", "groups", some "cascade", none⟩,
            ⟨"owner_id", "id", "users", none, none⟩] } ∧
        x.schema.rename? "groups" "teams" = some y ∧
        y.schema.tableNames = ["users", "logs", "teams"] ∧
        ∀ name, y.schema.table? name = nestedTeams.table? name := by
  have hkeyed : nestedTeams.Keyed := by decide
  have hne : "teams" ≠ "groups" := by decide
  have hnames : nestedTeams.tableNames = ["users", "teams", "logs"] := by decide
  obtain ⟨t, ht⟩ := mem_tableNames_iff.1 (show "teams" ∈ nestedTeams.tableNames by decide)
  obtain ⟨x, hx, -, hrename, -, hundo⟩ := rename_moves hkeyed ht hne
  obtain ⟨y, hy, -, hback, htables⟩ := hundo (by decide) (by decide)
  refine ⟨hkeyed, hne, t, x, y, ht, hx, ?_, ?_, hy, ?_, htables⟩
  · rw [hrename.tableNames, hnames]
    decide
  · rw [hrename.table?_new]
    obtain rfl := Option.some.inj ht
    rfl
  · rw [hback, hnames]
    decide

end Schema

end SchemaHistory

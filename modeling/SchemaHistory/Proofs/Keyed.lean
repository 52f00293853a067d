import SchemaHistory.Schema

/-!
# Keyed schemas

A schema stores its tables under names, and a table bears a name as well. The two agree in every
schema that a replay builds, and the theorems about schemas ask for it: a schema in which every
table is stored under its own name is **keyed**.

The relationships of a table refer to its **foreign tables**, which the schema need not have.
-/

namespace SchemaHistory

/-- The **foreign tables** of a table, one for each relationship. -/
def Table.foreignTables (t : Table) : List String :=
  t.relationships.map (·.foreignTable)

namespace Schema

/-- Whether some relationship of the schema refers to a table of this name. -/
def IsForeign (s : Schema) (name : String) : Prop :=
  ∃ t ∈ s.tables.values, name ∈ t.foreignTables

instance (s : Schema) (name : String) : Decidable (s.IsForeign name) :=
  inferInstanceAs (Decidable (∃ t ∈ s.tables.values, name ∈ t.foreignTables))

/-- A schema is **keyed** if every table is stored under its own name. -/
def Keyed (s : Schema) : Prop :=
  ∀ e ∈ s.tables.entries, e.2.name = e.1

instance (s : Schema) : Decidable s.Keyed :=
  inferInstanceAs (Decidable (∀ e ∈ s.tables.entries, e.2.name = e.1))

variable {s : Schema}

theorem mem_tableNames_iff {name : String} :
    name ∈ s.tableNames ↔ ∃ t, s.table? name = some t := by
  constructor
  · exact Dict.exists_find?_of_mem_keys
  · rintro ⟨t, ht⟩
    exact Dict.mem_keys_of_find? ht

theorem table?_eq_none_iff {name : String} : s.table? name = none ↔ name ∉ s.tableNames :=
  Dict.find?_eq_none_iff

theorem nodup_tableNames (s : Schema) : s.tableNames.Nodup :=
  s.tables.nodup_keys

/-- The table that a keyed schema has under a name bears that name. -/
theorem Keyed.name_eq (h : s.Keyed) {name : String} {t : Table} (ht : s.table? name = some t) :
    t.name = name :=
  h (name, t) (Dict.find?_eq_some_iff.1 ht)

/-- The tables of a keyed schema are found under their own names. -/
theorem Keyed.table?_name (h : s.Keyed) {t : Table} (ht : t ∈ s.tables.values) :
    s.table? t.name = some t := by
  obtain ⟨e, he, rfl⟩ := List.mem_map.1 ht
  rw [h e he]
  exact Dict.find?_eq_some_iff.2 he

theorem mem_values_of_table? {name : String} {t : Table} (ht : s.table? name = some t) :
    t ∈ s.tables.values :=
  List.mem_map.2 ⟨(name, t), Dict.find?_eq_some_iff.1 ht, rfl⟩

/-- The tables that names stand for bear these names, in the same order. -/
theorem Keyed.map_name_filterMap (h : s.Keyed) {l : List String} (hl : ∀ n ∈ l, n ∈ s.tableNames) :
    (l.filterMap s.table?).map (·.name) = l := by
  induction l with
  | nil => rfl
  | cons n rest ih =>
    obtain ⟨t, ht⟩ := mem_tableNames_iff.1 (hl n List.mem_cons_self)
    rw [List.filterMap_cons_some ht, List.map_cons, h.name_eq ht,
      ih fun m hm => hl m (List.mem_cons_of_mem _ hm)]

/-! ### The table that is stored -/

theorem table?_setTable (s : Schema) (name : String) (t : Table) :
    (s.setTable name t).table? name = some t :=
  Dict.find?_insert_self _ _ _

/-- What is stored under another name does not matter. -/
theorem table?_setTable_of_ne (s : Schema) {other name : String} (h : other ≠ name) (t : Table) :
    (s.setTable name t).table? other = s.table? other :=
  Dict.find?_insert_of_ne _ h _

/-- The last table that is stored under a name stays. -/
theorem setTable_setTable (s : Schema) (name : String) (t u : Table) :
    (s.setTable name t).setTable name u = s.setTable name u :=
  congrArg Schema.mk (Dict.insert_insert_self _ _ _ _)

theorem tableOrNew_setTable (s : Schema) (name : String) (t : Table) :
    (s.setTable name t).tableOrNew name = t := by
  rw [tableOrNew, table?_setTable, Option.getD_some]

theorem setTable_of_table? {name : String} {t : Table} (ht : s.table? name = some t) :
    s.setTable name t = s :=
  congrArg Schema.mk (Dict.insert_eq_self ht)

/-! ### The table that is opened -/

theorem openTable_of_mem {name : String} (h : name ∈ s.tableNames) : s.openTable name = s := by
  rw [openTable, if_pos (Dict.mem_keys_iff_contains.1 h)]

/-- Opening a table finds the one that is there, or creates it. -/
theorem table?_openTable (s : Schema) (name : String) :
    (s.openTable name).table? name = some (s.tableOrNew name) := by
  by_cases h : name ∈ s.tableNames
  · obtain ⟨t, ht⟩ := mem_tableNames_iff.1 h
    rw [openTable_of_mem h, tableOrNew, ht, Option.getD_some]
  · rw [openTable, if_neg fun hc => h (Dict.mem_keys_iff_contains.2 hc), tableOrNew,
      table?_eq_none_iff.2 h, table?, Dict.find?_insert_self]
    rfl

/-- To open a table is to store the one that is there, or an empty one. -/
theorem openTable_eq_setTable (s : Schema) (name : String) :
    s.openTable name = s.setTable name (s.tableOrNew name) := by
  by_cases h : name ∈ s.tableNames
  · obtain ⟨t, ht⟩ := mem_tableNames_iff.1 h
    rw [openTable_of_mem h, tableOrNew, ht, Option.getD_some, setTable_of_table? ht]
  · rw [openTable, if_neg fun hc => h (Dict.mem_keys_iff_contains.2 hc), tableOrNew,
      table?_eq_none_iff.2 h, Option.getD_none]
    rfl

/-- A table that is stored anyway need not be opened before. -/
theorem setTable_openTable (s : Schema) (name : String) (t : Table) :
    (s.openTable name).setTable name t = s.setTable name t := by
  rw [openTable]
  split
  · rfl
  · exact setTable_setTable s name { name } t

theorem tableOrNew_openTable (s : Schema) (name : String) :
    (s.openTable name).tableOrNew name = s.tableOrNew name := by
  rw [tableOrNew, table?_openTable, Option.getD_some]

/-! ### Operations on keyed schemas -/

theorem keyed_empty : ({} : Schema).Keyed := by
  intro e he
  simp at he

theorem Keyed.setTable (h : s.Keyed) {name : String} {t : Table} (ht : t.name = name) :
    (s.setTable name t).Keyed := by
  intro e he
  rcases Dict.mem_entries_insert he with rfl | he
  · exact ht
  · exact h e he

theorem Keyed.openTable (h : s.Keyed) (name : String) : (s.openTable name).Keyed := by
  rw [Schema.openTable]
  split
  · exact h
  · exact h.setTable rfl

theorem Keyed.modifyTable (h : s.Keyed) {name : String} {f : Table → Table}
    (hf : ∀ t, (f t).name = t.name) : (s.modifyTable name f).Keyed := by
  intro e he
  obtain ⟨t, ht, het⟩ := Dict.mem_entries_modify he
  rw [het]
  split
  · rw [hf t]
    exact h (e.1, t) ht
  · exact h (e.1, t) ht

theorem Keyed.drop (h : s.Keyed) (name : String) : (s.drop name).Keyed := by
  intro e he
  obtain ⟨a, ha, rfl | rfl⟩ := exists_of_mem_drop he
  · exact h _ ha
  · exact h a ha

theorem Keyed.rename (h : s.Keyed) {old new : String} {renamed : Renamed}
    (hr : s.rename? old new = some renamed) : renamed.schema.Keyed := by
  intro e he
  obtain ⟨a, rfl, ⟨t, -, rfl⟩ | ha⟩ := exists_of_mem_rename hr he
  · rfl
  · exact h a ha

theorem Keyed.name_tableOrNew (h : s.Keyed) (name : String) : (s.tableOrNew name).name = name := by
  rw [tableOrNew]
  cases ht : s.table? name with
  | none => rfl
  | some t => exact h.name_eq ht

end Schema

end SchemaHistory

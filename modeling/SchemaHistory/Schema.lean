import SchemaHistory.Schema.Table

/-!
# The cumulative schema

A `Schema` is what a database looks like after a history of migrations: its tables under their
names, in the order in which they were created. Dropping a table takes the relationships of the
other tables to it along; renaming a table moves it to the end and points every relationship to
its new name.
-/

namespace SchemaHistory

/-- A **schema**: tables in creation order. -/
structure Schema where
  tables : Dict String Table := ∅
  deriving DecidableEq, Inhabited

/-- What dropping a table gives. -/
structure Dropped where
  /-- The table that is gone. -/
  table : Table
  /-- The relationships that went with it, each with the name of its owner. -/
  orphaned : List (String × Relationship)
  /-- The schema that is left. -/
  schema : Schema

/-- What renaming a table gives. -/
structure Renamed where
  /-- The table that had the new name before. -/
  replaced : Option Table
  schema : Schema

namespace Schema

/-- The table of a name. -/
def table? (s : Schema) (name : String) : Option Table :=
  s.tables.find? name

/-- The names of the tables, in creation order. -/
def tableNames (s : Schema) : List String :=
  s.tables.keys

/-- The schema with a table stored under a name. -/
def setTable (s : Schema) (name : String) (t : Table) : Schema :=
  ⟨s.tables.insert name t⟩

/-- The schema in which a table of this name exists: an empty one is created if need be. -/
def openTable (s : Schema) (name : String) : Schema :=
  if s.tables.contains name then s else ⟨s.tables.insert name { name }⟩

/-- The table of a name, which is an empty one if the schema has none. -/
def tableOrNew (s : Schema) (name : String) : Table :=
  (s.table? name).getD { name }

/-- The schema with one table changed, if it is there. -/
def modifyTable (s : Schema) (name : String) (f : Table → Table) : Schema :=
  ⟨s.tables.modify name f⟩

/-- The relationships of a table to a foreign table, with their owner. -/
def referencesTo (name : String) (t : Table) : List (String × Relationship) :=
  (t.relationships.filter (·.foreignTable == name)).map fun r => (t.name, r)

/-- A table without its relationships to a foreign table. -/
def withoutReferencesTo (name : String) (t : Table) : Table :=
  { t with relationships := t.relationships.filter (·.foreignTable != name) }

/-- **Dropping** a table, together with every relationship to it. A name that no table has drops
nothing. -/
def drop? (s : Schema) (name : String) : Option Dropped :=
  (s.table? name).map fun t =>
    let rest := s.tables.erase name
    { table := t
      orphaned := rest.values.flatMap (referencesTo name)
      schema := ⟨rest.mapValues fun _ => withoutReferencesTo name⟩ }

/-- The schema after a drop, which is the same schema if there is nothing to drop. -/
def drop (s : Schema) (name : String) : Schema :=
  match s.drop? name with
  | some d => d.schema
  | none => s

/-- A relationship that follows a table to its new name. -/
def retarget (old new : String) (r : Relationship) : Relationship :=
  if r.foreignTable = old then { r with foreignTable := new } else r

/-- **Renaming** a table. It becomes the last one, takes the place of a table that had the new
name, and every relationship to it follows. -/
def rename? (s : Schema) (old new : String) : Option Renamed :=
  (s.table? old).map fun t =>
    let rest := s.tables.erase old
    let moved := (rest.erase new).insert new { t with name := new }
    { replaced := rest.find? new
      schema := ⟨moved.mapValues fun _ u =>
        { u with relationships := u.relationships.map (retarget old new) }⟩ }

/-! ### Where the tables come from -/

/-- Behind a drop every table is one from before, or one without its references to what is gone. -/
theorem exists_of_mem_drop {s : Schema} {name : String} {e : String × Table}
    (h : e ∈ (s.drop name).tables.entries) :
    ∃ a ∈ s.tables.entries, e = a ∨ e = (a.1, withoutReferencesTo name a.2) := by
  rw [drop] at h
  cases hd : s.drop? name with
  | none => exact ⟨e, by simpa [hd] using h, .inl rfl⟩
  | some d =>
    rw [hd] at h
    obtain ⟨t, -, rfl⟩ := Option.map_eq_some_iff.1 hd
    obtain ⟨a, ha, rfl⟩ := List.mem_map.1 h
    exact ⟨a, Dict.mem_entries_of_mem_erase ha, .inr rfl⟩

/-- Behind a renaming every table is the renamed one or one from before, and its relationships have
followed. -/
theorem exists_of_mem_rename {s : Schema} {old new : String} {renamed : Renamed}
    (hr : s.rename? old new = some renamed) {e : String × Table}
    (h : e ∈ renamed.schema.tables.entries) :
    ∃ a : String × Table,
      e = (a.1, { a.2 with relationships := a.2.relationships.map (retarget old new) }) ∧
        ((∃ t, s.table? old = some t ∧ a = (new, { t with name := new })) ∨
          a ∈ s.tables.entries) := by
  obtain ⟨t, ht, rfl⟩ := Option.map_eq_some_iff.1 hr
  obtain ⟨a, ha, rfl⟩ := List.mem_map.1 h
  refine ⟨a, rfl, (Dict.mem_entries_insert ha).imp (fun heq => ⟨t, ht, heq⟩) fun ha => ?_⟩
  exact Dict.mem_entries_of_mem_erase (Dict.mem_entries_of_mem_erase ha)

end Schema

end SchemaHistory

import Mathlib.Data.List.Forall2
import SchemaHistory.Proofs.ForeignKeyColumns

/-!
# References to renamed columns

A foreign key names two columns, one of its own table and one of the table it refers to. If a
column is renamed, then the foreign keys of its own table go along, since a rename changes the local
columns in place, and no other table is touched (`SchemaHistory.Replay.step_columnRename`). The
foreign keys that refer to the column are left as they are, wherever they stand, in other tables or
in the same one. A rename of a table is different, as every foreign key to the table goes along.

So the references to a renamed column follow it exactly if there are none
(`SchemaHistory.Replay.references_follow_iff`). All others become **stale**: they refer to a column
that the table does not have any more. This is so for both ways to rename a column, by a call on the
open table and by a raw alteration.
-/

namespace SchemaHistory

/-- A foreign key **refers to** a column of a table. -/
def Relationship.RefersTo (k : Relationship) (table column : String) : Prop :=
  k.foreignTable = table ∧ k.foreignColumn = column

/-- The references to a renamed column **follow** it from one schema to another: each foreign key
that refers to the column has become one that refers to it by its new name. -/
def Schema.ReferencesFollow (x : ColumnRename) (s s' : Schema) : Prop :=
  ∀ name t, s.table? name = some t → ∃ t', s'.table? name = some t' ∧
    List.Forall₂ (fun k k' : Relationship => k.RefersTo x.table x.old → k'.RefersTo x.table x.new)
      t.relationships t'.relationships

/-- What the rename of a column makes of the names of the columns and of the foreign keys of its
table: the column takes its new name in place, and so do the foreign keys that belong to it. -/
structure Table.IsRenaming (old new : String) (t u : Table) : Prop where
  keys : u.columns.keys = t.columns.keys.map fun k => if k = old then new else k
  relationships : u.relationships = t.relationships.map (Table.relocate old new)

/-! ### What a foreign key refers to -/

namespace Relationship

variable {k : Relationship} {table column : String}

/-- The local column does not matter for what a foreign key refers to. -/
theorem refersTo_relocate (old new : String) :
    (Table.relocate old new k).RefersTo table column ↔ k.RefersTo table column := by
  rw [Table.relocate]
  split <;> rfl

/-- No foreign key refers to two columns. -/
theorem RefersTo.column_eq {other : String} (h : k.RefersTo table column)
    (hother : k.RefersTo table other) : column = other :=
  h.2.symm.trans hother.2

/-- Foreign keys that refer to what they referred to before follow a renamed column exactly if
none of them refers to it. -/
theorem forall₂_follow_iff (ks : List Relationship) (table : String)
    {f : Relationship → Relationship}
    (hf : ∀ k column, (f k).RefersTo table column ↔ k.RefersTo table column)
    {old new : String} (hne : old ≠ new) :
    List.Forall₂ (fun k k' : Relationship => k.RefersTo table old → k'.RefersTo table new) ks
      (ks.map f) ↔ ∀ k ∈ ks, ¬k.RefersTo table old := by
  rw [List.forall₂_map_right_iff, List.forall₂_same]
  refine forall₂_congr fun k _ => ⟨fun hfollow hk => hne ?_, fun hk h => absurd h hk⟩
  exact hk.column_eq ((hf k new).1 (hfollow hk))

end Relationship

/-! ### One table -/

namespace Table

variable {t t' : Table} {old new : String}

theorem exists_renameColumn? (hold : old ∈ t.columns.keys) (new : String) :
    ∃ t', t.renameColumn? old new = some t' :=
  ⟨_, if_pos (Dict.mem_keys_iff_contains.1 hold)⟩

theorem isRenaming_renameColumn? (ht : t.renameColumn? old new = some t')
    (hnew : new ∉ t.columns.keys) : IsRenaming old new t t' := by
  rw [renameColumn?_eq_some ht]
  exact ⟨Dict.keys_rekey hnew _, rfl⟩

/-- A renamed column is found under its new name, and it bears it. -/
theorem find?_renameColumn? (ht : t.renameColumn? old new = some t') (hold : old ∈ t.columns.keys)
    (hnew : new ∉ t.columns.keys) : ∃ c, t'.columns.find? new = some c ∧ c.name = new := by
  obtain ⟨c, hc⟩ := Dict.exists_find?_of_mem_keys hold
  rw [renameColumn?_eq_some ht]
  exact ⟨{ c with name := new }, Dict.find?_rekey hnew hc _, rfl⟩

/-- A raw alteration with a new name renames the column. It stores the altered column in place of
the renamed one and finds nothing to report. -/
theorem isRenaming_alter {a : Alteration} (hrenamed : a.renamed = some new)
    (hold : a.column ∈ t.columns.keys) (hnew : new ∉ t.columns.keys) (l : Location) :
    IsRenaming a.column new t (t.alter a l).1 ∧ (t.alter a l).2 = [] := by
  -- The alteration finds the renamed column, so it keeps the name that the column has by now.
  obtain ⟨t', ht⟩ := exists_renameColumn? hold new
  obtain ⟨c, hc, hname⟩ := find?_renameColumn? ht hold hnew
  have hrenaming := isRenaming_renameColumn? ht hnew
  have halter : t.alter a l = (t'.addColumn (Column.altered (some c) new a), []) := by
    simp only [alter, hrenamed, ht, Option.getD_some, hc, Option.isSome_some, if_true]
  have hmem : (Column.altered (some c) new a).name ∈ t'.columns.keys :=
    hname.symm ▸ Dict.mem_keys_of_find? hc
  rw [halter]
  refine ⟨⟨?_, hrenaming.relationships⟩, rfl⟩
  exact (Dict.keys_insert_of_mem _ hmem).trans hrenaming.keys

/-- So does a call, as far as the table is concerned. -/
theorem isRenaming_apply (key : String) {head : Call} (chain : Chain) (l : Location)
    (hname : head.name = "renameColumn") (hfrom : head.stringAt? 0 = some old)
    (hto : head.stringAt? 1 = some new) (hold : old ∈ t.columns.keys)
    (hnew : new ∉ t.columns.keys) :
    ∃ u, t.apply key head chain l = .ok (u, []) ∧ IsRenaming old new t u := by
  obtain ⟨t', ht⟩ := exists_renameColumn? hold new
  refine ⟨t', ?_, isRenaming_renameColumn? ht hnew⟩
  rw [apply_renameColumn hname hfrom hto, ht]

end Table

/-! ### One statement -/

namespace Replay

variable {r : Replay} {s : Statement} {x : ColumnRename} {t : Table}

/-- A statement that renames a column goes through without a report, and stores the table with the
column renamed. -/
theorem step_columnRename (hx : r.columnRename? s = some x) (ht : r.schema.table? x.table = some t)
    (hold : x.old ∈ t.columns.keys) (hnew : x.new ∉ t.columns.keys) (l : Location) :
    (∃ b, (r.step s l).2 = .proceed b) ∧ (r.step s l).1.diagnostics = r.diagnostics ∧
      ∃ u, Table.IsRenaming x.old x.new t u ∧
        (r.step s l).1.schema = r.schema.setTable x.table u := by
  cases s with
  | alteration a =>
    obtain ⟨new, hrenamed, rfl⟩ := Option.map_eq_some_iff.1 hx
    obtain ⟨hrenaming, hquiet⟩ := Table.isRenaming_alter hrenamed hold hnew l
    refine ⟨⟨true, rfl⟩, ?_, (t.alter a l).1, hrenaming, ?_⟩
    · simp only [step, alter, ht, report, hquiet, List.append_nil]
    · simp only [step, alter, ht, report]
  | calls chain =>
    obtain ⟨table, head, old, new, hopen, hhead, hname, hfrom, hto, rfl⟩ :=
      columnRename?_calls_eq_some_iff.1 hx
    obtain ⟨u, hu, hrenaming⟩ := Table.isRenaming_apply table chain l hname hfrom hto hold hnew
    have htable : (r.schema.openTable table).tableOrNew table = t := by
      rw [Schema.tableOrNew_openTable, Schema.tableOrNew, ht, Option.getD_some]
    have hcall : r.call chain l =
        ({ r with schema := (r.schema.openTable table).setTable table u }.report [], none) := by
      simp only [call, hhead, hopen, htable, hu]
    refine ⟨⟨false, ?_⟩, ?_, u, hrenaming, ?_⟩
    · simp only [step, hcall]
    · simp only [step, hcall, report, List.append_nil]
    · simp only [step, hcall, report, Schema.setTable_openTable]
  | _ => exact absurd hx (by simp [columnRename?])

/-- **The references to a renamed column follow it exactly if there are none.** A statement renames
a column of a table to a name that no column of the table has. It goes through without a report and
the column takes its new name, so do the foreign keys that belong to it, and no other table changes.
Therefore every foreign key that referred to the column refers to the old name still. -/
theorem references_follow_iff (hx : r.columnRename? s = some x)
    (ht : r.schema.table? x.table = some t) (hold : x.old ∈ t.columns.keys)
    (hnew : x.new ∉ t.columns.keys) (l : Location) :
    ((∃ b, (r.step s l).2 = .proceed b) ∧ (r.step s l).1.diagnostics = r.diagnostics) ∧
    (∃ u, (r.step s l).1.schema.table? x.table = some u ∧ Table.IsRenaming x.old x.new t u) ∧
    (∀ other, other ≠ x.table →
      (r.step s l).1.schema.table? other = r.schema.table? other) ∧
    (r.schema.ReferencesFollow x (r.step s l).1.schema ↔
      ∀ name u, r.schema.table? name = some u → ∀ k ∈ u.relationships,
        ¬k.RefersTo x.table x.old) := by
  obtain ⟨hproceeds, hquiet, u, hrenaming, hschema⟩ := step_columnRename hx ht hold hnew l
  have hrenamed : (r.step s l).1.schema.table? x.table = some u := by
    rw [hschema, Schema.table?_setTable]
  have hother : ∀ other, other ≠ x.table →
      (r.step s l).1.schema.table? other = r.schema.table? other := fun other hne => by
    rw [hschema, Schema.table?_setTable_of_ne _ hne]
  refine ⟨⟨hproceeds, hquiet⟩, ⟨u, hrenamed, hrenaming⟩, hother, ?_⟩
  have hne : x.old ≠ x.new := fun heq => hnew (heq ▸ hold)
  -- Table by table, since a foreign key is followed up at its own place in its own table.
  refine forall₃_congr fun name v hv => ?_
  by_cases hname : name = x.table
  · subst hname
    obtain rfl : t = v := Option.some.inj (ht.symm.trans hv)
    have hrelocated := Relationship.forall₂_follow_iff t.relationships x.table
      (fun _ _ => Relationship.refersTo_relocate x.old x.new) hne
    rw [hrenamed, ← hrelocated, ← hrenaming.relationships]
    simp
  · have hkept := Relationship.forall₂_follow_iff v.relationships x.table (f := id)
      (fun _ _ => Iff.rfl) hne
    rw [hother name hname, hv, ← hkept, List.map_id]
    simp

/-- The key of the users. -/
def idColumn : Column := { type := .builder .bigIncrements, name := "id" }

/-- Users with a key that other users refer to. -/
def referringUsers (key : Column) : Table where
  name := "users"
  columns := Dict.ofList
    [(key.name, key), ("boss_id", { type := .builder .foreignId, name := "boss_id" })]
  relationships := [⟨"boss_id", "id", "users", none, none⟩]

/-- Posts that refer to the key of the users. -/
def referringPosts : Table where
  name := "posts"
  columns := Dict.ofList [("user_id", { type := .builder .foreignId, name := "user_id" })]
  relationships := [⟨"user_id", "id", "users", none, none⟩]

/-- The schema of both. -/
def referredUsers (key : Column) : Schema where
  tables := Dict.ofList [("users", referringUsers key), ("posts", referringPosts)]

/-- The key is renamed in the block of its table, and its references do not follow. -/
theorem references_follow_iff_referredUsers :
    let r : Replay := {
      schema := referredUsers idColumn
      current := some "users" }
    let s := Statement.calls
      ⟨"$table", [⟨"renameColumn", [.string "id", .string "uid"], "'id', 'uid'", none⟩]⟩
    r.columnRename? s = some ⟨"users", "id", "uid"⟩ ∧
      (∃ t, r.schema.table? "users" = some t ∧ "id" ∈ t.columns.keys ∧ "uid" ∉ t.columns.keys) ∧
      ¬r.schema.ReferencesFollow ⟨"users", "id", "uid"⟩ (r.step s ⟨"b.php", 2⟩).1.schema := by
  intro r s
  have hx : r.columnRename? s = some ⟨"users", "id", "uid"⟩ := rfl
  have hold : "id" ∈ (r.schema.tableOrNew "users").columns.keys := by decide
  have hnew : "uid" ∉ (r.schema.tableOrNew "users").columns.keys := by decide
  refine ⟨hx, ⟨r.schema.tableOrNew "users", rfl, hold, hnew⟩, fun hfollow => ?_⟩
  have hnone := (references_follow_iff hx rfl hold hnew ⟨"b.php", 2⟩).2.2.2.1 hfollow
  exact hnone "posts" _ rfl _ List.mem_cons_self ⟨rfl, rfl⟩

/-- A source that creates the users. -/
def keyedUsers : Migration :=
  ⟨"a.php", "Schema::create('users', function ($table) \x7b\n$table->id();\n" ++
    "$table->foreignId('boss_id')->constrained('users');\n\x7d);"⟩

/-- A source that creates the posts. -/
def ownedPosts : Migration :=
  ⟨"b.php", "Schema::create('posts', function ($table) \x7b\n" ++
    "$table->foreignId('user_id')->constrained();\n\x7d);"⟩

/-- A source that renames the key of the users by a call. -/
def keyRenamedByCall : Migration :=
  ⟨"c.php", "Schema::table('users', function ($table) \x7b\n" ++
    "$table->renameColumn('id', 'uid');\n\x7d);"⟩

/-- A source that renames the key of the users by a raw alteration. -/
def keyRenamedBySql : Migration :=
  ⟨"c.php", "DB::statement('ALTER TABLE users CHANGE id uid BIGINT');"⟩

/-- No reference to the key follows if only the key is another one. -/
theorem not_follow_referredUsers (key key' : Column) :
    ¬(referredUsers key).ReferencesFollow ⟨"users", "id", "uid"⟩ (referredUsers key') := by
  intro hfollow
  obtain ⟨posts, hposts, hfollows⟩ := hfollow "posts" _ rfl
  obtain rfl := Option.some.inj hposts
  obtain ⟨hfirst, -⟩ := List.forall₂_cons.1 hfollows
  exact absurd (hfirst ⟨rfl, rfl⟩).2 (by decide)

/-- **References that become stale**, whichever way the column is renamed: the replay goes through,
and the references to the key have not followed it. -/
theorem keyedUsers_stale :
    ((({} : Replay).sources [keyedUsers, ownedPosts, keyRenamedByCall]).2 =
        .ok ["a.php", "b.php", "c.php"] ∧
      ¬(({} : Replay).sources [keyedUsers, ownedPosts]).1.schema.ReferencesFollow
        ⟨"users", "id", "uid"⟩
        (({} : Replay).sources [keyedUsers, ownedPosts, keyRenamedByCall]).1.schema) ∧
    ((({} : Replay).sources [keyedUsers, ownedPosts, keyRenamedBySql]).2 =
        .ok ["a.php", "b.php", "c.php"] ∧
      ¬(({} : Replay).sources [keyedUsers, ownedPosts]).1.schema.ReferencesFollow
        ⟨"users", "id", "uid"⟩
        (({} : Replay).sources [keyedUsers, ownedPosts, keyRenamedBySql]).1.schema) := by
  have husers : ({} : Replay).source keyedUsers =
      ({ schema := ⟨Dict.ofList [("users", referringUsers idColumn)]⟩ }, .ok true) := by
    decide +kernel
  have hposts : ({ schema := ⟨Dict.ofList [("users", referringUsers idColumn)]⟩ } :
      Replay).source ownedPosts = ({ schema := referredUsers idColumn }, .ok true) := by
    decide +kernel
  have hcall : ({ schema := referredUsers idColumn } : Replay).source keyRenamedByCall =
      ({ schema := referredUsers { idColumn with name := "uid" } }, .ok true) := by
    decide +kernel
  have hsql : ({ schema := referredUsers idColumn } : Replay).source keyRenamedBySql =
      ({ schema := referredUsers
          { type := .builder .bigInteger, name := "uid", nullable := true } }, .ok true) := by
    decide +kernel
  rw [sources_cons_of_ok husers, sources_cons_of_ok hposts, sources_cons_of_ok husers,
    sources_cons_of_ok hposts, sources_cons_of_ok husers, sources_cons_of_ok hposts,
    sources_cons_of_ok hcall, sources_cons_of_ok hsql]
  exact ⟨⟨rfl, not_follow_referredUsers _ _⟩, rfl, not_follow_referredUsers _ _⟩

end Replay

end SchemaHistory

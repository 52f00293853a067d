import SchemaHistory.Proofs.ConsistentReplays
import SchemaHistory.Proofs.ForeignKeyColumns
import SchemaHistory.Proofs.TableRenames

/-!
# Renamed columns

A column is renamed where it stands: its entry takes the new key, the column takes the new name, and
the primary key and the foreign keys of the table that name it go along. No other column moves, but
one that had the new name before gives way. All this is one relation between the table before and
after (`SchemaHistory.Table.IsColumnRename`), and a rename establishes it for every table and every
two names.

A rename can be undone if the new name is **fresh**: the table has no such column, and neither its
primary key nor a foreign key names one. These are the three places that a rename writes to, so a
name that stood in one of them already could not be told from the one that has been written.
-/

namespace SchemaHistory

/-- A table that has come of another one by a **rename** of its column `c`. -/
structure Table.IsColumnRename (old new : String) (c : Column) (t u : Table) : Prop where
  /-- The column bears its new name in its old place. A column that had the new name is gone, and
  all others are as they were, in their order. -/
  columns : u.columns.entries = (t.columns.entries.filter fun e => e.1 ≠ new).map fun e =>
    if e.1 = old then (new, { c with name := new }) else e
  /-- The primary key follows the column. -/
  primaryKey : u.primaryKey = t.primaryKey.map (renamed old new)
  /-- So do the foreign keys that belong to it. -/
  relationships : u.relationships = t.relationships.map fun k =>
    { k with localColumn := renamed old new k.localColumn }
  /-- The name of the table and its options stay. -/
  rest : u = { t with
    columns := u.columns
    primaryKey := u.primaryKey
    relationships := u.relationships }

/-- A name is **fresh** in a table if it names no column there, not even one that is missing. -/
structure Table.IsFresh (t : Table) (name : String) : Prop where
  column : name ∉ t.columns.keys
  primaryKey : t.primaryKey ≠ some name
  localColumn : name ∉ t.localColumns

namespace Table

variable {t u : Table} {old new : String} {c : Column}

/-! ### What a rename writes -/

theorem map_renamed (key : Option String) (old new : String) :
    (if key = some old then some new else key) = key.map (renamed old new) := by
  cases key with
  | none => simp
  | some name => by_cases h : name = old <;> simp [renamed, h]

theorem relocate_eq (old new : String) (k : Relationship) :
    relocate old new k = { k with localColumn := renamed old new k.localColumn } := by
  rw [relocate, renamed]
  split <;> rfl

theorem renameColumn?_eq_none (hold : old ∉ t.columns.keys) (new : String) :
    t.renameColumn? old new = none :=
  if_neg fun h => hold (Dict.mem_keys_iff_contains.2 h)

theorem renameColumn?_of_find? (hc : t.columns.find? old = some c) (new : String) :
    t.renameColumn? old new = some { t with
      columns := t.columns.rekey old new fun c => { c with name := new }
      primaryKey := t.primaryKey.map (renamed old new)
      relationships := t.relationships.map fun k =>
        { k with localColumn := renamed old new k.localColumn } } := by
  have hold : t.columns.contains old = true :=
    Dict.mem_keys_iff_contains.1 (Dict.mem_keys_of_find? hc)
  rw [renameColumn?, if_pos hold, map_renamed, List.map_congr_left fun k _ => relocate_eq old new k]

/-- **A column that the table has is renamed**, whatever the new name is. -/
theorem exists_isColumnRename (hc : t.columns.find? old = some c) (hne : old ≠ new) :
    ∃ u, t.renameColumn? old new = some u ∧ IsColumnRename old new c t u := by
  refine ⟨_, renameColumn?_of_find? hc new, ⟨?_, rfl, rfl, rfl⟩⟩
  rw [Dict.entries_rekey_of_ne _ hne]
  refine List.map_congr_left fun e he => ?_
  by_cases hk : e.1 = old
  · have hfound : t.columns.find? e.1 = some e.2 :=
      Dict.find?_eq_some_iff.2 (List.mem_of_mem_filter he)
    rw [hk, hc] at hfound
    rw [if_pos hk, if_pos hk, Option.some.inj hfound]
  · rw [if_neg hk, if_neg hk]

/-! ### Renaming back -/

/-- **A rename to a fresh name can be undone.** -/
theorem renameColumn?_undo (h : t.Keyed) (hc : t.columns.find? old = some c) (hne : old ≠ new)
    (hfresh : t.IsFresh new) (hu : t.renameColumn? old new = some u) :
    u.renameColumn? new old = some t := by
  have hname : c.name = old := h (old, c) (Dict.find?_eq_some_iff.1 hc)
  rw [renameColumn?_of_find? hc new] at hu
  obtain rfl := Option.some.inj hu
  have hcolumns := Dict.rekey_rekey (d := t.columns) (f := fun c => { c with name := new })
    (g := fun c => { c with name := old }) hne hfresh.column fun v hv => by
      obtain rfl := Option.some.inj (hc.symm.trans hv)
      rw [← hname]
  have hkey : (t.primaryKey.map (renamed old new)).map (renamed new old) = t.primaryKey := by
    cases hk : t.primaryKey with
    | none => rfl
    | some name =>
      have hname : name ≠ new := fun heq => hfresh.primaryKey (heq ▸ hk)
      simp [renamed_renamed hname]
  have hrelationships : t.relationships.map (fun k =>
      { k with localColumn := renamed new old (renamed old new k.localColumn) }) =
        t.relationships := by
    refine (List.map_congr_left fun k hk => ?_).trans (List.map_id _)
    have hlocal : k.localColumn ≠ new := fun heq =>
      hfresh.localColumn (heq ▸ List.mem_map_of_mem hk)
    rw [renamed_renamed hlocal]
    rfl
  rw [renameColumn?_of_find? (Dict.find?_rekey hfresh.column hc _)]
  simp only [hcolumns, hkey, List.map_map, Function.comp_def, hrelationships]

/-- **A rename keeps the place of a column and all that it does not name, and can be undone.** A
column that the table does not have is not renamed: a call that asks for it is reported, and the
table stays as it is. A column that a keyed table has gets every other name. It keeps its place and
its attributes, a column that had the new name is gone, the primary key and the foreign keys that
named the column follow it, and all else stays. If the new name was fresh, the rename back gives the
very table from before. -/
theorem renameColumn?_in_place (t : Table) (old new : String) :
    (old ∉ t.columns.keys → t.renameColumn? old new = none ∧
      ∀ key head l, head.stringAt? 0 = some old → head.stringAt? 1 = some new →
        t.renameByCall key head l = .ok (t, [.unknownColumn key old l])) ∧
    (t.Keyed → old ≠ new → ∀ c, t.columns.find? old = some c →
      ∃ u, t.renameColumn? old new = some u ∧ IsColumnRename old new c t u ∧
        (t.IsFresh new → u.renameColumn? new old = some t)) := by
  constructor
  · intro hold
    have hnone := renameColumn?_eq_none hold new
    refine ⟨hnone, fun key head l hfrom hto => ?_⟩
    simp only [renameByCall, hfrom, hto, hnone]
  · intro hkeyed hne c hc
    obtain ⟨u, hu, hrename⟩ := exists_isColumnRename hc hne
    exact ⟨u, hu, hrename, fun hfresh => renameColumn?_undo hkeyed hc hne hfresh hu⟩

/-- Posts whose key is the user who wrote them. -/
def authoredPosts : Table where
  name := "posts"
  engine := some "InnoDB"
  primaryKey := some "user_id"
  columns := Dict.ofList
    [("id", { type := .builder .integer, name := "id" }),
     ("user_id", { type := .builder .foreignId, name := "user_id", unsigned := true }),
     ("title", { type := .builder .string, name := "title" })]
  relationships := [⟨"user_id", "id", "users", some "cascade", none⟩]

/-- The user becomes the author and the user again. As the title, it displaces the title, and a
title that is not there is not renamed. -/
theorem renameColumn?_in_place_authoredPosts :
    authoredPosts.Keyed ∧ authoredPosts.IsFresh "author_id" ∧
      (∃ c u, authoredPosts.columns.find? "user_id" = some c ∧
        authoredPosts.renameColumn? "user_id" "author_id" = some u ∧
        u.columns.entries = [("id", { type := .builder .integer, name := "id" }),
          ("author_id", { c with name := "author_id" }),
          ("title", { type := .builder .string, name := "title" })] ∧
        u.primaryKey = some "author_id" ∧
        u.relationships = [⟨"author_id", "id", "users", some "cascade", none⟩] ∧
        u.renameColumn? "author_id" "user_id" = some authoredPosts) ∧
      (∃ u, authoredPosts.renameColumn? "user_id" "title" = some u ∧
        u.columns.keys = ["id", "title"]) ∧
      authoredPosts.renameColumn? "subtitle" "title" = none := by
  have hkeyed : authoredPosts.Keyed :=
    (by decide : ∀ e ∈ authoredPosts.columns.entries, e.2.name = e.1)
  have hfresh : authoredPosts.IsFresh "author_id" := ⟨by decide, by decide, by decide⟩
  obtain ⟨c, hc⟩ := Dict.exists_find?_of_mem_keys
    (show "user_id" ∈ authoredPosts.columns.keys by decide)
  obtain ⟨u, hu, hrename, hundo⟩ :=
    (renameColumn?_in_place authoredPosts "user_id" "author_id").2 hkeyed (by decide) c hc
  obtain ⟨w, hw, hdisplaced, -⟩ :=
    (renameColumn?_in_place authoredPosts "user_id" "title").2 hkeyed (by decide) c hc
  refine ⟨hkeyed, hfresh, ⟨c, u, hc, hu, ?_, ?_, ?_, hundo hfresh⟩, ⟨w, hw, ?_⟩,
    ((renameColumn?_in_place authoredPosts "subtitle" "title").1 (by decide)).1⟩
  · rw [hrename.columns]
    rfl
  · rw [hrename.primaryKey]
    rfl
  · rw [hrename.relationships]
    rfl
  · rw [Dict.keys, hdisplaced.columns]
    rfl

end Table

end SchemaHistory

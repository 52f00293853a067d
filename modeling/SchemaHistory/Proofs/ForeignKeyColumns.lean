import Mathlib.Control.Monad.Basic
import Mathlib.Data.List.Nodup
import SchemaHistory.Proofs.LastingProperties
import SchemaHistory.Proofs.Visits

/-!
# The columns of foreign keys

A foreign key belongs to its local column: adding one replaces the one of the same column. A table
is **unambiguous** if no two of its foreign keys belong to one column, and everything that a
migration can do to a table keeps it so, with one exception. A column that is renamed to the name
of another column displaces it, but the foreign key of the displaced column stays, under the name
that now belongs to the renamed one. If the renamed column has a foreign key as well, the two
**clash** (`SchemaHistory.Table.Clashes`).

This is the only way: a statement leaves an ambiguous table behind exactly if it is a rename that
clashes (`SchemaHistory.Replay.each_unambiguous_step_iff`), so the states of a replay are
unambiguous exactly if none of its lines clashes
(`SchemaHistory.Replay.unambiguous_iff_not_clashes`).
-/

namespace SchemaHistory

namespace Table

/-- The local columns of the foreign keys, in order. -/
def localColumns (t : Table) : List String :=
  t.relationships.map (·.localColumn)

/-- A table is **unambiguous** if no two of its foreign keys belong to the same column. -/
def Unambiguous (t : Table) : Prop :=
  t.localColumns.Nodup

instance (t : Table) : Decidable t.Unambiguous :=
  inferInstanceAs (Decidable t.localColumns.Nodup)

/-- The rename of a column **clashes** if it moves a foreign key onto another one. -/
def Clashes (t : Table) (old new : String) : Prop :=
  t.columns.contains old = true ∧ old ≠ new ∧ old ∈ t.localColumns ∧ new ∈ t.localColumns

instance (t : Table) (old new : String) : Decidable (t.Clashes old new) :=
  inferInstanceAs (Decidable (_ ∧ _))

variable {t : Table}

/-! ### One table -/

theorem unambiguous_of_sublist {u : Table} (h : t.Unambiguous)
    (hsub : u.relationships.Sublist t.relationships) : u.Unambiguous :=
  h.sublist (hsub.map _)

theorem unambiguous_congr {u : Table} (h : u.relationships = t.relationships) :
    u.Unambiguous ↔ t.Unambiguous := by
  rw [Unambiguous, Unambiguous, localColumns, localColumns, h]

theorem localColumns_withRelationships (rs : List Relationship) :
    localColumns { t with relationships := rs } = rs.map (·.localColumn) := rfl

/-- Adding a foreign key keeps the local columns, or adds a new one at the end. -/
theorem map_replaceFirst (r : Relationship) (rs : List Relationship) :
    (replaceFirst (·.localColumn == r.localColumn) r rs).map (·.localColumn) =
      if r.localColumn ∈ rs.map (·.localColumn) then rs.map (·.localColumn)
      else rs.map (·.localColumn) ++ [r.localColumn] := by
  induction rs with
  | nil => simp [replaceFirst]
  | cons s rest ih =>
    by_cases hs : s.localColumn = r.localColumn
    · simp [replaceFirst, hs]
    · have hne : ¬r.localColumn = s.localColumn := fun heq => hs heq.symm
      rw [replaceFirst, if_neg (by simpa using hs), List.map_cons, ih, List.map_cons]
      simp only [List.mem_cons, hne, false_or]
      split <;> rfl

theorem Unambiguous.addRelationship (h : t.Unambiguous) (r : Relationship) :
    (t.addRelationship r).Unambiguous := by
  rw [Unambiguous, Table.addRelationship, localColumns_withRelationships, map_replaceFirst]
  split
  · exact h
  · rename_i hr
    refine List.nodup_append.2 ⟨h, List.pairwise_singleton _ _, ?_⟩
    rintro a ha b hb rfl
    exact hr (List.mem_singleton.1 hb ▸ ha)

theorem Unambiguous.dropRelationships (h : t.Unambiguous) (names : List String) :
    (t.dropRelationships names).Unambiguous := by
  induction names generalizing t with
  | nil => exact h
  | cons name names ih =>
    exact ih (t := t.dropRelationship name) (unambiguous_of_sublist h List.eraseP_sublist)

@[simp] theorem relationships_dropColumns (names : List String) :
    (t.dropColumns names).relationships = t.relationships := by
  induction names generalizing t with
  | nil => rfl
  | cons name names ih => exact ih (t := t.dropColumn name)

/-- The local columns after a column is renamed. -/
theorem localColumns_renameColumn? {t' : Table} {old new : String}
    (ht : t.renameColumn? old new = some t') :
    t'.localColumns = t.localColumns.map fun k => if k = old then new else k := by
  rw [renameColumn?_eq_some ht, localColumns_withRelationships, localColumns, List.map_map,
    List.map_map]
  refine List.map_congr_left fun r _ => ?_
  by_cases hr : r.localColumn = old <;> simp [relocate, hr]

/-- **A rename of a column leaves the table unambiguous exactly if it does not clash.** -/
theorem unambiguous_renameColumn?_iff (h : t.Unambiguous) {t' : Table} {old new : String}
    (ht : t.renameColumn? old new = some t') : t'.Unambiguous ↔ ¬t.Clashes old new := by
  have hcontains : t.columns.contains old = true := by
    rw [renameColumn?] at ht
    split at ht
    · assumption
    · exact absurd ht (by simp)
  rw [Unambiguous, localColumns_renameColumn? ht]
  constructor
  · -- Both columns are sent to the new name, so they would have to be one.
    rintro hnodup ⟨-, hne, hold, hnew⟩
    have hsame : (if old = old then new else old) = if new = old then new else new := by simp
    exact hne (List.inj_on_of_nodup_map hnodup hold hnew hsame)
  · intro hclash
    by_cases hnew : new = old ∨ new ∉ t.localColumns
    · exact Dict.nodup_replace h hnew
    · -- The old column has no foreign key, so nothing is renamed.
      obtain ⟨hne, hmem⟩ := not_or.1 hnew
      have hold : old ∉ t.localColumns := fun hold =>
        hclash ⟨hcontains, fun heq => hne heq.symm, hold, not_not.1 hmem⟩
      have hsame : (t.localColumns.map fun k => if k = old then new else k) = t.localColumns := by
        refine (List.map_congr_left fun k hk => ?_).trans (List.map_id _)
        exact if_neg fun heq : k = old => hold (heq ▸ hk)
      rw [hsame]
      exact h

theorem not_clashes_of_renameColumn?_eq_none {old new : String}
    (ht : t.renameColumn? old new = none) : ¬t.Clashes old new := by
  rintro ⟨hcontains, -⟩
  rw [renameColumn?, if_pos hcontains] at ht
  exact absurd ht (by simp)

/-- **A raw alteration leaves the table unambiguous exactly if it does not rename with a clash.** -/
theorem unambiguous_alter_iff (h : t.Unambiguous) (a : Alteration) (l : Location) :
    (t.alter a l).1.Unambiguous ↔ ∀ new, a.renamed = some new → ¬t.Clashes a.column new := by
  cases hrenamed : a.renamed with
  | none =>
    have hkept : (t.alter a l).1.relationships = t.relationships := by
      simp [alter, hrenamed, addColumn]
    exact iff_of_true ((unambiguous_congr hkept).2 h) (by simp)
  | some new =>
    have hforall : (∀ other, some new = some other → ¬t.Clashes a.column other) ↔
        ¬t.Clashes a.column new :=
      ⟨fun hall => hall new rfl, fun hclash other hother => Option.some.inj hother ▸ hclash⟩
    rw [hforall]
    cases hmoved : t.renameColumn? a.column new with
    | none =>
      have hkept : (t.alter a l).1.relationships = t.relationships := by
        simp [alter, hrenamed, hmoved, addColumn]
      exact iff_of_true ((unambiguous_congr hkept).2 h)
        (not_clashes_of_renameColumn?_eq_none hmoved)
    | some t' =>
      have hkept : (t.alter a l).1.relationships = t'.relationships := by
        simp [alter, hrenamed, hmoved, addColumn]
      rw [unambiguous_congr hkept, unambiguous_renameColumn?_iff h hmoved]

/-- A call that renames a column succeeds; it reports a column that is not there. -/
theorem apply_renameColumn {key : String} {head : Call} {chain : Chain} {l : Location}
    {old new : String} (hname : head.name = "renameColumn") (hold : head.stringAt? 0 = some old)
    (hnew : head.stringAt? 1 = some new) :
    t.apply key head chain l = match t.renameColumn? old new with
      | some t' => .ok (t', [])
      | none => .ok (t, [.unknownColumn key old l]) := by
  have hread : t.apply key head chain l = t.renameByCall key head l := by
    simp only [apply, hname]
  rw [hread, renameByCall]
  simp only [hold, hnew]
  rfl

/-- **A call leaves the table unambiguous exactly if it does not rename with a clash.** -/
theorem unambiguous_apply_iff (h : t.Unambiguous) {key : String} {head : Call} {chain : Chain}
    {l : Location} {e : Table × List Failure} (he : t.apply key head chain l = .ok e) :
    e.1.Unambiguous ↔ ∀ old new, head.name = "renameColumn" → head.stringAt? 0 = some old →
      head.stringAt? 1 = some new → ¬t.Clashes old new := by
  constructor
  · intro hafter old new hname hold hnew
    rw [apply_renameColumn hname hold hnew] at he
    cases ht : t.renameColumn? old new with
    | none => exact not_clashes_of_renameColumn?_eq_none ht
    | some t' =>
      rw [ht] at he
      obtain rfl := Except.ok.inj he
      exact (unambiguous_renameColumn?_iff h ht).1 hafter
  · intro hclash
    cases answers_of_apply he with
    | primary => exact h
    | report => exact h
    | unique => exact h
    | rename old new t' hname hold hnew ht =>
      exact (unambiguous_renameColumn?_iff h ht).2 (hclash old new hname hold hnew)
    | dropColumns names => exact (unambiguous_congr (relationships_dropColumns names)).2 h
    | foreign r _ => exact h.addRelationship r
    | dropRelationships names => exact h.dropRelationships names
    | define type e _ hdefine =>
      obtain ⟨c, -, -, t', he, -, -, hrelationships⟩ := define_eq_ok hdefine
      rw [he]
      rcases hrelationships with hkept | ⟨r, -, hadded⟩
      · exact (unambiguous_congr (u := t'.addColumn c) hkept).2 h
      · exact (unambiguous_congr (u := t'.addColumn c) hadded).2 (h.addRelationship r)

theorem lasting_unambiguous : Lasting Unambiguous where
  empty _ := List.nodup_nil
  named _ h := h
  pruned _ h := unambiguous_of_sublist h List.filter_sublist
  retargeted {t} old new h := by
    have hsame : (t.relationships.map (Schema.retarget old new)).map (·.localColumn) =
        t.localColumns := by
      rw [localColumns, List.map_map]
      refine List.map_congr_left fun r _ => ?_
      simp only [Function.comp_apply, Schema.retarget]
      split <;> rfl
    rw [Unambiguous, localColumns_withRelationships, hsame]
    exact h
  assigned property value h := by
    unfold assign
    split <;> exact h

end Table

/-! ### One statement -/

/-- The rename of a column, in the table of a name. -/
structure ColumnRename where
  table : String
  old : String
  new : String

namespace Replay

/-- The rename of a column that a statement asks for, if it does: a raw alteration with a new name,
or a call on the open table. -/
def columnRename? (r : Replay) : Statement → Option ColumnRename
  | .alteration a => a.renamed.map fun new => ⟨a.table, a.column, new⟩
  | .calls chain =>
    match r.current, chain.head? with
    | some table, some head =>
      if head.name = "renameColumn" then
        (head.stringAt? 0).bind fun old => (head.stringAt? 1).map fun new => ⟨table, old, new⟩
      else
        none
    | _, _ => none
  | _ => none

/-- A statement **clashes** if it renames a column and moves a foreign key onto another one. -/
def Clashes (r : Replay) (s : Statement) : Prop :=
  ∃ x, r.columnRename? s = some x ∧ (r.schema.tableOrNew x.table).Clashes x.old x.new

variable {r : Replay}

theorem not_clashes_of_columnRename?_eq_none {s : Statement} (h : r.columnRename? s = none) :
    ¬r.Clashes s := by
  rintro ⟨x, hx, -⟩
  rw [h] at hx
  exact absurd hx (by simp)

theorem clashes_alteration_iff {a : Alteration} :
    r.Clashes (.alteration a) ↔
      ∃ new, a.renamed = some new ∧ (r.schema.tableOrNew a.table).Clashes a.column new := by
  constructor
  · rintro ⟨x, hx, hclash⟩
    obtain ⟨new, hnew, rfl⟩ := Option.map_eq_some_iff.1 hx
    exact ⟨new, hnew, hclash⟩
  · rintro ⟨new, hnew, hclash⟩
    exact ⟨⟨a.table, a.column, new⟩, by simp [columnRename?, hnew], hclash⟩

/-- The renames that calls ask for: the first call says which, and the open table is meant. -/
theorem columnRename?_calls_eq_some_iff {chain : Chain} {x : ColumnRename} :
    r.columnRename? (.calls chain) = some x ↔
      ∃ table head old new, r.current = some table ∧ chain.head? = some head ∧
        head.name = "renameColumn" ∧ head.stringAt? 0 = some old ∧ head.stringAt? 1 = some new ∧
        x = ⟨table, old, new⟩ := by
  constructor
  · intro hx
    simp only [columnRename?] at hx
    split at hx
    · rename_i table head htable hhead
      split at hx
      · rename_i hname
        obtain ⟨old, hold, hx⟩ := Option.bind_eq_some_iff.1 hx
        obtain ⟨new, hnew, rfl⟩ := Option.map_eq_some_iff.1 hx
        exact ⟨table, head, old, new, htable, hhead, hname, hold, hnew, rfl⟩
      · exact absurd hx (by simp)
    · exact absurd hx (by simp)
  · rintro ⟨table, head, old, new, htable, hhead, hname, hold, hnew, rfl⟩
    simp [columnRename?, htable, hhead, hname, hold, hnew]

theorem clashes_calls_iff {chain : Chain} :
    r.Clashes (.calls chain) ↔
      ∃ table head old new, r.current = some table ∧ chain.head? = some head ∧
        head.name = "renameColumn" ∧ head.stringAt? 0 = some old ∧ head.stringAt? 1 = some new ∧
        (r.schema.tableOrNew table).Clashes old new := by
  constructor
  · rintro ⟨x, hx, hclash⟩
    obtain ⟨table, head, old, new, htable, hhead, hname, hold, hnew, rfl⟩ :=
      columnRename?_calls_eq_some_iff.1 hx
    exact ⟨table, head, old, new, htable, hhead, hname, hold, hnew, hclash⟩
  · rintro ⟨table, head, old, new, htable, hhead, hname, hold, hnew, hclash⟩
    exact ⟨⟨table, old, new⟩, columnRename?_calls_eq_some_iff.2
      ⟨table, head, old, new, htable, hhead, hname, hold, hnew, rfl⟩, hclash⟩

/-- A table that has a column is one of the schema. -/
theorem table?_of_clashes {name old new : String} (h : (r.schema.tableOrNew name).Clashes old new) :
    r.schema.table? name = some (r.schema.tableOrNew name) := by
  cases ht : r.schema.table? name with
  | some t => rw [Schema.tableOrNew, ht, Option.getD_some]
  | none =>
    rw [Schema.tableOrNew, ht] at h
    exact absurd h.1 (by simp [Dict.contains])

/-- **A statement leaves an ambiguous table behind exactly if it clashes.** -/
theorem each_unambiguous_step_iff (h : r.schema.Each Table.Unambiguous) (s : Statement)
    (l : Location) : (r.step s l).1.schema.Each Table.Unambiguous ↔ ¬r.Clashes s := by
  constructor
  · intro hafter hclash
    -- The table of a clash is in the schema, so what the statement makes of it is stored there.
    cases s with
    | alteration a =>
      obtain ⟨new, hnew, hclash⟩ := clashes_alteration_iff.1 hclash
      have ht := table?_of_clashes hclash
      have hschema : (r.step (.alteration a) l).1.schema =
          r.schema.setTable a.table ((r.schema.tableOrNew a.table).alter a l).1 := by
        simp only [step, alter, ht, report]
      rw [hschema] at hafter
      have hstored := hafter.table? (Schema.table?_setTable _ _ _)
      exact (Table.unambiguous_alter_iff (h.table? ht) a l).1 hstored new hnew hclash
    | calls chain =>
      obtain ⟨table, head, old, new, htable, hhead, hname, hold, hnew, hclash⟩ :=
        clashes_calls_iff.1 hclash
      have ht := table?_of_clashes hclash
      obtain ⟨e, he⟩ : ∃ e, (r.schema.tableOrNew table).apply table head chain l = .ok e := by
        rw [Table.apply_renameColumn hname hold hnew]
        split <;> exact ⟨_, rfl⟩
      have hschema : (r.step (.calls chain) l).1.schema =
          (r.schema.openTable table).setTable table e.1 := by
        simp only [step, call, hhead, htable, Schema.tableOrNew_openTable, he, report]
      rw [hschema] at hafter
      have hstored := hafter.table? (Schema.table?_setTable _ _ _)
      exact (Table.unambiguous_apply_iff (h.table? ht) he).1 hstored old new hname hold hnew hclash
    | _ => exact not_clashes_of_columnRename?_eq_none rfl hclash
  · intro hclash
    -- Of all statements only these two do something to a table that it might not survive.
    refine each_step Table.lasting_unambiguous h ?_ ?_
    · rintro a t rfl ht
      refine (Table.unambiguous_alter_iff (h.table? ht) a l).2 fun new hnew hclashes => hclash ?_
      refine clashes_alteration_iff.2 ⟨new, hnew, ?_⟩
      rwa [Schema.tableOrNew, ht, Option.getD_some]
    · rintro chain head name e rfl hhead hname he
      rw [Schema.tableOrNew_openTable] at he
      have htable := h.tableOrNew Table.lasting_unambiguous name
      refine (Table.unambiguous_apply_iff htable he).2 fun old new hrename hold hnew hclashes => ?_
      exact hclash (clashes_calls_iff.2
        ⟨name, head, old, new, hname, hhead, hrename, hold, hnew, hclashes⟩)

end Replay

/-! ### All lines -/

/-- A visit **clashes** if its line is recognised as a statement that does. -/
def Visit.Clashes (v : Visit) : Prop :=
  ∃ s, Statement.recognize v.text.toList v.before.current.isSome v.location = .ok (some s) ∧
    v.before.Clashes s

namespace Replay

variable {r : Replay}

/-- A line leaves an ambiguous table behind exactly if it clashes. -/
theorem each_unambiguous_after_iff {v : Visit} (h : v.before.schema.Each Table.Unambiguous) :
    v.after.schema.Each Table.Unambiguous ↔ ¬v.Clashes := by
  rw [Visit.after, line, Visit.Clashes]
  cases hs : Statement.recognize v.text.toList v.before.current.isSome v.location with
  | error f => simpa using h
  | ok s? =>
    cases s? with
    | none => simpa using h
    | some s => simpa using each_unambiguous_step_iff h s v.location

/-- **The states behind lines are unambiguous exactly if no line clashes.** -/
theorem visits_unambiguous_iff (h : r.schema.Each Table.Unambiguous) (source : String) (n : Nat)
    (texts : List String) :
    (∀ v ∈ visits source n r texts, v.after.schema.Each Table.Unambiguous) ↔
      ∀ v ∈ visits source n r texts, ¬v.Clashes := by
  induction texts generalizing n r with
  | nil => simp [visits]
  | cons text rest ih =>
    have hfirst := each_unambiguous_after_iff (v := ⟨r, text, ⟨source, n⟩⟩) h
    rw [visits, List.forall_mem_cons, List.forall_mem_cons, hfirst]
    refine and_congr_right fun hclash => ?_
    -- The lines that follow start from a state that is unambiguous again.
    have hafter := hfirst.2 hclash
    rw [Visit.after] at hafter
    split
    · rename_i r' operation heq
      rw [heq] at hafter
      exact ih hafter (n + 1)
    · simp

/-- **The states of sources are unambiguous exactly if no line clashes.** -/
theorem visitsOfSources_unambiguous_iff (h : r.schema.Each Table.Unambiguous)
    (ms : List Migration) :
    (∀ v ∈ r.visitsOfSources ms, v.after.schema.Each Table.Unambiguous) ↔
      ∀ v ∈ r.visitsOfSources ms, ¬v.Clashes := by
  induction ms generalizing r with
  | nil => simp [visitsOfSources]
  | cons m rest ih =>
    have hfirst : (∀ v ∈ r.visitsOf m, v.after.schema.Each Table.Unambiguous) ↔
        ∀ v ∈ r.visitsOf m, ¬v.Clashes :=
      visits_unambiguous_iff (r := { r with current := none }) h m.name 1 _
    rw [visitsOfSources, List.forall_mem_append, List.forall_mem_append, hfirst]
    refine and_congr_right fun hclash => ?_
    -- So do the sources, since the states behind the lines of the first one are unambiguous.
    have hleft := source_of_visitsOf (P := fun r => r.schema.Each Table.Unambiguous) m h
      (fun _ => id) (hfirst.2 hclash)
    split
    · rename_i r' b heq
      rw [heq] at hleft
      exact ih hleft
    · simp

/-- **The foreign keys of a replay belong to columns of their own exactly as long as no line
renames a column with a foreign key onto one with a foreign key.** Every state of the replay is
unambiguous if no line clashes, its last one included, and a line that clashes leaves two foreign
keys of one column behind. -/
theorem unambiguous_iff_not_clashes (ms : List Migration) :
    ((∀ v ∈ ({} : Replay).visitsOfSources ms, v.after.schema.Each Table.Unambiguous) ↔
      ∀ v ∈ ({} : Replay).visitsOfSources ms, ¬v.Clashes) ∧
    ((∀ v ∈ ({} : Replay).visitsOfSources ms, ¬v.Clashes) →
      (({} : Replay).sources ms).1.schema.Each Table.Unambiguous) := by
  have hiff := visitsOfSources_unambiguous_iff (r := {}) Schema.each_empty ms
  exact ⟨hiff, fun hclash => sources_of_visitsOfSources
    (P := fun r => r.schema.Each Table.Unambiguous) ms Schema.each_empty (fun _ => id)
    (hiff.2 hclash)⟩

/-! ### A rename that clashes -/

/-- A source that renames a column with a foreign key to the name of another such column. -/
def clashingColumns : Migration :=
  ⟨"a.php", "Schema::create('t', function (Blueprint $table) \x7b\n" ++
    "$table->integer('a');\n$table->integer('b');\n" ++
    "$table->foreign('a')->references('id')->on('x');\n" ++
    "$table->foreign('b')->references('id')->on('y');\n" ++
    "$table->renameColumn('a', 'b');\n\x7d);"⟩

/-- The table that it leads to. -/
def clashedTable : Table where
  name := "t"
  columns := Dict.ofList [("b", { type := .builder .integer, name := "b" })]
  relationships := [⟨"b", "id", "x", none, none⟩, ⟨"b", "id", "y", none, none⟩]

/-- **A model with two foreign keys of one column**, the renamed one and the one of the column that
it displaces. -/
theorem clashingColumns_ambiguous :
    (({} : Replay).sources [clashingColumns]).2 = .ok ["a.php"] ∧
      ((({} : Replay).sources [clashingColumns]).1.schema.table? "t").map (·.relationships) =
        some [⟨"b", "id", "x", none, none⟩, ⟨"b", "id", "y", none, none⟩] := by
  have hrun : (({} : Replay).sources [clashingColumns]) =
      ({ schema := ⟨Dict.ofList [("t", clashedTable)]⟩ }, .ok ["a.php"]) := by
    decide +kernel
  rw [hrun]
  exact ⟨rfl, by decide⟩

end Replay

end SchemaHistory

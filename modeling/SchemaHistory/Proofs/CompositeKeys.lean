import SchemaHistory.Proofs.ForeignKeyColumns
import SchemaHistory.Proofs.ModifierOrder
import SchemaHistory.Proofs.Replays

/-!
# Keys of several columns

Three calls ask for a key of the open table: `primary`, `unique` and `foreign`. Each of them may
name its columns in an array. But a table of the schema has no keys of several columns. Its primary
key is a column, each column is unique by itself or not, and a foreign key belongs to one column
(`SchemaHistory.Table.exists_eq_of_mem_keys`). A call that asks for a key of several columns can
only be **refused** (`SchemaHistory.Replay.Refuses`): it is reported, or the run ends, and the table
is left as it was.

Only `unique` takes care of that, because it counts the columns that are named. The other two take
the first of them and pass over the rest, without a report. All three pass over what is not a name,
such as a constant. So whether a call goes through is a matter of what can be read in it
(`SchemaHistory.KeyKind.Passes`), and a call that goes through leaves a key of the first column. It
is refused or gets the key that it asks for exactly if it does not go through, or has named only one
column (`SchemaHistory.Replay.refuses_or_hasKeyOn_iff`).
-/

namespace SchemaHistory

/-! ### Keys -/

/-- The **kinds** of keys that calls ask for. -/
inductive KeyKind
  | primary
  | unique
  | foreign
  deriving DecidableEq

namespace KeyKind

/-- The name of the call that asks for a key. -/
def callName : KeyKind → String
  | primary => "primary"
  | unique => "unique"
  | foreign => "foreign"

end KeyKind

/-- A call **asks for** a key of a kind on the items of an array. -/
structure Call.AsksFor (head : Call) (kind : KeyKind) (items : List Argument) : Prop where
  name : head.name = kind.callName
  items : head.args.head? = some (.array items)

namespace Table

/-- The **keys** of a table, each with the names of its columns. -/
def keys (t : Table) : KeyKind → List (List String)
  | .primary => t.primaryKey.toList.map fun column => [column]
  | .unique => (t.columns.entries.filter (·.2.unique)).map fun e => [e.1]
  | .foreign => t.localColumns.map fun column => [column]

/-- A table has a key **on** items if one of its keys has a column for each of them. -/
def HasKeyOn (t : Table) (kind : KeyKind) (items : List Argument) : Prop :=
  ∃ key ∈ t.keys kind, ∀ item ∈ items, ∃ column ∈ key, item = .string column

variable {t : Table} {kind : KeyKind} {items : List Argument}

/-- **No key has several columns.** -/
theorem exists_eq_of_mem_keys {key : List String} (h : key ∈ t.keys kind) :
    ∃ column, key = [column] := by
  cases kind <;> obtain ⟨_, -, rfl⟩ := List.mem_map.1 h <;> exact ⟨_, rfl⟩

/-- So a key on several items is a key on one and the same column. -/
theorem hasKeyOn_iff :
    t.HasKeyOn kind items ↔
      ∃ column, [column] ∈ t.keys kind ∧ ∀ item ∈ items, item = .string column := by
  constructor
  · rintro ⟨key, hkey, hitems⟩
    obtain ⟨column, rfl⟩ := exists_eq_of_mem_keys hkey
    refine ⟨column, hkey, fun item hitem => ?_⟩
    obtain ⟨c, hc, rfl⟩ := hitems item hitem
    rw [List.mem_singleton.1 hc]
  · rintro ⟨column, hkey, hitems⟩
    exact ⟨[column], hkey, fun item hitem =>
      ⟨column, List.mem_singleton_self column, hitems item hitem⟩⟩

end Table

/-! ### Which calls go through -/

/-- A chain **names a target** if it names a column and a table that a foreign key can refer to. -/
def Chain.NamesTarget (chain : Chain) : Prop :=
  ∃ column table, (chain.find? "references").bind Call.firstString? = some column ∧
    (chain.find? "on").bind Call.firstString? = some table

/-- A call for a key on items **passes** if the replay finds no fault with it. A primary key always
passes. A unique column has to be the only one that is named, and to be there. A foreign key needs
a name and a target. -/
def KeyKind.Passes (kind : KeyKind) (t : Table) (chain : Chain) (items : List Argument) : Prop :=
  match kind with
  | .primary => True
  | .unique =>
    ∃ column, Argument.strings (.array items) = [column] ∧ t.columns.contains column = true
  | .foreign => Argument.strings (.array items) ≠ [] ∧ chain.NamesTarget

namespace Call.AsksFor

variable {kind : KeyKind} {head : Call} {items : List Argument} (h : head.AsksFor kind items)
include h

theorem firstString? : head.firstString? = (Argument.strings (.array items)).head? := by
  rw [Call.firstString?, h.items]
  rfl

end Call.AsksFor

namespace Relationship

variable {head : Call} {receiver : String} {ms : List Call} {l : Location}

theorem exists_ofChain (h : Chain.NamesTarget ⟨receiver, head :: ms⟩) {column : String}
    (hcolumn : head.firstString? = some column) :
    ∃ k, ofChain ⟨receiver, head :: ms⟩ l = .ok k ∧ k.localColumn = column := by
  obtain ⟨foreign, table, hforeign, htable⟩ := h
  have hhead : (Chain.head? ⟨receiver, head :: ms⟩).bind Call.firstString? = some column := hcolumn
  exact ⟨_, by rw [ofChain, hhead, hforeign, htable], localColumn_applyModifiers _ _⟩

theorem ofChain_eq_error
    (h : head.firstString? = none ∨ ¬Chain.NamesTarget ⟨receiver, head :: ms⟩) :
    ofChain ⟨receiver, head :: ms⟩ l =
      .error (.malformedStatement .foreignKeyNeedsArguments l) := by
  rw [ofChain]
  split
  · rename_i column foreign table hcolumn hforeign htable
    refine absurd h (not_or.2 ⟨?_, not_not.2 ⟨foreign, table, hforeign, htable⟩⟩)
    intro hnone
    exact absurd (hcolumn.symm.trans hnone) (by simp)
  · rfl

end Relationship

namespace Table

theorem mem_keys_unique {t : Table} {column : String} :
    [column] ∈ t.keys .unique ↔ ∃ c, t.columns.find? column = some c ∧ c.unique = true := by
  simp only [keys, List.mem_map, List.mem_filter, Dict.find?_eq_some_iff]
  constructor
  · rintro ⟨⟨name, c⟩, ⟨hc, hunique⟩, heq⟩
    obtain rfl : name = column := List.head_eq_of_cons_eq heq
    exact ⟨c, hc, hunique⟩
  · rintro ⟨c, hc, hunique⟩
    exact ⟨(column, c), ⟨hc, hunique⟩, rfl⟩

theorem mem_keys_foreign {t : Table} {column : String} :
    [column] ∈ t.keys .foreign ↔ column ∈ t.localColumns := by
  simp [keys]

theorem mem_localColumns_addRelationship (t : Table) (k : Relationship) :
    k.localColumn ∈ (t.addRelationship k).localColumns := by
  rw [addRelationship, localColumns_withRelationships, map_replaceFirst]
  split
  · assumption
  · exact List.mem_append_right _ (List.mem_singleton_self _)

variable {kind : KeyKind} {head : Call} {items : List Argument} (h : head.AsksFor kind items)
  (t : Table) (key receiver : String) (ms : List Call) (l : Location)
include h

/-- **A call that passes** changes the table without a report, and leaves a key on the first column
that it names. -/
theorem apply_of_passes (hpasses : kind.Passes t ⟨receiver, head :: ms⟩ items) :
    ∃ t' : Table, t.apply key head ⟨receiver, head :: ms⟩ l = .ok (t', []) ∧
      ∀ column, (Argument.strings (.array items)).head? = some column →
        [column] ∈ t'.keys kind := by
  cases kind with
  | primary =>
    refine ⟨{ t with primaryKey := head.firstString? }, apply_of_primary t key _ l h.name,
      fun column hcolumn => ?_⟩
    simp [keys, h.firstString?, hcolumn]
  | unique =>
    obtain ⟨column, hnames, hcontains⟩ := hpasses
    obtain ⟨c, hc⟩ := Dict.exists_find?_of_mem_keys (Dict.mem_keys_iff_contains.2 hcontains)
    refine ⟨{ t with columns := t.columns.modify column fun c => { c with unique := true } }, ?_,
      fun column' hcolumn => ?_⟩
    · rw [apply_of_unique t key _ l h.name, makeUnique, h.items, Option.map_some, hnames]
      exact if_pos hcontains
    · rw [hnames] at hcolumn
      obtain rfl := Option.some.inj hcolumn
      refine mem_keys_unique.2 ⟨{ c with unique := true }, ?_, rfl⟩
      rw [Dict.modify_eq_insert hc, Dict.find?_insert_self]
  | foreign =>
    obtain ⟨hnames, htarget⟩ := hpasses
    obtain ⟨column, rest, hcons⟩ := List.exists_cons_of_ne_nil hnames
    have hfirst : head.firstString? = some column := by rw [h.firstString?, hcons, List.head?_cons]
    obtain ⟨k, hk, rfl⟩ := Relationship.exists_ofChain (l := l) htarget hfirst
    refine ⟨t.addRelationship k, ?_, fun column' hcolumn => ?_⟩
    · rw [apply_of_foreign t key _ l h.name, hk]
      rfl
    · rw [hcons] at hcolumn
      obtain rfl := Option.some.inj hcolumn
      exact mem_keys_foreign.2 (mem_localColumns_addRelationship t k)

/-- A call that does not pass is reported, or fails. -/
theorem apply_of_not_passes (hpasses : ¬kind.Passes t ⟨receiver, head :: ms⟩ items) :
    (∃ f, t.apply key head ⟨receiver, head :: ms⟩ l = .error f) ∨
      ∃ f, t.apply key head ⟨receiver, head :: ms⟩ l = .ok (t, [f]) := by
  cases kind with
  | primary => exact absurd trivial hpasses
  | unique =>
    rw [apply_of_unique t key _ l h.name, makeUnique, h.items, Option.map_some]
    split
    · rename_i column hnames
      have hcontains : ¬t.columns.contains column = true := fun hc =>
        hpasses ⟨column, Option.some.inj hnames, hc⟩
      exact Or.inr ⟨_, if_neg hcontains⟩
    · exact Or.inr ⟨_, rfl⟩
  | foreign =>
    have hfails : head.firstString? = none ∨ ¬Chain.NamesTarget ⟨receiver, head :: ms⟩ := by
      rw [h.firstString?, List.head?_eq_none_iff]
      exact not_and_or.1 hpasses |>.imp_left not_not.1
    rw [apply_of_foreign t key _ l h.name, Relationship.ofChain_eq_error hfails]
    exact Or.inl ⟨_, rfl⟩

end Table

/-! ### Refused calls -/

namespace Replay

/-- A statement is **refused** on a table if it fails or is reported, and the table is left as it
was. -/
structure Refuses (r : Replay) (s : Statement) (l : Location) (name : String) : Prop where
  noticed : (∃ f, (r.step s l).2 = .fail f) ∨
    ∃ f fs, (r.step s l).1.diagnostics = r.diagnostics ++ f :: fs
  kept : (r.step s l).1.schema.tableOrNew name = r.schema.tableOrNew name

/-- A step that neither fails nor reports refuses nothing. -/
theorem not_refuses_of_step {r : Replay} {s : Statement} {l : Location} {schema : Schema} {b : Bool}
    (h : r.step s l = ({ r with schema }, .proceed b)) (name : String) : ¬r.Refuses s l name := by
  intro hrefuses
  rcases hrefuses.noticed with ⟨f, hf⟩ | ⟨f, fs, hfs⟩
  · rw [h] at hf
    exact absurd hf (by simp)
  · rw [h] at hfs
    exact absurd hfs (by simp)

section Asked

variable {r : Replay} {name : String} (hname : r.current = some name) {kind : KeyKind}
  {head : Call} {items : List Argument} (h : head.AsksFor kind items) (receiver : String)
  (ms : List Call) (l : Location)
include hname h

/-- A call that passes is a step without a failure or a report, and leaves a key. -/
theorem step_of_passes
    (hpasses : kind.Passes (r.schema.tableOrNew name) ⟨receiver, head :: ms⟩ items) :
    ∃ t : Table,
      r.step (.calls ⟨receiver, head :: ms⟩) l =
        ({ r with schema := r.schema.setTable name t }, .proceed false) ∧
      ∀ column, (Argument.strings (.array items)).head? = some column →
        [column] ∈ t.keys kind := by
  obtain ⟨t, happly, hkeys⟩ := Table.apply_of_passes h _ name receiver ms l hpasses
  exact ⟨t, step_calls_of_silent hname rfl happly, hkeys⟩

/-- **A call that does not pass is refused.** -/
theorem refuses_of_not_passes
    (hpasses : ¬kind.Passes (r.schema.tableOrNew name) ⟨receiver, head :: ms⟩ items) :
    r.Refuses (.calls ⟨receiver, head :: ms⟩) l name := by
  rcases Table.apply_of_not_passes h _ name receiver ms l hpasses with ⟨f, hf⟩ | ⟨f, hf⟩
  · have hstep := step_calls_of_error hname rfl hf
    refine ⟨Or.inl ⟨f, by rw [hstep]⟩, ?_⟩
    rw [hstep, Schema.tableOrNew_openTable]
  · have hstep := step_calls_of_ok hname rfl hf
    refine ⟨Or.inr ⟨f, [], by rw [hstep]; rfl⟩, ?_⟩
    rw [hstep]
    exact Schema.tableOrNew_setTable _ _ _

/-- **Keys that are not narrowed.** A call asks for a key of the open table on the items of an
array. It is refused, or the table gets the key on all items, exactly if the call does not pass or
all items are one and the same column. A call that passes is neither reported nor fails, and leaves
a key on the first column that it names, and on that alone. So a primary key or a foreign key on
several columns is narrowed without a report, and so is a unique index if only one of its columns
is written as a string. -/
theorem refuses_or_hasKeyOn_iff (hitems : items ≠ []) :
    let chain : Chain := ⟨receiver, head :: ms⟩
    let after := r.step (.calls chain) l
    let t := after.1.schema.tableOrNew name
    (r.Refuses (.calls chain) l name ∨ t.HasKeyOn kind items ↔
      ¬kind.Passes (r.schema.tableOrNew name) chain items ∨
        ∃ column, ∀ item ∈ items, item = .string column) ∧
    (kind.Passes (r.schema.tableOrNew name) chain items →
      after.2 = .proceed false ∧ after.1.diagnostics = r.diagnostics ∧
        ∀ column, (Argument.strings (.array items)).head? = some column →
          [column] ∈ t.keys kind) := by
  intro chain after t
  by_cases hpasses : kind.Passes (r.schema.tableOrNew name) chain items
  · obtain ⟨u, hstep, hkeys⟩ := step_of_passes hname h receiver ms l hpasses
    have hafter : after = ({ r with schema := r.schema.setTable name u }, .proceed false) := hstep
    have ht : t = u := by
      show after.1.schema.tableOrNew name = u
      rw [hafter, Schema.tableOrNew_setTable]
    rw [ht, hafter]
    refine ⟨⟨?_, ?_⟩, fun _ => ⟨rfl, rfl, hkeys⟩⟩
    · rintro (hrefuses | hkey)
      · exact absurd hrefuses (not_refuses_of_step hstep name)
      · obtain ⟨column, -, hall⟩ := Table.hasKeyOn_iff.1 hkey
        exact Or.inr ⟨column, hall⟩
    · rintro (hp | ⟨column, hall⟩)
      · exact absurd hpasses hp
      · -- The first column that is named is the only one.
        obtain ⟨item, rest, rfl⟩ := List.exists_cons_of_ne_nil hitems
        obtain rfl := hall item List.mem_cons_self
        exact Or.inr (Table.hasKeyOn_iff.2 ⟨column, hkeys column rfl, hall⟩)
  · have hrefuses := refuses_of_not_passes hname h receiver ms l hpasses
    exact ⟨⟨fun _ => Or.inl hpasses, fun _ => Or.inl hrefuses⟩, fun hp => absurd hp hpasses⟩

end Asked

/-- The columns that a grant belongs to, as the items of an array. -/
def grantColumns : List Argument :=
  [.string "user_id", .string "team_id"]

/-- They are two columns, so no table has a key on both. -/
theorem grantColumns_differ : ¬∃ column, ∀ item ∈ grantColumns, item = .string column := by
  rintro ⟨column, hall⟩
  have huser := Argument.string.inj (hall _ List.mem_cons_self)
  have hteam := Argument.string.inj (hall _ (List.mem_cons_of_mem _ List.mem_cons_self))
  exact absurd (huser.trans hteam.symm) (by decide)

theorem not_hasKeyOn_grantColumns (t : Table) (kind : KeyKind) : ¬t.HasKeyOn kind grantColumns := by
  intro hkey
  obtain ⟨column, -, hall⟩ := Table.hasKeyOn_iff.1 hkey
  exact grantColumns_differ ⟨column, hall⟩

/-- A table of grants, with a primary key and foreign keys. -/
def grants (primaryKey : Option String) (relationships : List Relationship) : Table where
  name := "grants"
  primaryKey := primaryKey
  columns := Dict.ofList [("user_id", { type := .builder .integer, name := "user_id" }),
    ("team_id", { type := .builder .integer, name := "team_id" })]
  relationships := relationships

/-- A unique index on both columns is refused, and a primary key on both is narrowed. -/
theorem refuses_or_hasKeyOn_iff_grants :
    let r : Replay :=
      { schema := ⟨Dict.ofList [("grants", grants none [])]⟩, current := some "grants" }
    let unique : Call := ⟨"unique", [.array grantColumns], "['user_id', 'team_id']", none⟩
    let primary : Call := ⟨"primary", [.array grantColumns], "['user_id', 'team_id']", none⟩
    let l : Location := ⟨"a.php", 4⟩
    let after := r.step (.calls ⟨"$table", [primary]⟩) l
    let t := after.1.schema.tableOrNew "grants"
    unique.AsksFor .unique grantColumns ∧ primary.AsksFor .primary grantColumns ∧
      grantColumns ≠ [] ∧ r.Refuses (.calls ⟨"$table", [unique]⟩) l "grants" ∧
      ¬(r.Refuses (.calls ⟨"$table", [primary]⟩) l "grants" ∨ t.HasKeyOn .primary grantColumns) ∧
      after.2 = .proceed false ∧ after.1.diagnostics = [] ∧ ["user_id"] ∈ t.keys .primary := by
  intro r unique primary l after t
  have hunique : unique.AsksFor .unique grantColumns := ⟨rfl, rfl⟩
  have hprimary : primary.AsksFor .primary grantColumns := ⟨rfl, rfl⟩
  have hitems : grantColumns ≠ [] := List.cons_ne_nil _ _
  have hcounted : ¬KeyKind.unique.Passes (grants none []) ⟨"$table", [unique]⟩ grantColumns := by
    rintro ⟨column, hnames, -⟩
    exact absurd hnames (by simp [grantColumns, Argument.strings, Argument.string?])
  obtain ⟨hrefused, -⟩ := refuses_or_hasKeyOn_iff (r := r) rfl hunique "$table" [] l hitems
  obtain ⟨hnarrowed, hpasses⟩ := refuses_or_hasKeyOn_iff (r := r) rfl hprimary "$table" [] l hitems
  obtain ⟨hgoes, hsilent, hkeys⟩ := hpasses trivial
  refine ⟨hunique, hprimary, hitems, ?_, fun h => ?_, hgoes, hsilent, hkeys "user_id" rfl⟩
  · exact (hrefused.2 (Or.inl hcounted)).resolve_right (not_hasKeyOn_grantColumns _ _)
  · exact (hnarrowed.1 h).elim (fun hp => hp trivial) grantColumns_differ

/-- A source that asks for a primary key on two columns. -/
def compositeGrants : Migration :=
  ⟨"a.php", "Schema::create('grants', function ($table) \x7b\n" ++
    "$table->integer('user_id');\n$table->integer('team_id');\n" ++
    "$table->primary(['user_id', 'team_id']);\n\x7d);"⟩

/-- A chain that asks for a foreign key on both. -/
def compositeMember : Chain :=
  ⟨"$table", [⟨"foreign", [.array grantColumns], "['user_id', 'team_id']", none⟩,
    ⟨"references", [.array grantColumns], "['user_id', 'team_id']", none⟩,
    ⟨"on", [.string "members"], "'members'", none⟩]⟩

/-- **Keys that are narrowed without a report**, to the first of the two columns. -/
theorem compositeGrants_narrowed :
    let narrowed := grants (some "user_id") []
    let referred := grants none [⟨"user_id", "user_id", "members", none, none⟩]
    let r : Replay :=
      { schema := ⟨Dict.ofList [("grants", grants none [])]⟩, current := some "grants" }
    (({} : Replay).sources [compositeGrants] =
        ({ schema := ⟨Dict.ofList [("grants", narrowed)]⟩ }, .ok ["a.php"]) ∧
      ¬narrowed.HasKeyOn .primary grantColumns) ∧
    (r.step (.calls compositeMember) ⟨"a.php", 5⟩ =
        ({ r with schema := ⟨Dict.ofList [("grants", referred)]⟩ }, .proceed false) ∧
      ¬referred.HasKeyOn .foreign grantColumns) := by
  intro narrowed referred r
  have hprimary : ({} : Replay).sources [compositeGrants] =
      ({ schema := ⟨Dict.ofList [("grants", narrowed)]⟩ }, .ok ["a.php"]) := by
    decide +kernel
  have hforeign : r.step (.calls compositeMember) ⟨"a.php", 5⟩ =
      ({ r with schema := ⟨Dict.ofList [("grants", referred)]⟩ }, .proceed false) := by
    decide
  exact ⟨⟨hprimary, not_hasKeyOn_grantColumns _ _⟩, hforeign, not_hasKeyOn_grantColumns _ _⟩

end Replay

end SchemaHistory

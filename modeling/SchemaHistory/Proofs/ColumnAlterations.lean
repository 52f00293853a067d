import SchemaHistory.Proofs.ColumnRenames

/-!
# What a raw alteration redefines

A raw alteration says what a column is from now on, and perhaps what it is called. What it says is
one column, its **definition** (`SchemaHistory.Alteration.definition`), which depends on nothing but
the alteration. The column that it redefines is its **subject**: the one with the old name, or else
the one with the name that the definition bears (`SchemaHistory.Alteration.subject?`). The
definition takes the place of the subject and inherits from it whether it is unique and its default.
If there is no subject, it goes to the end.

This is all that happens (`SchemaHistory.Table.IsAltered`), for all ways in which an old and a new
name can meet with the columns of the table. Afterwards the definition is in the table under its own
name, and no column has the old name any more, unless the two names are one. So the same alteration
finds nothing left to do (`SchemaHistory.Table.alter_of_settled`).
-/

namespace SchemaHistory

namespace Alteration

/-- The name of the column behind the alteration. -/
def target (a : Alteration) : String :=
  a.renamed.getD a.column

/-- The column that an alteration **defines**, for a column that has not been there before. -/
def definition (a : Alteration) : Column where
  type := Column.alteredType a
  name := a.target
  unsigned := a.isUnsigned
  nullable := a.isNullable
  parameters := if (Column.alteredType a).takesSqlParameters then a.parameters else none

/-- The column that an alteration **makes of** another one: what it does not define is kept. -/
def redefine (a : Alteration) (c : Column) : Column :=
  { a.definition with unique := c.unique, default := c.default }

/-- The **subject** of an alteration, by its name in the table: the column with the old name, or
else the one with the new name. -/
def subject? (a : Alteration) (t : Table) : Option String :=
  [a.column, a.target].find? t.columns.contains

end Alteration

/-- A table that has come of another one by a **raw alteration**. -/
structure Table.IsAltered (a : Alteration) (t u : Table) : Prop where
  /-- The subject is redefined in its place. A column that had the new name is gone, and all others
  are as they were, in their order. -/
  columns_of_subject : ∀ name c, a.subject? t = some name → t.columns.find? name = some c →
    u.columns.entries = (t.columns.entries.filter fun e => e.1 = name ∨ e.1 ≠ a.target).map fun e =>
      if e.1 = name then (a.target, a.redefine c) else e
  /-- A column without a subject comes last. -/
  columns_of_no_subject : a.subject? t = none →
    u.columns.entries = t.columns.entries ++ [(a.target, a.definition)]
  /-- The primary key and the foreign keys of the table follow a column that is renamed. -/
  primaryKey : u.primaryKey =
    if a.column ∈ t.columns.keys then t.primaryKey.map (renamed a.column a.target)
    else t.primaryKey
  relationships : u.relationships =
    if a.column ∈ t.columns.keys then t.relationships.map fun k =>
      { k with localColumn := renamed a.column a.target k.localColumn }
    else t.relationships
  /-- The name of the table and its options stay. -/
  rest : u = { t with
    columns := u.columns
    primaryKey := u.primaryKey
    relationships := u.relationships }

/-! ### The column that an alteration is about -/

namespace Alteration

variable {a : Alteration} {t : Table} {c : Column} {name : String}

@[simp] theorem name_redefine (a : Alteration) (c : Column) : (a.redefine c).name = a.target := rfl

theorem altered_none (a : Alteration) : Column.altered none a.target a = a.definition := rfl

/-- A column that bears the new name by now is redefined. -/
theorem altered_some (hname : c.name = a.target) :
    Column.altered (some c) a.target a = a.redefine c := by
  simp only [Column.altered, redefine, definition, Option.getD_some, ← hname]

theorem subject?_of_column (h : a.column ∈ t.columns.keys) : a.subject? t = some a.column := by
  rw [subject?, List.find?_cons_of_pos (Dict.mem_keys_iff_contains.1 h)]

theorem subject?_of_target (h : a.target ∈ t.columns.keys)
    (hcolumn : a.column ∈ t.columns.keys → a.column = a.target) :
    a.subject? t = some a.target := by
  by_cases hmem : a.column ∈ t.columns.keys
  · rw [subject?_of_column hmem, hcolumn hmem]
  · rw [subject?, List.find?_cons_of_neg fun hc => hmem (Dict.mem_keys_iff_contains.2 hc),
      List.find?_cons_of_pos (Dict.mem_keys_iff_contains.1 h)]

theorem subject?_eq_none_iff :
    a.subject? t = none ↔ a.column ∉ t.columns.keys ∧ a.target ∉ t.columns.keys := by
  simp [subject?, Dict.mem_keys_iff_contains]

/-- The subject is a column of the table, and no other one has the old name. -/
theorem mem_keys_of_subject? (h : a.subject? t = some name) :
    name ∈ t.columns.keys ∧ (name = a.column ∨ a.column ∉ t.columns.keys ∧ name = a.target) := by
  by_cases hmem : a.column ∈ t.columns.keys
  · rw [subject?_of_column hmem] at h
    obtain rfl := Option.some.inj h
    exact ⟨hmem, Or.inl rfl⟩
  · have htarget : a.target ∈ t.columns.keys := by
      by_contra hnot
      rw [subject?_eq_none_iff.2 ⟨hmem, hnot⟩] at h
      exact absurd h (by simp)
    rw [subject?_of_target htarget fun hc => absurd hc hmem] at h
    obtain rfl := Option.some.inj h
    exact ⟨htarget, Or.inr ⟨hmem, rfl⟩⟩

end Alteration

namespace Table

variable {a : Alteration} {t u : Table} {c : Column}

/-! ### The new name is taken over -/

/-- The table in which the new name has been taken over. -/
def takeOver (a : Alteration) (t : Table) : Table :=
  match a.renamed with
  | some new => (t.renameColumn? a.column new).getD t
  | none => t

/-- **An alteration takes over the new name and stores a column under it.** -/
theorem alter_eq (a : Alteration) (t : Table) (l : Location) :
    t.alter a l =
      ((t.takeOver a).addColumn
          (Column.altered ((t.takeOver a).columns.find? a.target) a.target a),
        if ((t.takeOver a).columns.find? a.target).isSome then []
        else [.unknownColumn a.table a.target l]) := rfl

/-- A column that is renamed to its own name stays as it is. -/
theorem renameColumn?_self (h : t.Keyed) {name : String} (hname : name ∈ t.columns.keys) :
    t.renameColumn? name name = some t := by
  obtain ⟨c, hc⟩ := Dict.exists_find?_of_mem_keys hname
  have hcolumns : (t.columns.rekey name name fun c => { c with name }) = t.columns := by
    refine Dict.ext ?_
    simp only [Dict.rekey, if_true]
    refine (List.map_congr_left fun e he => ?_).trans (List.map_id _)
    by_cases hk : e.1 = name
    · have hname : e.2.name = name := (h e he).trans hk
      rw [if_pos hk]
      exact Prod.ext hk.symm (by rw [← hname]; rfl)
    · rw [if_neg hk, id]
  have hrelationships : (t.relationships.map fun k => { k with localColumn := id k.localColumn }) =
      t.relationships := (List.map_congr_left fun _ _ => rfl).trans (List.map_id _)
  rw [renameColumn?_of_find? hc, renamed_same, Option.map_id, hcolumns, hrelationships, id]

/-- Nothing is taken over if the old name is no other name of a column. -/
theorem takeOver_of_eq (h : t.Keyed) (hcolumn : a.column ∈ t.columns.keys → a.column = a.target) :
    t.takeOver a = t := by
  cases hrenamed : a.renamed with
  | none => simp only [takeOver, hrenamed]
  | some new =>
    simp only [takeOver, hrenamed]
    by_cases hmem : a.column ∈ t.columns.keys
    · have hnew : new = a.column := by
        rw [hcolumn hmem, Alteration.target, hrenamed, Option.getD_some]
      rw [hnew, renameColumn?_self h hmem, Option.getD_some]
    · rw [renameColumn?_eq_none hmem, Option.getD_none]

theorem takeOver_of_ne (hc : t.columns.find? a.column = some c) (hne : a.column ≠ a.target) :
    IsColumnRename a.column a.target c t (t.takeOver a) := by
  obtain ⟨u, hu, hrename⟩ := exists_isColumnRename hc hne
  cases hrenamed : a.renamed with
  | none => exact absurd (by rw [Alteration.target, hrenamed, Option.getD_none]) hne
  | some new =>
    have htarget : a.target = new := by rw [Alteration.target, hrenamed, Option.getD_some]
    have htaken : t.takeOver a = u := by
      simp only [takeOver, hrenamed]
      rw [← htarget, hu, Option.getD_some]
    rwa [htaken]

/-! ### What an alteration does to a table -/

/-- The name that a column is stored under, where its entry is replaced. -/
theorem entries_addColumn_of_mem {name : String} (hname : c.name = name)
    (hmem : name ∈ t.columns.keys) :
    (t.addColumn c).columns.entries =
      t.columns.entries.map fun e => if e.1 = name then (name, c) else e := by
  subst hname
  refine (Dict.entries_insert_of_mem _ hmem).trans (List.map_congr_left fun e _ => ?_)
  by_cases hk : e.1 = c.name
  · rw [if_pos hk, if_pos hk, hk]
  · rw [if_neg hk, if_neg hk]

section Target

variable (hcolumn : a.column ∈ t.columns.keys → a.column = a.target)
include hcolumn

theorem primaryKey_of_target : t.primaryKey =
    if a.column ∈ t.columns.keys then t.primaryKey.map (renamed a.column a.target)
    else t.primaryKey := by
  split
  · rw [hcolumn ‹_›, renamed_same, Option.map_id, id]
  · rfl

theorem relationships_of_target : t.relationships =
    if a.column ∈ t.columns.keys then t.relationships.map fun k =>
      { k with localColumn := renamed a.column a.target k.localColumn }
    else t.relationships := by
  split
  · rw [hcolumn ‹_›, renamed_same]
    exact (List.map_id _).symm
  · rfl

/-- Where there is nothing to take over, the subject bears the new name. -/
theorem isAltered_of_target (hc : t.columns.find? a.target = some c) :
    IsAltered a t (t.addColumn (a.redefine c)) where
  columns_of_subject name d hname hd := by
    have hmem := Dict.mem_keys_of_find? hc
    rw [Alteration.subject?_of_target hmem hcolumn] at hname
    obtain rfl := Option.some.inj hname
    obtain rfl := Option.some.inj (hc.symm.trans hd)
    have hall : (t.columns.entries.filter fun e => e.1 = a.target ∨ e.1 ≠ a.target) =
        t.columns.entries := List.filter_eq_self.2 fun e _ => by simp [Decidable.em]
    rw [hall]
    exact entries_addColumn_of_mem rfl hmem
  columns_of_no_subject hnone :=
    absurd (Dict.mem_keys_of_find? hc) (Alteration.subject?_eq_none_iff.1 hnone).2
  primaryKey := primaryKey_of_target hcolumn
  relationships := relationships_of_target hcolumn
  rest := rfl

/-- Without a subject, the definition is the last column. -/
theorem isAltered_of_no_subject (htarget : a.target ∉ t.columns.keys) :
    IsAltered a t (t.addColumn a.definition) where
  columns_of_subject name c hname hc := by
    have hnone : a.subject? t = none := Alteration.subject?_eq_none_iff.2
      ⟨fun hmem => htarget (hcolumn hmem ▸ hmem), htarget⟩
    exact absurd (hnone.symm.trans hname) (by simp)
  columns_of_no_subject _ := Dict.entries_insert_of_not_mem _ htarget
  primaryKey := primaryKey_of_target hcolumn
  relationships := relationships_of_target hcolumn
  rest := rfl

end Target

/-- A subject that takes over the new name is redefined in its place. -/
theorem isAltered_of_takeOver (hc : t.columns.find? a.column = some c)
    (hne : a.column ≠ a.target) (hu : IsColumnRename a.column a.target c t u) :
    u.columns.find? a.target = some { c with name := a.target } ∧
      IsAltered a t (u.addColumn (a.redefine c)) := by
  have hmem := Dict.mem_keys_of_find? hc
  have hfound : u.columns.find? a.target = some { c with name := a.target } := by
    rw [Dict.find?_eq_some_iff, hu.columns]
    refine List.mem_map.2 ⟨(a.column, c), List.mem_filter.2 ?_, if_pos rfl⟩
    exact ⟨Dict.find?_eq_some_iff.1 hc, by simpa using hne⟩
  refine ⟨hfound, ?_, fun hnone => ?_, ?_, ?_, ?_⟩
  · intro name d hname hd
    rw [Alteration.subject?_of_column hmem] at hname
    obtain rfl := Option.some.inj hname
    obtain rfl := Option.some.inj (hc.symm.trans hd)
    have hfilter : (t.columns.entries.filter fun e => e.1 = a.column ∨ e.1 ≠ a.target) =
        t.columns.entries.filter fun e => e.1 ≠ a.target := by
      refine List.filter_congr fun e _ => ?_
      by_cases hk : e.1 = a.column <;> simp [hk, hne]
    rw [entries_addColumn_of_mem rfl (Dict.mem_keys_of_find? hfound), hu.columns, hfilter,
      List.map_map]
    refine List.map_congr_left fun e he => ?_
    by_cases hk : e.1 = a.column
    · simp [hk]
    · have hk' : e.1 ≠ a.target := by simpa using (List.mem_filter.1 he).2
      simp [hk, hk']
  · exact absurd hmem (Alteration.subject?_eq_none_iff.1 hnone).1
  · rw [if_pos hmem]
    exact hu.primaryKey
  · rw [if_pos hmem]
    exact hu.relationships
  · rw [hu.rest]
    rfl

/-- **A raw alteration redefines its subject and nothing else**, and it reports a column that has
not been there. -/
theorem isAltered_alter (h : t.Keyed) (a : Alteration) (l : Location) :
    IsAltered a t (t.alter a l).1 ∧
      (t.alter a l).2 =
        if (a.subject? t).isSome then [] else [.unknownColumn a.table a.target l] := by
  rw [alter_eq]
  by_cases hcolumn : a.column ∈ t.columns.keys → a.column = a.target
  · rw [takeOver_of_eq h hcolumn]
    cases hc : t.columns.find? a.target with
    | some c =>
      have hname : c.name = a.target := h (a.target, c) (Dict.find?_eq_some_iff.1 hc)
      rw [Alteration.altered_some hname,
        Alteration.subject?_of_target (Dict.mem_keys_of_find? hc) hcolumn]
      exact ⟨isAltered_of_target hcolumn hc, rfl⟩
    | none =>
      have htarget := Dict.find?_eq_none_iff.1 hc
      rw [Alteration.altered_none, Alteration.subject?_eq_none_iff.2
        ⟨fun hmem => htarget (hcolumn hmem ▸ hmem), htarget⟩]
      exact ⟨isAltered_of_no_subject hcolumn htarget, rfl⟩
  · obtain ⟨hmem, hne⟩ := Classical.not_imp.1 hcolumn
    obtain ⟨c, hc⟩ := Dict.exists_find?_of_mem_keys hmem
    obtain ⟨hfound, haltered⟩ := isAltered_of_takeOver hc hne (takeOver_of_ne hc hne)
    rw [hfound, Alteration.altered_some rfl, Alteration.subject?_of_column hmem]
    exact ⟨haltered, rfl⟩

/-! ### The same alteration again -/

/-- Behind an alteration the definition stands in the table, and no column has the old name unless
it is the new one. -/
theorem IsAltered.settled (hu : IsAltered a t u) :
    (∃ c, u.columns.find? a.target = some c ∧ c.name = a.target ∧ a.redefine c = c) ∧
      (a.column ∈ u.columns.keys → a.column = a.target) := by
  cases hsubject : a.subject? t with
  | some name =>
    obtain ⟨hname, hcases⟩ := Alteration.mem_keys_of_subject? hsubject
    obtain ⟨c, hc⟩ := Dict.exists_find?_of_mem_keys hname
    have hcolumns := hu.columns_of_subject name c hsubject hc
    refine ⟨⟨a.redefine c, ?_, rfl, rfl⟩, fun hmem => ?_⟩
    · rw [Dict.find?_eq_some_iff, hcolumns]
      refine List.mem_map.2 ⟨(name, c), List.mem_filter.2 ?_, if_pos rfl⟩
      exact ⟨Dict.find?_eq_some_iff.1 hc, by simp⟩
    · obtain ⟨e, he, hkey⟩ := List.mem_map.1 hmem
      rw [hcolumns] at he
      obtain ⟨d, hd, rfl⟩ := List.mem_map.1 he
      by_cases hk : d.1 = name
      · rw [if_pos hk] at hkey
        exact hkey.symm
      · -- An entry with the old name would be the subject itself.
        rw [if_neg hk] at hkey
        rcases hcases with hcolumn | ⟨hcolumn, -⟩
        · exact absurd (hkey.trans hcolumn.symm) hk
        · refine absurd ?_ hcolumn
          rw [← hkey]
          exact Dict.mem_keys_of_mem_entries (v := d.2) (List.mem_of_mem_filter hd)
  | none =>
    have hcolumns := hu.columns_of_no_subject hsubject
    refine ⟨⟨a.definition, ?_, rfl, rfl⟩, fun hmem => ?_⟩
    · rw [Dict.find?_eq_some_iff, hcolumns]
      simp
    · obtain ⟨e, he, hkey⟩ := List.mem_map.1 hmem
      rw [hcolumns] at he
      rcases List.mem_append.1 he with he | he
      · refine absurd ?_ (Alteration.subject?_eq_none_iff.1 hsubject).1
        rw [← hkey]
        exact Dict.mem_keys_of_mem_entries (v := e.2) he
      · rw [List.mem_singleton.1 he] at hkey
        exact hkey.symm

/-- **Where everything is settled, an alteration changes nothing and reports nothing.** -/
theorem alter_of_settled (h : u.Keyed) (hcolumn : a.column ∈ u.columns.keys → a.column = a.target)
    (hc : u.columns.find? a.target = some c) (hname : c.name = a.target) (hsame : a.redefine c = c)
    (l : Location) : u.alter a l = (u, []) := by
  rw [alter_eq, takeOver_of_eq h hcolumn, hc, Alteration.altered_some hname, hsame, addColumn,
    hname, Dict.insert_eq_self hc]
  rfl

end Table

/-! ### Every replay -/

namespace Replay

variable {r : Replay} {a : Alteration} {t : Table}

/-- **A raw alteration redefines exactly what it says, once and for all.** In every reachable state
it goes through, if its table is in the schema. No other table changes, nor does the order of the
tables. In the table, the subject of the alteration has become the column that the alteration
defines, at its place and with its default, unique if it was; a column that had the new name is
gone; and a column without a subject is reported and comes last. The same alteration once more
changes nothing and reports nothing. -/
theorem Reachable.alter_redefines (h : r.Reachable) (ht : r.schema.table? a.table = some t)
    (l : Location) :
    ∃ r' u, r.step (.alteration a) l = (r', .proceed true) ∧
      r'.schema.table? a.table = some u ∧ Table.IsAltered a t u ∧
      (r'.schema.tableNames = r.schema.tableNames ∧
        ∀ other, other ≠ a.table → r'.schema.table? other = r.schema.table? other) ∧
      r'.current = r.current ∧
      (r'.diagnostics = r.diagnostics ++
        if (a.subject? t).isSome then [] else [.unknownColumn a.table a.target l]) ∧
      ∀ l', r'.step (.alteration a) l' = (r', .proceed true) := by
  have hkeyed : t.Keyed := h.consistent.columns.table? ht
  obtain ⟨haltered, hreports⟩ := Table.isAltered_alter hkeyed a l
  obtain ⟨⟨c, hc, hname, hsame⟩, hcolumn⟩ := haltered.settled
  have hstored := Schema.table?_setTable r.schema a.table (t.alter a l).1
  refine ⟨(r.step (.alteration a) l).1, (t.alter a l).1, rfl, ?_, haltered, ⟨?_, ?_⟩, ?_, ?_, ?_⟩
  · simpa only [step, alter, ht, report] using hstored
  · simp only [step, alter, ht, report]
    exact Schema.tableNames_setTable (Schema.mem_tableNames_iff.2 ⟨t, ht⟩) _
  · intro other hne
    simp only [step, alter, ht, report]
    exact Schema.table?_setTable_of_ne _ hne _
  · simp only [step, alter, ht, report]
  · simp only [step, alter, ht, report, hreports]
  · intro l'
    have hagain := Table.alter_of_settled (hkeyed.alter a l) hcolumn hc hname hsame l'
    simp only [step, alter, ht, report, hstored, hagain, Schema.setTable_of_table? hstored,
      List.append_nil]

/-- A source that creates accounts with a code and a label. -/
def codedAccounts : Migration :=
  ⟨"a.php", "Schema::create('accounts', function (Blueprint $table) \x7b\n$table->id();\n" ++
    "$table->string('code')->default('x')->unique();\n$table->text('label');\n\x7d);"⟩

/-- The table that it creates. -/
def codedAccountsTable : Table where
  name := "accounts"
  columns := Dict.ofList
    [("id", { type := .builder .bigIncrements, name := "id" }),
     ("code", {
        type := .builder .string
        name := "code"
        unique := true
        default := some "'x'" }),
     ("label", { type := .builder .text, name := "label" })]

/-- `ALTER TABLE accounts CHANGE code label CHAR(4) NOT NULL`. -/
def labelForCode : Alteration where
  table := "accounts"
  column := "code"
  renamed := some "label"
  sqlType := "CHAR"
  parameters := some "4"
  attributes := "NOT NULL"

/-- The code becomes the label, and the former label is gone. Once more, nothing happens. -/
theorem Reachable.alter_redefines_codedAccounts :
    let r := (({} : Replay).source codedAccounts).1
    r.Reachable ∧ r.schema.table? labelForCode.table = some codedAccountsTable ∧
      ∃ r' u, r.step (.alteration labelForCode) ⟨"b.php", 1⟩ = (r', .proceed true) ∧
        r'.schema.table? "accounts" = some u ∧
        u.columns.entries =
          [("id", { type := .builder .bigIncrements, name := "id" }),
           ("label", {
              type := .builder .string
              name := "label"
              unique := true
              default := some "'x'"
              parameters := some "4" })] ∧
        r'.diagnostics = [] ∧
        r'.step (.alteration labelForCode) ⟨"c.php", 7⟩ = (r', .proceed true) := by
  intro r
  have hrun : ({} : Replay).source codedAccounts =
      ({ schema := ⟨Dict.ofList [("accounts", codedAccountsTable)]⟩ }, .ok true) := by
    decide +kernel
  have hreachable : r.Reachable := .left .fresh codedAccounts
  have ht : r.schema.table? labelForCode.table = some codedAccountsTable := by
    simp only [r, hrun]
    rfl
  obtain ⟨r', u, hstep, hu, haltered, -, -, hdiagnostics, hagain⟩ :=
    alter_redefines hreachable ht ⟨"b.php", 1⟩
  have hsubject : labelForCode.subject? codedAccountsTable = some "code" := by decide
  refine ⟨hreachable, ht, r', u, hstep, hu, ?_, ?_, hagain _⟩
  · rw [haltered.columns_of_subject "code" _ hsubject rfl]
    decide +kernel
  · rw [hdiagnostics, hsubject]
    simp only [r, hrun]
    rfl

end Replay

end SchemaHistory

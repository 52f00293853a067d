import SchemaHistory.Replay.Call

/-!
# What a call can do to a table

`SchemaHistory.Table.apply` tells the calls apart by their names. What it can answer is listed once,
in `SchemaHistory.Table.Answers`, and every fact about all calls is a case analysis on that list
(`SchemaHistory.Table.answers_of_apply`). The first such fact is that no call changes the name of
the table (`SchemaHistory.Table.name_apply`).
-/

namespace SchemaHistory

/-! ### The calls that name a type -/

/-- The calls that name a type of columns. -/
theorem ColumnType.eq_of_ofCall? {call : String} {type : ColumnType}
    (h : ofCall? call = some type) :
    (call = "id" ∧ type = .builder .bigIncrements) ∨
      (call = "datetime" ∧ type = .builder .dateTime) ∨
        ∃ b : Builder, call = b.name ∧ type = .builder b := by
  unfold ofCall? at h
  split at h
  · exact Or.inl ⟨rfl, (Option.some.inj h).symm⟩
  · exact Or.inr (Or.inl ⟨rfl, (Option.some.inj h).symm⟩)
  · obtain ⟨b, hb, rfl⟩ := Option.map_eq_some_iff.1 h
    exact Or.inr (Or.inr ⟨b, (Builder.name_of_ofName? hb).symm, rfl⟩)

namespace Table

/-- The **answers** of a call that does not fail: the changed table and what is reported. -/
inductive Answers (t : Table) (key : String) (head : Call) (chain : Chain) (l : Location) :
    Table × List Failure → Prop
  /-- Another primary key, or none. -/
  | primary (name : Option String) (h : name = head.firstString? ∨ name = none) :
    Answers t key head chain l ({ t with primaryKey := name }, [])
  /-- Nothing but a report that the replay survives. -/
  | report (f : Failure) (h : f.isRecoverable = true) : Answers t key head chain l (t, [f])
  /-- A column becomes unique. -/
  | unique (name : String) : Answers t key head chain l
      ({ t with columns := t.columns.modify name fun c => { c with unique := true } }, [])
  /-- A column gets another name. -/
  | rename (old new : String) (t' : Table) (hname : head.name = "renameColumn")
    (hold : head.stringAt? 0 = some old) (hnew : head.stringAt? 1 = some new)
    (h : t.renameColumn? old new = some t') : Answers t key head chain l (t', [])
  /-- Columns are dropped. -/
  | dropColumns (names : List String) : Answers t key head chain l (t.dropColumns names, [])
  /-- A foreign key is added. -/
  | foreign (r : Relationship) (h : Relationship.ofChain chain l = .ok r) :
    Answers t key head chain l (t.addRelationship r, [])
  /-- Foreign keys are dropped. -/
  | dropRelationships (names : List String) :
    Answers t key head chain l (t.dropRelationships names, [])
  /-- A column is added. -/
  | define (type : ColumnType) (e : Table × List Failure)
    (htype : ColumnType.ofCall? head.name = some type) (h : t.define type chain l = .ok e) :
    Answers t key head chain l e

variable {t : Table} {key : String} {head : Call} {chain : Chain} {l : Location}
  {e : Table × List Failure}

theorem answers_of_makeUnique (h : t.makeUnique key head l = .ok e) :
    Answers t key head chain l e := by
  rw [makeUnique] at h
  split at h
  · split at h <;> obtain rfl := Except.ok.inj h
    · exact .unique _
    · exact .report _ rfl
  · obtain rfl := Except.ok.inj h
    exact .report _ rfl

theorem answers_of_renameByCall (hname : head.name = "renameColumn")
    (h : t.renameByCall key head l = .ok e) : Answers t key head chain l e := by
  rw [renameByCall] at h
  split at h
  · rename_i old new hold hnew
    split at h <;> obtain rfl := Except.ok.inj h
    · exact .rename old new _ hname hold hnew ‹_›
    · exact .report _ rfl
  · exact absurd h (by simp)

theorem answers_of_applyBuilder (h : t.applyBuilder head chain l = .ok e) :
    Answers t key head chain l e := by
  rw [applyBuilder] at h
  split at h
  · obtain rfl := Except.ok.inj h
    exact .dropColumns _
  · split at h
    · exact .define _ e ‹_› h
    · exact absurd h (by simp)

/-- **A call that does not fail gives one of the answers.** -/
theorem answers_of_apply (h : t.apply key head chain l = .ok e) : Answers t key head chain l e := by
  rw [apply] at h
  split at h
  case h_1 => obtain rfl := Except.ok.inj h; exact .primary _ (Or.inl rfl)
  case h_2 => obtain rfl := Except.ok.inj h; exact .primary _ (Or.inr rfl)
  case h_3 => exact answers_of_makeUnique h
  case h_4 hname => exact answers_of_renameByCall hname h
  case h_5 => obtain rfl := Except.ok.inj h; exact .dropColumns _
  case h_6 => obtain rfl := Except.ok.inj h; exact .dropColumns _
  case h_7 =>
    cases hr : Relationship.ofChain chain l with
    | error f => simp [hr, Except.map] at h
    | ok r =>
      rw [hr] at h
      obtain rfl := Except.ok.inj h
      exact .foreign r hr
  case h_8 => obtain rfl := Except.ok.inj h; exact .dropRelationships _
  case h_12 => exact answers_of_applyBuilder h
  all_goals obtain rfl := Except.ok.inj h; exact .report _ rfl

/-- The answer of a call that defines a column. -/
theorem define_eq_ok {type : ColumnType} (h : t.define type chain l = .ok e) :
    ∃ c, Column.ofChain type chain l = .ok c ∧ e.2 = [] ∧
      ∃ t' : Table, e.1 = t'.addColumn c ∧
        (t' = { t with primaryKey := t'.primaryKey, relationships := t'.relationships }) ∧
        (t'.primaryKey = t.primaryKey ∨ t'.primaryKey = some c.name) ∧
        (t'.relationships = t.relationships ∨ ∃ r, Relationship.constrained? c chain = some r ∧
          t'.relationships = (t.addRelationship r).relationships) := by
  rw [define] at h
  cases hc : Column.ofChain type chain l with
  | error f => simp [hc, Except.map] at h
  | ok c =>
    rw [hc] at h
    obtain rfl := Except.ok.inj h
    refine ⟨c, rfl, rfl, _, rfl, ?_⟩
    cases hr : Relationship.constrained? c chain <;> by_cases hp : (chain.find? "primary").isSome <;>
      simp [hp, addRelationship]

/-- **A builder call defines a column.** -/
theorem apply_builder {b : Builder} {head : Call} (h : head.name = b.name) (t : Table)
    (key : String) (chain : Chain) (l : Location) :
    t.apply key head chain l = t.define (.builder b) chain l := by
  unfold apply applyBuilder
  rw [h]
  cases b <;> rfl

/-- **A call that names a type defines a column.** -/
theorem apply_ofCall? {head : Call} {type : ColumnType}
    (h : ColumnType.ofCall? head.name = some type) (t : Table) (key : String) (chain : Chain)
    (l : Location) : t.apply key head chain l = t.define type chain l := by
  -- Two calls have another name than their type, and all others are named after it.
  rcases ColumnType.eq_of_ofCall? h with ⟨hname, rfl⟩ | ⟨hname, rfl⟩ | ⟨b, hname, rfl⟩
  · unfold apply applyBuilder
    rw [hname]
    rfl
  · unfold apply applyBuilder
    rw [hname]
    rfl
  · exact apply_builder hname t key chain l

/-! ### The calls that ask for a key -/

section Keys

variable {head : Call} (t : Table) (key : String) (chain : Chain) (l : Location)

theorem apply_of_primary (h : head.name = "primary") :
    t.apply key head chain l = .ok ({ t with primaryKey := head.firstString? }, []) := by
  unfold apply
  rw [h]
  rfl

theorem apply_of_unique (h : head.name = "unique") :
    t.apply key head chain l = t.makeUnique key head l := by
  unfold apply
  rw [h]
  rfl

theorem apply_of_foreign (h : head.name = "foreign") :
    t.apply key head chain l =
      (Relationship.ofChain chain l).map fun k => (t.addRelationship k, []) := by
  unfold apply
  rw [h]
  rfl

end Keys

/-! ### The name of the table -/

@[simp] theorem name_addColumn (c : Column) : (t.addColumn c).name = t.name := rfl

@[simp] theorem name_dropColumns (names : List String) : (t.dropColumns names).name = t.name := by
  induction names generalizing t with
  | nil => rfl
  | cons n rest ih => exact ih (t := t.dropColumn n)

@[simp] theorem name_dropRelationships (names : List String) :
    (t.dropRelationships names).name = t.name := by
  induction names generalizing t with
  | nil => rfl
  | cons n rest ih => exact ih (t := t.dropRelationship n)

theorem renameColumn?_eq_some {t' : Table} {old new : String}
    (h : t.renameColumn? old new = some t') :
    t' = { t with
      columns := t.columns.rekey old new fun c => { c with name := new }
      primaryKey := if t.primaryKey = some old then some new else t.primaryKey
      relationships := t.relationships.map (relocate old new) } := by
  rw [renameColumn?] at h
  split at h
  · exact (Option.some.inj h).symm
  · exact absurd h (by simp)

theorem name_of_renameColumn? {t' : Table} {old new : String}
    (h : t.renameColumn? old new = some t') : t'.name = t.name := by
  rw [renameColumn?_eq_some h]

/-- **A call keeps the name of the table** that it is made on. -/
theorem name_apply (h : t.apply key head chain l = .ok e) : e.1.name = t.name := by
  cases answers_of_apply h with
  | primary => rfl
  | report => rfl
  | unique => rfl
  | rename old new t' _ _ _ hr => exact name_of_renameColumn? hr
  | dropColumns names => exact name_dropColumns names
  | foreign => rfl
  | dropRelationships names => exact name_dropRelationships names
  | define type e _ hd =>
    obtain ⟨c, -, -, t', he, ht', -⟩ := define_eq_ok hd
    rw [he, name_addColumn, ht']

theorem name_assign (t : Table) (property value : String) :
    (t.assign property value).name = t.name := by
  unfold assign
  split <;> rfl

theorem name_alter (t : Table) (a : Alteration) (l : Location) : (t.alter a l).1.name = t.name := by
  simp only [alter, name_addColumn]
  cases a.renamed with
  | none => rfl
  | some new =>
    cases h : t.renameColumn? a.column new with
    | none => simp [h]
    | some t' => simpa [h] using name_of_renameColumn? h

end Table

end SchemaHistory

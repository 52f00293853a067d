import SchemaHistory.Proofs.Calls
import SchemaHistory.Replay

/-!
# Properties that every table has

Most of what a statement does to a schema happens around its tables: they are opened, dropped and
renamed, they lose the relationships to a dropped table, and they follow a renamed one. A property
of tables that survives all this is **lasting** (`SchemaHistory.Table.Lasting`). For such a
property there is nothing to show about a statement but what the calls and the raw alterations
make of the one table that they are about (`SchemaHistory.Replay.each_step`).
-/

namespace SchemaHistory

/-- A property of tables that outlasts everything but calls and raw alterations. -/
structure Table.Lasting (Q : Table → Prop) : Prop where
  empty : ∀ name, Q { name }
  named : ∀ {t : Table} (name : String), Q t → Q { t with name }
  pruned : ∀ {t : Table} (name : String), Q t → Q (Schema.withoutReferencesTo name t)
  retargeted : ∀ {t : Table} (old new : String), Q t →
    Q { t with relationships := t.relationships.map (Schema.retarget old new) }
  assigned : ∀ {t : Table} (property value : String), Q t → Q (t.assign property value)

/-- A schema **each** of whose tables has a property. -/
def Schema.Each (Q : Table → Prop) (s : Schema) : Prop :=
  ∀ e ∈ s.tables.entries, Q e.2

variable {Q : Table → Prop}

/-! ### Schemas -/

namespace Schema

variable {s : Schema}

theorem each_empty : ({} : Schema).Each Q := by
  intro e he
  simp at he

theorem Each.table? (h : s.Each Q) {name : String} {t : Table} (ht : s.table? name = some t) :
    Q t :=
  h (name, t) (Dict.find?_eq_some_iff.1 ht)

theorem Each.setTable (h : s.Each Q) (name : String) {t : Table} (ht : Q t) :
    (s.setTable name t).Each Q := by
  intro e he
  rcases Dict.mem_entries_insert he with rfl | he
  · exact ht
  · exact h e he

theorem Each.modifyTable (h : s.Each Q) (name : String) {f : Table → Table}
    (hf : ∀ t, Q t → Q (f t)) : (s.modifyTable name f).Each Q := by
  intro e he
  obtain ⟨t, ht, het⟩ := Dict.mem_entries_modify he
  rw [het]
  split
  · exact hf t (h _ ht)
  · exact h _ ht

section Lasting

variable (hQ : Table.Lasting Q)
include hQ

theorem Each.openTable (h : s.Each Q) (name : String) : (s.openTable name).Each Q := by
  rw [Schema.openTable]
  split
  · exact h
  · exact h.setTable name (hQ.empty name)

theorem Each.tableOrNew (h : s.Each Q) (name : String) : Q (s.tableOrNew name) := by
  rw [Schema.tableOrNew]
  cases ht : s.table? name with
  | none => exact hQ.empty name
  | some t => exact h.table? ht

theorem Each.drop (h : s.Each Q) (name : String) : (s.drop name).Each Q := by
  intro e he
  obtain ⟨a, ha, rfl | rfl⟩ := exists_of_mem_drop he
  · exact h _ ha
  · exact hQ.pruned name (h a ha)

theorem Each.rename (h : s.Each Q) {old new : String} {renamed : Renamed}
    (hr : s.rename? old new = some renamed) : renamed.schema.Each Q := by
  intro e he
  obtain ⟨a, rfl, ⟨t, ht, rfl⟩ | ha⟩ := exists_of_mem_rename hr he
  · exact hQ.retargeted old new (hQ.named new (h.table? ht))
  · exact hQ.retargeted old new (h a ha)

end Lasting

end Schema

/-! ### Statements -/

namespace Replay

variable {r : Replay} (hQ : Table.Lasting Q)
include hQ

omit hQ in
theorem each_alter (h : r.schema.Each Q) {a : Alteration} {l : Location}
    (halter : ∀ t, r.schema.table? a.table = some t → Q (t.alter a l).1) :
    (r.alter a l).schema.Each Q := by
  rw [alter]
  cases ht : r.schema.table? a.table with
  | none => exact h
  | some t => exact h.setTable a.table (halter t ht)

theorem each_rename (h : r.schema.Each Q) (old new : String) (l : Location) :
    (r.rename old new l).schema.Each Q := by
  rw [rename]
  cases hr : r.schema.rename? old new with
  | none => exact h
  | some renamed => exact h.rename hQ hr

theorem each_call (h : r.schema.Each Q) {chain : Chain} {l : Location}
    (hcall : ∀ head name e, chain.head? = some head → r.current = some name →
      ((r.schema.openTable name).tableOrNew name).apply name head chain l = .ok e → Q e.1) :
    (r.call chain l).1.schema.Each Q := by
  rw [call]
  cases hhead : chain.head? with
  | none => exact h
  | some head =>
    cases hname : r.current with
    | none => exact h
    | some name =>
      have hopen := h.openTable hQ name
      cases ht : ((r.schema.openTable name).tableOrNew name).apply name head chain l with
      | error f => simpa only [ht] using hopen
      | ok e =>
        simp only [ht]
        exact hopen.setTable name (hcall head name e hhead hname ht)

/-- **What a statement keeps of a lasting property**: all of it, if the one table that it alters or
calls has the property afterwards. -/
theorem each_step (h : r.schema.Each Q) {s : Statement} {l : Location}
    (halter : ∀ a t, s = .alteration a → r.schema.table? a.table = some t → Q (t.alter a l).1)
    (hcall : ∀ chain head name e, s = .calls chain → chain.head? = some head →
      r.current = some name →
      ((r.schema.openTable name).tableOrNew name).apply name head chain l = .ok e → Q e.1) :
    (r.step s l).1.schema.Each Q := by
  -- All but the two cases with a hypothesis follow from what the property outlasts.
  cases s with
  | downBoundary => exact h
  | blockClose => exact h
  | query verb => exact h
  | alteration a => exact each_alter h fun t => halter a t rfl
  | renameTable old new => exact each_rename hQ h old new l
  | directive verb table =>
    cases verb with
    | create => exact h.openTable hQ table
    | alter => exact h.openTable hQ table
    | drop => exact h.drop hQ table
  | assignment property value =>
    simp only [step, assign]
    cases r.current with
    | none => exact h
    | some name => exact h.modifyTable name fun t => hQ.assigned property value
  | calls chain =>
    rw [fst_step_calls]
    exact each_call hQ h fun head name e => hcall chain head name e rfl

end Replay

end SchemaHistory

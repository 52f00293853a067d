import SchemaHistory.Proofs.Calls
import SchemaHistory.Proofs.Keyed
import SchemaHistory.Replay

/-!
# What every replay keeps

A property of the state that one statement keeps is kept by a line, a source and a list of
sources, also if a failure ends them half way (`SchemaHistory.Replay.sources_induction`). So an
invariant of all replays is proved by looking at the statements one by one, and only at those that
occur in a source (`SchemaHistory.Statement.Occurs`).

The first of these invariants is that the schema is keyed
(`SchemaHistory.Replay.keyed_sources`): no call changes the name of the table it is made on, and
a renamed table takes its new name along.

What a replay of many sources answers is put together from the **results** of the single ones
(`SchemaHistory.Replay.results`).
-/

namespace SchemaHistory

/-- A statement **occurs** if a logical line of some source is recognised as it. -/
def Statement.Occurs (s : Statement) : Prop :=
  ∃ (source text : String) (inTable : Bool) (l : Location), text ∈ Source.normalize source ∧
    recognize text.toList inTable l = .ok (some s)

namespace Replay

/-! ### From one statement to all sources -/

section Induction

variable {P : Replay → Prop} (hstep : ∀ r s l, s.Occurs → P r → P (r.step s l).1)
include hstep

theorem line_induction {r : Replay} {source text : String} (htext : text ∈ Source.normalize source)
    (location : Location) (h : P r) : P (r.line text location).1 := by
  rw [line]
  split
  · exact h
  · exact h
  · rename_i s hs
    exact hstep _ _ _ ⟨source, text, _, location, htext, hs⟩ h

theorem lines_induction {source : String} {texts : List String}
    (htexts : ∀ text ∈ texts, text ∈ Source.normalize source) (name : String) (n : Nat)
    (operation : Bool) {r : Replay} (h : P r) : P (lines name n operation r texts).1 := by
  induction texts generalizing n operation r with
  | nil => exact h
  | cons text rest ih =>
    have hline := line_induction hstep (htexts text List.mem_cons_self) ⟨name, n⟩ h
    rw [lines]
    split <;> rename_i heq <;> rw [heq] at hline
    · exact hline
    · exact hline
    · exact ih (fun t ht => htexts t (List.mem_cons_of_mem text ht)) (n + 1) _ hline

variable (hclose : ∀ r, P r → P { r with current := none })
include hclose

theorem source_induction {r : Replay} (m : Migration) (h : P r) : P (r.source m).1 := by
  have htexts : ∀ text ∈ Source.normalize m.text, text ∈ Source.normalize m.text := fun _ => id
  have hlines := lines_induction hstep htexts m.name 1 false (hclose r h)
  rw [source]
  split <;> rename_i heq <;> rw [heq] at hlines
  · exact hclose _ hlines
  · exact hlines

/-- **An invariant of one statement is one of all sources.** It has to survive the end of a block
as well, since no block is open before and after a source. -/
theorem sources_induction {r : Replay} (ms : List Migration) (h : P r) : P (r.sources ms).1 := by
  induction ms generalizing r with
  | nil => exact h
  | cons m rest ih =>
    have hsource := source_induction hstep hclose m h
    rw [sources]
    split <;> rename_i heq <;> rw [heq] at hsource
    · exact hsource
    · have hrest := ih hsource
      split <;> rename_i heq' <;> rw [heq'] at hrest
      · exact hrest
      · exact hrest

end Induction

/-! ### Replays keep the schema keyed -/

theorem keyed_alter {r : Replay} (h : r.schema.Keyed) (a : Alteration) (l : Location) :
    (r.alter a l).schema.Keyed := by
  rw [alter]
  cases ht : r.schema.table? a.table with
  | none => exact h
  | some t =>
    refine h.setTable ?_
    rw [Table.name_alter, h.name_eq ht]

theorem keyed_rename {r : Replay} (h : r.schema.Keyed) (old new : String) (l : Location) :
    (r.rename old new l).schema.Keyed := by
  rw [rename]
  cases hr : r.schema.rename? old new with
  | none => exact h
  | some renamed => exact h.rename hr

theorem keyed_call {r : Replay} (h : r.schema.Keyed) (chain : Chain) (l : Location) :
    (r.call chain l).1.schema.Keyed := by
  rw [call]
  cases chain.head? with
  | none => exact h
  | some head =>
    cases r.current with
    | none => exact h
    | some name =>
      have hopen := h.openTable name
      cases ht : ((r.schema.openTable name).tableOrNew name).apply name head chain l with
      | error f => simpa only [ht] using hopen
      | ok e =>
        simp only [ht]
        refine hopen.setTable ?_
        rw [Table.name_apply ht, hopen.name_tableOrNew]

theorem keyed_step {r : Replay} (s : Statement) (l : Location) (h : r.schema.Keyed) :
    (r.step s l).1.schema.Keyed := by
  cases s with
  | downBoundary => exact h
  | blockClose => exact h
  | query verb => exact h
  | alteration a => exact keyed_alter h a l
  | renameTable old new => exact keyed_rename h old new l
  | directive verb table =>
    cases verb with
    | create => exact h.openTable table
    | alter => exact h.openTable table
    | drop => exact h.drop table
  | assignment property value =>
    simp only [step, assign]
    cases r.current with
    | none => exact h
    | some name => exact h.modifyTable fun t => t.name_assign property value
  | calls chain =>
    rw [fst_step_calls]
    exact keyed_call h chain l

/-- **Every replay keeps the schema keyed**, whatever the sources are. -/
theorem keyed_sources {r : Replay} (h : r.schema.Keyed) (ms : List Migration) :
    (r.sources ms).1.schema.Keyed :=
  sources_induction (P := fun r => r.schema.Keyed) (fun _ s l _ => keyed_step s l) (fun _ => id)
    ms h

/-! ### Inside a block -/

/-- Calls leave the block open that they are made in. -/
theorem current_call (r : Replay) (chain : Chain) (l : Location) :
    (r.call chain l).1.current = r.current := by
  rw [call]
  split
  · simp only
    split <;> rfl
  · rfl

section Inside

variable {r : Replay} {name : String} {t : Table} (hname : r.current = some name)
include hname

/-- A call is made on the open table, or on an empty one if the schema has none of this name. It
stores what it makes of the table, or fails. -/
theorem call_opened {chain : Chain} {head : Call} (hhead : chain.head? = some head)
    (l : Location) :
    r.call chain l = match (r.schema.tableOrNew name).apply name head chain l with
      | .ok e => ({ r with schema := r.schema.setTable name e.1 }.report e.2, none)
      | .error f => ({ r with schema := r.schema.openTable name }, some f) := by
  simp only [call, hhead, hname, Schema.tableOrNew_openTable]
  cases (r.schema.tableOrNew name).apply name head chain l with
  | ok e => simp only [Schema.setTable_openTable]
  | error f => simp only [← hname]

/-- A call that does not fail is a step that stores what it makes of the table. -/
theorem step_calls_of_ok {chain : Chain} {head : Call} (hhead : chain.head? = some head)
    {l : Location} {e : Table × List Failure}
    (h : (r.schema.tableOrNew name).apply name head chain l = .ok e) :
    r.step (.calls chain) l =
      ({ r with schema := r.schema.setTable name e.1 }.report e.2, .proceed false) := by
  simp only [step, call_opened hname hhead, h]

theorem step_calls_of_silent {chain : Chain} {head : Call} (hhead : chain.head? = some head)
    {l : Location} {t : Table}
    (h : (r.schema.tableOrNew name).apply name head chain l = .ok (t, [])) :
    r.step (.calls chain) l = ({ r with schema := r.schema.setTable name t }, .proceed false) := by
  rw [step_calls_of_ok hname hhead h, report, List.append_nil]

/-- A call that fails is a step that fails. -/
theorem step_calls_of_error {chain : Chain} {head : Call} (hhead : chain.head? = some head)
    {l : Location} {f : Failure}
    (h : (r.schema.tableOrNew name).apply name head chain l = .error f) :
    r.step (.calls chain) l = ({ r with schema := r.schema.openTable name }, .fail f) := by
  simp only [step, call_opened hname hhead, h]

variable (ht : r.schema.table? name = some t)
include ht

/-- An assignment changes the open table. -/
theorem assign_inside (property value : String) :
    r.assign property value =
      { r with schema := r.schema.setTable name (t.assign property value) } := by
  simp only [assign, hname, Schema.modifyTable, Schema.setTable, Dict.modify_eq_insert ht]

/-- A call changes the open table, or fails and changes nothing. -/
theorem call_inside {chain : Chain} {head : Call} (hhead : chain.head? = some head)
    (l : Location) :
    r.call chain l = match t.apply name head chain l with
      | .ok e => ({ r with schema := r.schema.setTable name e.1 }.report e.2, none)
      | .error f => (r, some f) := by
  -- The table is in the schema, so it is not opened anew.
  have hopen : r.schema.openTable name = r.schema :=
    Schema.openTable_of_mem (Schema.mem_tableNames_iff.2 ⟨t, ht⟩)
  have htable : r.schema.tableOrNew name = t := by rw [Schema.tableOrNew, ht, Option.getD_some]
  rw [call_opened hname hhead, hopen, htable]

end Inside

/-! ### The results of single sources -/

/-- The **results** of sources, each replayed from the state that those before it have left. -/
def results (r : Replay) : List Migration → List (Migration × Except Failure Bool)
  | [] => []
  | m :: rest => (m, (r.source m).2) :: results (r.source m).1 rest

/-- The name of a migration whose replay was a schema operation. -/
def operationName? : Migration × Except Failure Bool → Option String
  | (m, .ok true) => some m.name
  | _ => none

/-- A source that does not fail hands its state to the sources behind it. -/
theorem sources_cons_of_ok {r r' : Replay} {m : Migration} {b : Bool}
    (hm : r.source m = (r', .ok b)) (ms : List Migration) :
    r.sources (m :: ms) = ((r'.sources ms).1,
      (r'.sources ms).2.map fun names => if b then m.name :: names else names) := by
  rw [sources, hm]
  rcases hrest : r'.sources ms with ⟨r'', f | names⟩ <;> simp only [hrest] <;> rfl

/-- If no source fails, the names of those with schema operations are given, in order. -/
theorem sources_eq_ok {r : Replay} {ms : List Migration} {names : List String}
    (h : (r.sources ms).2 = .ok names) :
    (∀ x ∈ r.results ms, ∃ b, x.2 = .ok b) ∧ names = (r.results ms).filterMap operationName? := by
  induction ms generalizing r names with
  | nil =>
    obtain rfl := Except.ok.inj h
    simp [results]
  | cons m rest ih =>
    rw [sources] at h
    rw [results]
    rcases hm : r.source m with ⟨r', f | b⟩ <;> rw [hm] at h
    · exact absurd h (by simp)
    rcases hrest : r'.sources rest with ⟨r'', f | names'⟩ <;> simp only [hrest] at h
    · exact absurd h (by simp)
    obtain ⟨hall, hnames⟩ := ih (r := r') (by rw [hrest])
    obtain rfl := Except.ok.inj h
    refine ⟨?_, ?_⟩
    · intro x hx
      rcases List.mem_cons.1 hx with rfl | hx
      · exact ⟨b, rfl⟩
      · exact hall x hx
    · cases b
      · rw [List.filterMap_cons_none rfl]
        exact hnames
      · have hname : operationName? (m, .ok true) = some m.name := rfl
        rw [List.filterMap_cons_some hname, ← hnames]
        rfl

/-- The replay of sources comes to its end exactly if none of them fails in its turn. -/
theorem exists_sources_eq_ok_iff {r : Replay} {ms : List Migration} :
    (∃ names, (r.sources ms).2 = .ok names) ↔ ∀ x ∈ r.results ms, ∃ b, x.2 = .ok b := by
  constructor
  · rintro ⟨names, hnames⟩
    exact (sources_eq_ok hnames).1
  · intro h
    induction ms generalizing r with
    | nil => exact ⟨[], rfl⟩
    | cons m rest ih =>
      obtain ⟨b, hb⟩ := h (m, (r.source m).2) List.mem_cons_self
      obtain ⟨names, hnames⟩ := ih fun x hx => h x (List.mem_cons_of_mem _ hx)
      have hm : r.source m = ((r.source m).1, .ok b) := Prod.ext rfl hb
      rw [sources_cons_of_ok hm, hnames]
      exact ⟨_, rfl⟩

/-- The results of sources are those of single replays of them. -/
theorem exists_of_mem_results {r : Replay} {ms : List Migration}
    {x : Migration × Except Failure Bool} (h : x ∈ r.results ms) :
    ∃ m ∈ ms, ∃ s : Replay, x = (m, (s.source m).2) := by
  induction ms generalizing r with
  | nil => exact absurd h (by simp [results])
  | cons m rest ih =>
    rcases List.mem_cons.1 h with rfl | hrest
    · exact ⟨m, List.mem_cons_self, r, rfl⟩
    · obtain ⟨k, hk, s, rfl⟩ := ih hrest
      exact ⟨k, List.mem_cons_of_mem m hk, s, rfl⟩

end Replay

end SchemaHistory

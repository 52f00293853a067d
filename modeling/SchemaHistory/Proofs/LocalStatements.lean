import SchemaHistory.Proofs.Replays

/-!
# The reach of statements

A statement is about one table: the one that it names, or the one whose block is open. Statements
that neither drop nor rename a table read nothing of the schema but this table, and do nothing but
store it again. Drops and renames are the only ones that reach further, since the relationships of
all other tables follow them.

To say this once for single statements and for whole sources, what a replay does is written down as
a **change** (`SchemaHistory.Change`): the tables that are stored, the table that is open afterwards
and what is reported. A computation is **local** to some tables (`SchemaHistory.Replay.Local`) if it
makes one and the same change in all states that agree on these tables, and stores no others.
Statements are local to the tables they are about (`SchemaHistory.Replay.local_step`), and so are
the sources that are made of them (`SchemaHistory.Replay.local_source`).

The statements of a source can be read off its text alone (`SchemaHistory.Migration.statements`).
Recognition asks whether the block of a table is open, but that is known from the statements before,
whatever the schema is.
-/

namespace SchemaHistory

/-! ### What a statement is about -/

namespace Statement

/-- The tables that a statement **names**. Calls and assignments name none; they are about the open
table. -/
def tables : Statement → List String
  | alteration a => [a.table]
  | renameTable old new => [old, new]
  | directive _ table => [table]
  | _ => []

/-- Whether a statement **removes** a table from the schema, by dropping or by renaming it. -/
def removes : Statement → Bool
  | renameTable _ _ => true
  | directive .drop _ => true
  | _ => false

/-- A statement **stays within** tables if it names no others and removes none. -/
structure StaysIn (names : List String) (s : Statement) : Prop where
  tables : ∀ name ∈ s.tables, name ∈ names
  keeps : s.removes = false

/-- Whether nothing behind a statement is replayed. -/
def endsSource : Statement → Bool
  | downBoundary => true
  | _ => false

/-- Whether the block of a table is open behind a statement, given whether one is open before. -/
def opens (inTable : Bool) : Statement → Bool
  | blockClose => false
  | directive .drop _ => false
  | directive _ _ => true
  | _ => inTable

/-- The **statements** of logical lines with their locations, up to the first line that ends the
source or cannot be recognised. -/
def ofLines (source : String) (n : Nat) (inTable : Bool) : List String → List (Statement × Location)
  | [] => []
  | text :: rest =>
    match recognize text.toList inTable ⟨source, n⟩ with
    | .error _ => []
    | .ok none => ofLines source (n + 1) inTable rest
    | .ok (some s) =>
      (s, ⟨source, n⟩) ::
        if s.endsSource then [] else ofLines source (n + 1) (s.opens inTable) rest

end Statement

/-- The **statements** of a source with their locations. -/
def Migration.statements (m : Migration) : List (Statement × Location) :=
  Statement.ofLines m.name 1 false (Source.normalize m.text)

/-! ### Changes -/

/-- A **change** of a replay: tables that are stored one after the other, the name of the table that
is open afterwards, and what is reported. -/
structure Change where
  stored : List (String × Table) := []
  current : Option String := none
  reports : List Failure := []

namespace Change

/-- A change **stays within** tables if it stores and opens no others. -/
structure Within (names : List String) (c : Change) : Prop where
  stored : ∀ e ∈ c.stored, e.1 ∈ names
  current : ∀ name, c.current = some name → name ∈ names

/-- One change and then another. -/
def andThen (c d : Change) : Change where
  stored := c.stored ++ d.stored
  current := d.current
  reports := c.reports ++ d.reports

variable {names : List String} {c d : Change}

theorem Within.andThen (hc : c.Within names) (hd : d.Within names) :
    (c.andThen d).Within names where
  stored e he := (List.mem_append.1 he).elim (hc.stored e) (hd.stored e)
  current := hd.current

end Change

/-- The schema with tables stored one after the other. -/
def Schema.storeAll (s : Schema) (es : List (String × Table)) : Schema :=
  es.foldl (fun s e => s.setTable e.1 e.2) s

namespace Schema

variable {s s' : Schema} {es : List (String × Table)}

/-- What is stored under a name depends on what was stored there before, and on nothing else. -/
theorem table?_storeAll_congr {name : String} (h : s'.table? name = s.table? name)
    (es : List (String × Table)) : (s'.storeAll es).table? name = (s.storeAll es).table? name := by
  induction es generalizing s s' with
  | nil => exact h
  | cons e es ih =>
    refine ih ?_
    by_cases hname : name = e.1
    · rw [hname, table?_setTable, table?_setTable]
    · rw [table?_setTable_of_ne _ hname, table?_setTable_of_ne _ hname, h]

/-- What is stored under other names does not matter. -/
theorem table?_storeAll_of_not_mem {name : String} (h : ∀ e ∈ es, name ≠ e.1) :
    (s.storeAll es).table? name = s.table? name := by
  induction es generalizing s with
  | nil => rfl
  | cons e es ih =>
    obtain ⟨hfirst, hrest⟩ := List.forall_mem_cons.1 h
    exact (ih hrest).trans (table?_setTable_of_ne _ hfirst _)

theorem modifyTable_of_table? {name : String} {t : Table} (h : s.table? name = some t)
    (f : Table → Table) : s.modifyTable name f = s.setTable name (f t) :=
  congrArg Schema.mk (Dict.modify_eq_insert h f)

theorem modifyTable_of_none {name : String} (h : s.table? name = none) (f : Table → Table) :
    s.modifyTable name f = s :=
  congrArg Schema.mk (Dict.modify_eq_self h f)

end Schema

namespace Replay

/-- The state after a change. -/
def commit (r : Replay) (c : Change) : Replay where
  schema := r.schema.storeAll c.stored
  current := c.current
  diagnostics := r.diagnostics ++ c.reports

theorem commit_commit (r : Replay) (c d : Change) :
    (r.commit c).commit d = r.commit (c.andThen d) := by
  simp [commit, Change.andThen, Schema.storeAll]

/-- Two states **agree on** tables: these tables are the same in both, and so is the name of the
open one. -/
structure AgreesOn (names : List String) (r r' : Replay) : Prop where
  current : r'.current = r.current
  tables : ∀ name ∈ names, r'.schema.table? name = r.schema.table? name

/-- A computation is **local** to tables, from a state: in all states that agree with this one on
the tables it makes the same change, which stays within the tables, and gives the same answer. -/
def Local {α : Type} (names : List String) (r : Replay) (f : Replay → Replay × α) : Prop :=
  ∃ c a, c.Within names ∧ ∀ r', r.AgreesOn names r' → f r' = (r'.commit c, a)

variable {names : List String} {r r' : Replay}

theorem AgreesOn.refl (names : List String) (r : Replay) : r.AgreesOn names r :=
  ⟨rfl, fun _ _ => rfl⟩

/-- The same change leads from states that agree to states that agree. -/
theorem AgreesOn.commit (h : r.AgreesOn names r') (c : Change) :
    (r.commit c).AgreesOn names (r'.commit c) where
  current := rfl
  tables name hname := Schema.table?_storeAll_congr (h.tables name hname) c.stored

theorem AgreesOn.tableOrNew (h : r.AgreesOn names r') {name : String} (hname : name ∈ names) :
    r'.schema.tableOrNew name = r.schema.tableOrNew name := by
  rw [Schema.tableOrNew, Schema.tableOrNew, h.tables name hname]

/-! ### Statements -/

section Statements

variable (hr : ∀ name, r.current = some name → name ∈ names)
include hr

/-- What leaves all states that agree as they are is local. -/
theorem local_of_unchanged {α : Type} {f : Replay → Replay × α} (a : α)
    (h : ∀ r', r.AgreesOn names r' → f r' = (r', a)) : r.Local names f := by
  refine ⟨{ current := r.current }, a, ⟨by simp, hr⟩, fun r' hr' => ?_⟩
  rw [h r' hr', commit, ← hr'.current]
  simp [Schema.storeAll]

theorem local_alter {a : Alteration} (ha : a.table ∈ names) (l : Location) :
    r.Local names fun r' => (r'.alter a l, Outcome.proceed true) := by
  cases ht : r.schema.table? a.table with
  | none =>
    refine ⟨{ current := r.current, reports := [.unknownTable a.table l] }, .proceed true,
      ⟨by simp, hr⟩, fun r' hr' => ?_⟩
    show (r'.alter a l, Outcome.proceed true) = _
    rw [alter, hr'.tables _ ha, ht, ← hr'.current]
    rfl
  | some t =>
    refine ⟨{ stored := [(a.table, (t.alter a l).1)], current := r.current,
              reports := (t.alter a l).2 }, .proceed true, ⟨by simpa using ha, hr⟩,
      fun r' hr' => ?_⟩
    show (r'.alter a l, Outcome.proceed true) = _
    rw [alter, hr'.tables _ ha, ht, ← hr'.current]
    rfl

theorem local_assign (property value : String) :
    r.Local names fun r' => (r'.assign property value, Outcome.proceed false) := by
  cases hname : r.current with
  | none =>
    refine local_of_unchanged hr (.proceed false) fun r' hr' => ?_
    rw [assign, hr'.current, hname]
  | some name =>
    have hmem := hr name hname
    cases ht : r.schema.table? name with
    | none =>
      refine local_of_unchanged hr (.proceed false) fun r' hr' => ?_
      simp only [assign, hr'.current, hname]
      rw [Schema.modifyTable_of_none ((hr'.tables name hmem).trans ht), ← hname, ← hr'.current]
    | some t =>
      refine ⟨{ stored := [(name, t.assign property value)], current := some name }, .proceed false,
        ⟨by simpa using hmem, by simpa using hmem⟩, fun r' hr' => ?_⟩
      simp only [assign, hr'.current, hname]
      rw [Schema.modifyTable_of_table? ((hr'.tables name hmem).trans ht), commit]
      simp [Schema.storeAll]

theorem local_call (chain : Chain) (l : Location) :
    r.Local names fun r' => r'.call chain l := by
  cases hhead : chain.head? with
  | none =>
    refine local_of_unchanged hr none fun r' hr' => ?_
    rw [call, hhead]
  | some head =>
    cases hname : r.current with
    | none =>
      refine local_of_unchanged hr none fun r' hr' => ?_
      rw [call, hhead, hr'.current, hname]
    | some name =>
      have hmem := hr name hname
      -- The table is opened, and what the call makes of it is stored in its place.
      cases he : (r.schema.tableOrNew name).apply name head chain l with
      | error f =>
        refine ⟨{ stored := [(name, r.schema.tableOrNew name)], current := some name }, some f,
          ⟨by simpa using hmem, by simpa using hmem⟩, fun r' hr' => ?_⟩
        simp only [call_opened (hr'.current.trans hname) hhead, hr'.tableOrNew hmem, he]
        rw [Schema.openTable_eq_setTable, hr'.tableOrNew hmem, hr'.current, hname, commit,
          List.append_nil]
        rfl
      | ok e =>
        refine ⟨{ stored := [(name, e.1)], current := some name, reports := e.2 }, none,
          ⟨by simpa using hmem, by simpa using hmem⟩, fun r' hr' => ?_⟩
        simp only [call_opened (hr'.current.trans hname) hhead, hr'.tableOrNew hmem, he]
        rw [report, hr'.current, hname]
        rfl

/-- **A statement is local to the tables it is about**, unless it removes one: the table that it
names, or the one whose block is open. -/
theorem local_step {s : Statement} (hs : s.StaysIn names) (l : Location) :
    r.Local names fun r' => r'.step s l := by
  cases s with
  | downBoundary => exact local_of_unchanged hr .stop fun _ _ => rfl
  | blockClose =>
    refine ⟨{}, .proceed false, ⟨by simp, by simp⟩, fun r' _ => ?_⟩
    simp [step, commit, Schema.storeAll]
  | query verb => exact local_of_unchanged hr (.proceed false) fun _ _ => rfl
  | alteration a => exact local_alter hr (hs.tables a.table List.mem_cons_self) l
  | renameTable old new => exact absurd hs.keeps (by simp [Statement.removes])
  | directive verb table =>
    have hmem := hs.tables table List.mem_cons_self
    have hopen : r.Local names fun r' => ({ r' with
        schema := r'.schema.openTable table, current := some table }, Outcome.proceed true) := by
      refine ⟨{ stored := [(table, r.schema.tableOrNew table)], current := some table },
        .proceed true, ⟨by simpa using hmem, by simpa using hmem⟩, fun r' hr' => ?_⟩
      simp only [Schema.openTable_eq_setTable, hr'.tableOrNew hmem, commit, List.append_nil]
      rfl
    cases verb with
    | create => exact hopen
    | alter => exact hopen
    | drop => exact absurd hs.keeps (by simp [Statement.removes])
  | assignment property value => exact local_assign hr property value
  | calls chain =>
    obtain ⟨c, f?, hc, hcall⟩ := local_call hr chain l
    cases f? with
    | none =>
      refine ⟨c, .proceed false, hc, fun r' hr' => ?_⟩
      simp only [step, hcall r' hr']
    | some f =>
      refine ⟨c, .fail f, hc, fun r' hr' => ?_⟩
      simp only [step, hcall r' hr']

end Statements

/-! ### Sources -/

/-- Whether the block of a table is open behind a statement depends on the statement alone. -/
theorem isSome_current_step (r : Replay) (s : Statement) (l : Location) :
    (r.step s l).1.current.isSome = s.opens r.current.isSome := by
  cases s with
  | downBoundary => rfl
  | blockClose => rfl
  | query verb => rfl
  | alteration a =>
    simp only [step, alter]
    split <;> rfl
  | renameTable old new =>
    simp only [step, rename]
    split
    · rfl
    · -- A renamed table stays open, under its new name.
      simp only [Statement.opens]
      split
      · rename_i hold
        rw [hold]
        rfl
      · rfl
  | directive verb table => cases verb <;> rfl
  | assignment property value =>
    simp only [step, assign]
    split
    · rfl
    · rfl
  | calls chain =>
    rw [fst_step_calls, current_call]
    rfl

/-- The replay of a source ends at the statements that say so. -/
theorem step_eq_stop_iff (r : Replay) (s : Statement) (l : Location) :
    (r.step s l).2 = .stop ↔ s.endsSource = true := by
  cases s with
  | calls chain =>
    rw [step]
    split <;> simp [Statement.endsSource]
  | _ => simp [step, Statement.endsSource]

/-- Behind a statement that the replay goes on after, the statements are those of the state that it
leads to. -/
theorem ofLines_of_proceed {source text : String} {n : Nat} {s : Statement} {b : Bool}
    (hrec : Statement.recognize text.toList r.current.isSome ⟨source, n⟩ = .ok (some s))
    (hstep : r.step s ⟨source, n⟩ = (r', .proceed b)) (rest : List String) :
    Statement.ofLines source n r.current.isSome (text :: rest) =
      (s, ⟨source, n⟩) :: Statement.ofLines source (n + 1) r'.current.isSome rest := by
  have hends : ¬s.endsSource = true := by
    rw [← step_eq_stop_iff r s ⟨source, n⟩, hstep]
    simp
  have hopens := isSome_current_step r s ⟨source, n⟩
  rw [hstep] at hopens
  simp only [Statement.ofLines, hrec]
  rw [if_neg hends, ← hopens]

/-- Lines are local to tables if all their statements stay within them. -/
theorem local_lines {source : String} {n : Nat} {texts : List String} (operation : Bool)
    (hr : ∀ name, r.current = some name → name ∈ names)
    (hs : ∀ x ∈ Statement.ofLines source n r.current.isSome texts, x.1.StaysIn names) :
    r.Local names fun r' => lines source n operation r' texts := by
  -- The changes of the lines are put together to one; each line is read in the state that the
  -- changes of the lines before it have led to.
  induction texts generalizing n r operation with
  | nil => exact local_of_unchanged hr (.ok operation) fun _ _ => rfl
  | cons text rest ih =>
    cases hrec : Statement.recognize text.toList r.current.isSome ⟨source, n⟩ with
    | error f =>
      refine local_of_unchanged hr (.error f) fun r' hr' => ?_
      simp only [lines, line, hr'.current, hrec]
    | ok s? =>
      cases s? with
      | none =>
        simp only [Statement.ofLines, hrec] at hs
        obtain ⟨c, a, hc, hrest⟩ := ih operation hr hs
        refine ⟨c, a, hc, fun r' hr' => ?_⟩
        simp only [lines, line, hr'.current, hrec, Bool.or_false]
        exact hrest r' hr'
      | some s =>
        have hfirst : s.StaysIn names := hs (s, ⟨source, n⟩) (by simp [Statement.ofLines, hrec])
        obtain ⟨c, o, hc, hstep⟩ := local_step hr hfirst ⟨source, n⟩
        cases o with
        | fail f =>
          refine ⟨c, .error f, hc, fun r' hr' => ?_⟩
          simp only [lines, line, hr'.current, hrec, hstep r' hr']
        | stop =>
          refine ⟨c, .ok operation, hc, fun r' hr' => ?_⟩
          simp only [lines, line, hr'.current, hrec, hstep r' hr']
        | proceed b =>
          rw [ofLines_of_proceed hrec (hstep r (.refl names r))] at hs
          obtain ⟨-, hbehind⟩ := List.forall_mem_cons.1 hs
          obtain ⟨d, a, hd, hrest⟩ := ih (operation || b) hc.current hbehind
          refine ⟨c.andThen d, a, hc.andThen hd, fun r' hr' => ?_⟩
          simp only [lines, line, hr'.current, hrec, hstep r' hr']
          refine (hrest _ (hr'.commit c)).trans ?_
          rw [commit_commit]

/-- **A source is local to the tables that its statements are about**, if none of them removes a
table. -/
theorem local_source {m : Migration} (hs : ∀ x ∈ m.statements, x.1.StaysIn names) (r : Replay) :
    ∃ c a, c.Within names ∧ ∀ r' : Replay,
      (∀ name ∈ names, r'.schema.table? name = r.schema.table? name) →
        r'.source m = (r'.commit c, a) := by
  obtain ⟨c, a, hc, hlines⟩ :=
    local_lines (r := { r with current := none }) (n := 1) false (by simp) hs
  have hrun : ∀ r' : Replay, (∀ name ∈ names, r'.schema.table? name = r.schema.table? name) →
      lines m.name 1 false { r' with current := none } (Source.normalize m.text) =
        (r'.commit c, a) :=
    fun r' hr' => hlines { r' with current := none } ⟨rfl, hr'⟩
  cases a with
  | ok b =>
    refine ⟨{ c with current := none }, .ok b, ⟨hc.stored, by simp⟩, fun r' hr' => ?_⟩
    rw [source, hrun r' hr']
    rfl
  | error f =>
    refine ⟨c, .error f, hc, fun r' hr' => ?_⟩
    rw [source, hrun r' hr']

end Replay

end SchemaHistory

import Mathlib.Control.Monad.Basic
import SchemaHistory.Proofs.CreationOrder
import SchemaHistory.Proofs.Journal
import SchemaHistory.Proofs.Replays

/-!
# Runs are safe

A run writes the scripts of all tables in creation order, saves a snapshot if one is wanted, and
archives the migrations that changed the schema, in this order and none before its turn. The store
may fail at any call, and the run ends there. So an archived migration is always backed by a
complete set of scripts.

The statement (`SchemaHistory.Store.safe`) holds for every store over a state and speaks about its
journal, which is that of the run itself (`SchemaHistory.Store.squash_journaled`). What a run can do
is said once (`SchemaHistory.Store.Ran`), in three rules: the store has no list of migrations, they
have no plan, or the effects of their plan are carried out. With this come together that the plan is
about the tables that the replay leaves, in the order that they are created in
(`SchemaHistory.Plan.ofMigrations_eq_ok`), with one script for each of them, because the order has
every table exactly once (`SchemaHistory.Plan.writes_scripts`), and that the migrations to be
archived are those whose replay was a schema operation (`SchemaHistory.Replay.sources_eq_ok`).
-/

namespace SchemaHistory

/-! ### The scripts of a plan -/

namespace Plan

/-- What the migrations that are planned for have to do with the plan. -/
theorem ofMigrations_eq_ok {ms : List Migration} {p : Plan} (h : ofMigrations ms = .ok p) :
    p.schema = (Replay.sources {} ms).1.schema ∧ p.schema.order = .ok p.order ∧
      (Replay.sources {} ms).2 = .ok p.schemaSources := by
  rw [ofMigrations] at h
  rcases hs : Replay.sources {} ms with ⟨r, f | names⟩ <;> simp only [hs] at h
  · exact absurd h (by simp)
  cases ho : r.schema.order with
  | error f => simp [ho, Except.map] at h
  | ok order =>
    rw [ho] at h
    obtain rfl := Except.ok.inj h
    exact ⟨rfl, ho, rfl⟩

/-- There is a plan exactly if no source fails and the tables that the sources leave have an
order. -/
theorem exists_ofMigrations_eq_ok_iff {ms : List Migration} :
    (∃ p, ofMigrations ms = .ok p) ↔ (∀ x ∈ Replay.results {} ms, ∃ b, x.2 = .ok b) ∧
      ∃ order, (Replay.sources {} ms).1.schema.order = .ok order := by
  constructor
  · rintro ⟨p, hp⟩
    obtain ⟨hschema, horder, hsources⟩ := ofMigrations_eq_ok hp
    rw [← hschema]
    exact ⟨(Replay.sources_eq_ok hsources).1, p.order, horder⟩
  · rintro ⟨hresults, order, horder⟩
    obtain ⟨names, hnames⟩ := Replay.exists_sources_eq_ok_iff.2 hresults
    rcases hs : Replay.sources {} ms with ⟨r, answer⟩
    rw [hs] at hnames horder
    obtain rfl : answer = .ok names := hnames
    simp [ofMigrations, hs, horder, Except.map]

theorem keyed {ms : List Migration} {p : Plan} (h : ofMigrations ms = .ok p) : p.schema.Keyed := by
  rw [(ofMigrations_eq_ok h).1]
  exact Replay.keyed_sources Schema.keyed_empty ms

/-- A list of scripts **writes** a plan: one script for each table of the schema, in creation
order, numbered from zero, and each with the text for its table. -/
structure Writes (p : Plan) (scripts : List Script) : Prop where
  tables : scripts.map (·.table) = p.order
  every : p.order.Perm p.schema.tableNames
  indices : scripts.map (·.index) = List.range scripts.length
  contents : ∀ s ∈ scripts, ∃ t, p.schema.table? s.table = some t ∧ s.content = t.scriptText

/-- The scripts of a plan write it. -/
theorem writes_scripts {ms : List Migration} {p : Plan} (h : ofMigrations ms = .ok p) :
    p.Writes p.scripts := by
  have hkeyed : p.schema.Keyed := keyed h
  have hperm : p.order.Perm p.schema.tableNames :=
    (hkeyed.arranges_of_order (ofMigrations_eq_ok h).2.1).1
  have hnames : (p.order.filterMap p.schema.table?).map (·.name) = p.order :=
    hkeyed.map_name_filterMap fun n hn => hperm.mem_iff.1 hn
  refine ⟨?_, hperm, ?_, ?_⟩
  · refine Eq.trans ?_ hnames
    rw [scripts, Schema.scripts]
    exact List.ext_getElem (by simp) (by simp [Table.script])
  · rw [scripts, Schema.scripts]
    exact List.ext_getElem (by simp) (by simp [Table.script])
  · intro s hs
    obtain ⟨i, hi, rfl⟩ := List.mem_mapIdx.1 hs
    obtain ⟨name, -, ht⟩ := List.mem_filterMap.1 (List.getElem_mem hi)
    refine ⟨_, ?_, rfl⟩
    rw [← ht]
    exact congrArg p.schema.table? (hkeyed.name_eq ht)

/-- What a run of a plan does, step by step: the scripts, the snapshot if one is wanted, and the
migrations to be archived. -/
def sequence (p : Plan) (o : SquashOptions) (scripts : List Script) : List Effect :=
  scripts.map .write ++ (o.snapshot.map fun path => .save path p.schema.snapshot).toList ++
    p.schemaSources.map .archive

theorem effects_eq_sequence (p : Plan) {o : SquashOptions} (h : o.dryRun = false) :
    p.effects o = p.sequence o p.scripts := by
  simp [effects, sequence, h]

end Plan

/-! ### Runs of a store -/

namespace Store

variable {σ : Type} (store : Store (StateM σ)) (o : SquashOptions) (w : σ)

/-- The answer of a store that is asked for its migrations. -/
def listing : Except String (List Migration) :=
  (store.list w).1

/-- The **result** of a run. -/
def result : Except Failure Report :=
  (store.squash o w).1

/-- The **journal** of a run. -/
def journal : List StoreCall :=
  (store.journaled.squash o (w, [])).2.2

variable {store o w}

/-- **What a run can do**, by the answer of the store that is asked for its migrations, the calls
behind that, and the result: it ends for want of migrations or of a plan, or it carries out the
effects of its plan. -/
inductive Ran (o : SquashOptions) :
    Except String (List Migration) → List StoreCall → Except Failure Report → Prop
  | unlisted (reason : String) : Ran o (.error reason) [] (.error (.io reason))
  | unplanned {ms : List Migration} {f : Failure} (hp : Plan.ofMigrations ms = .error f) :
    Ran o (.ok ms) [] (.error f)
  | planned {ms : List Migration} {p : Plan} {calls : List StoreCall}
    {out : Except Failure Report} (hp : Plan.ofMigrations ms = .ok p)
    (h : Carried { plan := p, scripts := p.scripts } (p.effects o) calls out) :
    Ran o (.ok ms) calls out

variable (store o w)

/-- A run with a journal does to the store what the run does, gives the same result, and enters the
listing and then the calls of the run. -/
theorem exists_journaled : ∃ calls, store.journaled.squash o (w, []) =
      (store.result o w, (store.squash o w).2, .list (store.listing w) :: calls) ∧
    Ran o (store.listing w) calls (store.result o w) := by
  rcases hl : store.list w with ⟨reason | ms, w'⟩
  · refine ⟨[], ?_⟩
    simp [result, listing, squash, plan, journaled, entered, bind, StateT.bind,
      StateM.pure_apply, hl, Ran.unlisted]
  have hlist : store.journaled.list (w, []) = (.ok ms, w', [.list (.ok ms)]) := by
    simp [journaled, entered, hl]
  cases hp : Plan.ofMigrations ms with
  | error f =>
    refine ⟨[], ?_⟩
    simp [result, listing, squash, plan, bind, StateT.bind, StateM.pure_apply, hl, hlist, hp,
      Ran.unplanned hp]
  | ok p =>
    obtain ⟨calls, hrun, hcarried⟩ := store.performAll_journaled
      { plan := p, scripts := p.scripts } (p.effects o) w' [.list (.ok ms)]
    refine ⟨calls, ?_⟩
    simp [result, listing, squash, plan, bind, StateT.bind, StateM.pure_apply, hl, hlist, hp,
      hrun, Ran.planned hp hcarried]

/-- **The journal of a run is its own**: the run that keeps it gives the same result and does the
same to the store. -/
theorem squash_journaled : store.journaled.squash o (w, []) =
    (store.result o w, (store.squash o w).2, store.journal o w) := by
  obtain ⟨calls, hsquash, -⟩ := exists_journaled store o w
  rw [journal, hsquash]

/-- The journal of a run: the listing, and behind it what the run can do. -/
theorem exists_calls : ∃ calls, store.journal o w = .list (store.listing w) :: calls ∧
    Ran o (store.listing w) calls (store.result o w) := by
  obtain ⟨calls, hsquash, hran⟩ := exists_journaled store o w
  exact ⟨calls, by rw [journal, hsquash], hran⟩

variable {store o w}

/-- A run with a plan lists the migrations and then carries out the effects of the plan. -/
theorem run_of_plan {ms : List Migration} {p : Plan} (h : store.listing w = .ok ms)
    (hp : Plan.ofMigrations ms = .ok p) :
    ∃ calls, store.journal o w = .list (.ok ms) :: calls ∧
      Carried { plan := p, scripts := p.scripts } (p.effects o) calls (store.result o w) := by
  obtain ⟨calls, hjournal, hran⟩ := exists_calls store o w
  rw [h] at hjournal hran
  refine ⟨calls, hjournal, ?_⟩
  generalize store.result o w = out at hran
  cases hran with
  | unplanned hf => exact absurd (hp.symm.trans hf) (by simp)
  | planned hp' hcarried =>
    obtain rfl := Except.ok.inj (hp.symm.trans hp')
    exact hcarried

/-- A dry run with a plan asks for the migrations only, and reports the plan. -/
theorem run_of_dryRun {ms : List Migration} {p : Plan} (h : store.listing w = .ok ms)
    (hp : Plan.ofMigrations ms = .ok p) (hdry : o.dryRun = true) :
    store.result o w = .ok { plan := p, scripts := p.scripts } ∧
      store.journal o w = [.list (.ok ms)] := by
  obtain ⟨calls, hjournal, hcarried⟩ := run_of_plan (o := o) h hp
  have hnone : p.effects o = [] := by simp [Plan.effects, hdry]
  rw [hnone] at hcarried
  generalize store.result o w = out at hcarried ⊢
  cases hcarried
  exact ⟨rfl, hjournal⟩

/-- A run that gives a result has a plan. -/
theorem exists_plan_of_result {r : Report} (hr : store.result o w = .ok r) :
    ∃ ms p, store.listing w = .ok ms ∧ Plan.ofMigrations ms = .ok p := by
  obtain ⟨calls, -, hran⟩ := exists_calls store o w
  rw [hr] at hran
  generalize store.listing w = answer at hran
  cases hran with
  | planned hp _ => exact ⟨_, _, rfl, hp⟩

/-- A run without a plan, or a dry one, asks for the migrations only. -/
theorem journal_of_idle
    (h : (∀ ms p, store.listing w = .ok ms → Plan.ofMigrations ms ≠ .ok p) ∨ o.dryRun = true) :
    store.journal o w = [.list (store.listing w)] := by
  obtain ⟨calls, hjournal, hran⟩ := exists_calls store o w
  generalize hl : store.listing w = answer at hjournal hran ⊢
  generalize store.result o w = out at hran
  cases hran with
  | unlisted reason => exact hjournal
  | unplanned hp => exact hjournal
  | planned hp _ =>
    rcases h with hnone | hdry
    · exact absurd hp (hnone _ _ hl)
    · exact (run_of_dryRun hl hp hdry).2

/-- A call that fails is the last one of its run. -/
theorem nothing_after_failure {before after : List StoreCall} {c : StoreCall}
    (h : store.journal o w = before ++ c :: after) (hc : c.failed = true) : after = [] := by
  obtain ⟨calls, hjournal, hran⟩ := exists_calls store o w
  rw [hjournal] at h
  generalize store.listing w = answer at h hran
  generalize store.result o w = out at hran
  cases before with
  | nil =>
    obtain ⟨rfl, rfl⟩ := List.cons.inj h
    -- The listing is what has failed, so there is nothing behind it.
    cases hran with
    | unlisted reason => rfl
    | unplanned hp => rfl
    | planned hp hcarried => exact absurd hc (by simp [StoreCall.failed])
  | cons b before =>
    have hcalls : calls = before ++ c :: after := (List.cons.inj h).2
    cases hran with
    | unlisted reason => exact absurd hcalls (by simp)
    | unplanned hp => exact absurd hcalls (by simp)
    | planned hp hcarried => exact hcarried.nothing_after_failure before c after hcalls hc

/-! ### Safety -/

/-- A part of a list that lacks an element stands before every place of that element. -/
theorem prefix_of_append_eq {α : Type} {l₁ l₂ before after : List α} {a : α}
    (h : l₁ ++ l₂ = before ++ a :: after) (ha : a ∉ l₁) : l₁ <+: before := by
  rcases List.append_eq_append_iff.1 h with ⟨c, rfl, -⟩ | ⟨c, rfl, hc⟩
  · exact List.prefix_append l₁ c
  · cases c with
    | nil => simp
    | cons b c =>
      obtain ⟨rfl, -⟩ := List.cons.inj hc
      exact absurd (by simp) ha

/-- What the run of a store with a plan **does**, given the scripts of the plan. -/
structure Follows (store : Store (StateM σ)) (o : SquashOptions) (w : σ) (p : Plan)
    (scripts : List Script) : Prop where
  /-- The effects that happen are the first ones of the sequence of the plan. -/
  ordered : effectsOf (store.journal o w) <+: p.sequence o scripts
  /-- Before a migration is taken out of the way, all scripts and the snapshot are written. -/
  archives_last : ∀ before name a after,
    store.journal o w = before ++ .effect (.archive name) a :: after →
      scripts.map Effect.write ++ (o.snapshot.map fun path => .save path p.schema.snapshot).toList <+:
        effectsOf before
  /-- A run that is not a dry one and gives a result has done everything and lists it. -/
  complete : o.dryRun = false → ∀ r, store.result o w = .ok r →
    effectsOf (store.journal o w) = p.sequence o scripts ∧
      r.written = placesOf (store.journal o w) ∧ r.written.length = scripts.length ∧
      r.archived = p.schemaSources
  /-- A run gives a result if no call fails. -/
  succeeds : (∀ c ∈ store.journal o w, c.failed = false) → ∃ r, store.result o w = .ok r
  /-- A result is about the plan and its scripts. -/
  reports : ∀ r, store.result o w = .ok r → r.plan = p ∧ r.scripts = scripts

theorem length_filter_isWrite_sequence (p : Plan) (o : SquashOptions) (scripts : List Script) :
    ((p.sequence o scripts).filter Effect.isWrite).length = scripts.length := by
  have hwrites : (scripts.map Effect.write).filter Effect.isWrite = scripts.map Effect.write :=
    List.filter_eq_self.2 (by simp [Effect.isWrite])
  have harchives : (p.schemaSources.map Effect.archive).filter Effect.isWrite = [] :=
    List.filter_eq_nil_iff.2 (by simp [Effect.isWrite])
  rw [Plan.sequence, List.filter_append, List.filter_append, hwrites, harchives]
  cases o.snapshot <;> simp [Effect.isWrite]

theorem filterMap_archived?_sequence (p : Plan) (o : SquashOptions) (scripts : List Script) :
    (p.sequence o scripts).filterMap Effect.archived? = p.schemaSources := by
  have hwrites : (scripts.map Effect.write).filterMap Effect.archived? = [] :=
    List.filterMap_eq_nil_iff.2 (by simp [Effect.archived?])
  have harchives : (p.schemaSources.map Effect.archive).filterMap Effect.archived? =
      p.schemaSources := by
    rw [List.filterMap_map]
    exact List.filterMap_some
  rw [Plan.sequence, List.filterMap_append, List.filterMap_append, hwrites, harchives]
  cases o.snapshot <;> simp [Effect.archived?]

/-- A run with a plan follows it. -/
theorem follows {ms : List Migration} {p : Plan} (h : store.listing w = .ok ms)
    (hp : Plan.ofMigrations ms = .ok p) : store.Follows o w p p.scripts := by
  obtain ⟨calls, hjournal, hcarried⟩ := run_of_plan (o := o) h hp
  have heffects : effectsOf (store.journal o w) = effectsOf calls := by
    rw [hjournal]
    rfl
  have hplaces : placesOf (store.journal o w) = placesOf calls := by
    rw [hjournal]
    rfl
  have hsub : p.effects o <+: p.sequence o p.scripts := by
    cases hdry : o.dryRun with
    | true => simp [Plan.effects, hdry]
    | false =>
      have heq := p.effects_eq_sequence hdry
      exact ⟨[], by rw [List.append_nil, heq]⟩
  refine ⟨?_, ?_, ?_, ?_, ?_⟩
  · rw [heffects]
    exact hcarried.effectsOf_prefix.trans hsub
  · intro before name a after hsplit
    rw [hjournal] at hsplit
    cases before with
    | nil => exact absurd hsplit (by simp)
    | cons b before =>
      obtain ⟨rfl, hcalls⟩ := List.cons.inj hsplit
      obtain ⟨rest, hrest⟩ := hcarried.before_call before _ a after hcalls
      obtain ⟨more, hmore⟩ := hsub
      rw [hrest, List.append_assoc] at hmore
      exact prefix_of_append_eq (by rw [← Plan.sequence, ← hmore]; rfl) (by simp)
  · intro hdry r hr
    rw [hr, p.effects_eq_sequence hdry] at hcarried
    obtain ⟨hall, -, -, hwritten, hlength, harchived⟩ := hcarried.report_eq
    rw [length_filter_isWrite_sequence] at hlength
    rw [filterMap_archived?_sequence] at harchived
    rw [heffects, hplaces]
    refine ⟨hall, by simpa using hwritten, ?_, by simpa using harchived⟩
    simpa [hwritten] using hlength
  · intro hok
    refine hcarried.exists_report fun c hc => hok c ?_
    rw [hjournal]
    exact List.mem_cons_of_mem _ hc
  · intro r hr
    rw [hr] at hcarried
    obtain ⟨-, hplan, hscripts, -⟩ := hcarried.report_eq
    exact ⟨hplan, hscripts⟩

/-- **Runs are safe**, for every store and whichever of its calls fail.

* The journal is that of the run: with it the run gives the same result and does the same to the
  store.
* After a call that fails there is no further call.
* If the listing fails, a source fails, the tables have no order, or the run is a dry one, the
  store is asked for nothing but its migrations.
* There is a plan exactly if no source fails and the tables have an order. It is for the tables that
  the replay leaves, in their creation order, and for the migrations whose replay was a schema
  operation. The run follows it: one script for each table in creation order, then the snapshot if
  there is one, then these migrations in their order.
* Without a plan there is no result.
* A dry run over the same migrations gives the plan and the scripts of a run that succeeds. -/
theorem safe (store : Store (StateM σ)) (o : SquashOptions) (w : σ) :
    (store.journaled.squash o (w, []) =
      (store.result o w, (store.squash o w).2, store.journal o w)) ∧
    (∀ before c after, store.journal o w = before ++ c :: after → c.failed = true → after = []) ∧
    ((∃ reason, store.listing w = .error reason) ∨
        (∃ ms, store.listing w = .ok ms ∧ ((∃ x ∈ Replay.results {} ms, ∃ f, x.2 = .error f) ∨
          ∃ f, (Replay.sources {} ms).1.schema.order = .error f)) ∨
        o.dryRun = true →
      store.journal o w = [.list (store.listing w)]) ∧
    (∀ ms, store.listing w = .ok ms →
      ((∃ p, Plan.ofMigrations ms = .ok p) ↔ (∀ x ∈ Replay.results {} ms, ∃ b, x.2 = .ok b) ∧
        ∃ order, (Replay.sources {} ms).1.schema.order = .ok order) ∧
      ∀ p, Plan.ofMigrations ms = .ok p →
        p.schema = (Replay.sources {} ms).1.schema ∧ p.schema.order = .ok p.order ∧
          p.schemaSources = (Replay.results {} ms).filterMap Replay.operationName? ∧
          ∃ scripts, p.Writes scripts ∧ store.Follows o w p scripts) ∧
    (∀ r, store.result o w = .ok r →
      ∃ ms p, store.listing w = .ok ms ∧ Plan.ofMigrations ms = .ok p) ∧
    (∀ (σ' : Type) (store' : Store (StateM σ')) (o' : SquashOptions) (w' : σ') (r : Report),
      o'.dryRun = true → store'.listing w' = store.listing w → store.result o w = .ok r →
        ∃ r', store'.result o' w' = .ok r' ∧ r'.plan = r.plan ∧ r'.scripts = r.scripts) := by
  refine ⟨squash_journaled store o w, fun _ _ _ => nothing_after_failure, fun hidle => ?_,
    fun ms hl => ⟨Plan.exists_ofMigrations_eq_ok_iff, fun p hp => ?_⟩,
    fun r => exists_plan_of_result, fun σ' store' o' w' r hdry hsame hr => ?_⟩
  · refine journal_of_idle ?_
    rw [← or_assoc] at hidle
    refine hidle.imp_left fun hfails ms p hl hp => ?_
    obtain ⟨hresults, order, horder⟩ := Plan.exists_ofMigrations_eq_ok_iff.1 ⟨p, hp⟩
    rcases hfails with ⟨reason, hreason⟩ | ⟨ms', hms, ⟨x, hx, f, hf⟩ | ⟨f, hf⟩⟩
    · rw [hl] at hreason
      exact absurd hreason (by simp)
    · obtain rfl : ms = ms' := Except.ok.inj (hl.symm.trans hms)
      obtain ⟨b, hb⟩ := hresults x hx
      rw [hf] at hb
      exact absurd hb (by simp)
    · obtain rfl : ms = ms' := Except.ok.inj (hl.symm.trans hms)
      rw [horder] at hf
      exact absurd hf (by simp)
  · obtain ⟨hschema, horder, hsources⟩ := Plan.ofMigrations_eq_ok hp
    exact ⟨hschema, horder, (Replay.sources_eq_ok hsources).2, p.scripts, Plan.writes_scripts hp,
      follows hl hp⟩
  · obtain ⟨ms, p, hl, hp⟩ := exists_plan_of_result hr
    obtain ⟨hplan, hscripts⟩ := (follows hl hp).reports r hr
    exact ⟨_, (run_of_dryRun (hsame.trans hl) hp hdry).1, hplan.symm, hscripts.symm⟩

/-! ### A table to write and a source to archive -/

/-- A migration that creates a table. -/
def notesMigration : Migration :=
  ⟨"a.php", "Schema::create('notes', function ($table) \x7b\n$table->id();\n\x7d);"⟩

/-- The table. -/
def notesTable : Table where
  name := "notes"
  columns := Dict.ofList [("id", { type := .builder .bigIncrements, name := "id" })]

/-- The plan for the migration. -/
def notesPlan : Plan where
  schema := ⟨Dict.ofList [("notes", notesTable)]⟩
  order := ["notes"]
  diagnostics := []
  schemaSources := ["a.php"]
  sourceCount := 1

/-- A store with this migration alone, which does whatever it is asked for. -/
def notesStore : Store (StateM Unit) where
  list := pure (.ok [notesMigration])
  write script := pure (.ok (script.table ++ ".php"))
  save _ _ := pure (.ok ())
  archive _ := pure (.ok ())

/-- A run over this store writes the script of the table and then archives the migration, and a dry
run gives the same plan and script without doing either. -/
theorem safe_notesStore :
    ∃ r script, notesStore.result {} () = .ok r ∧
      script = ⟨0, "notes", notesTable.scriptText⟩ ∧
      r.plan = notesPlan ∧ r.scripts = [script] ∧
      effectsOf (notesStore.journal {} ()) = [.write script, .archive "a.php"] ∧
      r.written = ["notes.php"] ∧ r.archived = ["a.php"] ∧
      ∃ r', notesStore.result { dryRun := true } () = .ok r' ∧ r'.plan = notesPlan ∧
        r'.scripts = [script] ∧
        notesStore.journal { dryRun := true } () = [.list (.ok [notesMigration])] := by
  have hplan : Plan.ofMigrations [notesMigration] = .ok notesPlan := by decide +kernel
  have hnone : ∀ c ∈ notesStore.journal {} (), c.failed = false := by decide +kernel
  have hplaces : placesOf (notesStore.journal {} ()) = ["notes.php"] := by decide +kernel
  obtain ⟨-, -, -, hplanned, -, hdry⟩ := safe notesStore {} ()
  obtain ⟨-, -, -, scripts, hwrites, hfollows⟩ := (hplanned [notesMigration] rfl).2 notesPlan hplan
  obtain ⟨r, hr⟩ := hfollows.succeeds hnone
  obtain ⟨heffects, hwritten, -, harchived⟩ := hfollows.complete rfl r hr
  obtain ⟨hrplan, hrscripts⟩ := hfollows.reports r hr
  -- The one script is that of the table.
  obtain ⟨script, rfl, htable⟩ := List.map_eq_singleton_iff.1 hwrites.tables
  have hindex : script.index = 0 := List.singleton_inj.1 hwrites.indices
  have hcontent : script.content = notesTable.scriptText := by
    obtain ⟨t, ht, hcontent⟩ := hwrites.contents script List.mem_cons_self
    rw [htable] at ht
    obtain rfl : notesTable = t := Option.some.inj ht
    exact hcontent
  obtain rfl : script = ⟨0, "notes", notesTable.scriptText⟩ := by
    rw [← hindex, ← htable, ← hcontent]
  obtain ⟨r', hr', hplan', hscripts'⟩ := hdry Unit notesStore { dryRun := true } () r rfl rfl hr
  obtain ⟨-, -, hidle, -⟩ := safe notesStore { dryRun := true } ()
  exact ⟨r, _, hr, rfl, hrplan, hrscripts, heffects, hwritten.trans hplaces, harchived, r', hr',
    hplan'.trans hrplan, hscripts'.trans hrscripts, hidle (Or.inr (Or.inr rfl))⟩

end Store

end SchemaHistory

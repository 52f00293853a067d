import SchemaHistory.Squash

/-!
# Journals of stores

What a run does to the world is what it asks of its store. To speak about it, any store is made to
keep a **journal** beside its own state: every call with the answer that it got, in order
(`SchemaHistory.Store.journaled`). The store itself may be anything that works on a state, so each
of its calls may fail at any moment, depending on all that has happened before.

Carrying out effects has a description of its own (`SchemaHistory.Carried`), in three rules: nothing
is left to do, the next effect succeeds, or it fails and is the last one that is tried. A run with
a journal follows these rules (`SchemaHistory.Store.performAll_journaled`), and everything that is
said about journals is an induction on them.
-/

namespace SchemaHistory

/-- A **call** of a store, with the answer that it got. -/
inductive StoreCall
  /-- The migrations were asked for. -/
  | list (answer : Except String (List Migration))
  /-- An effect was asked for. The answer for a script says where it went. -/
  | effect (e : Effect) (answer : Except String (Option String))

namespace StoreCall

/-- Whether the store could not do what it was asked for. -/
def failed : StoreCall → Bool
  | list (.error _) | effect _ (.error _) => true
  | _ => false

/-- The **effect** that has happened by the call, if one has. -/
def effect? : StoreCall → Option Effect
  | effect e (.ok _) => some e
  | _ => none

/-- The place where the call has put a script, if it has. -/
def place? : StoreCall → Option String
  | effect _ (.ok place) => place
  | _ => none

end StoreCall

/-- The **effects** that have happened according to a journal. -/
def effectsOf (calls : List StoreCall) : List Effect :=
  calls.filterMap StoreCall.effect?

/-- The places of scripts that a journal knows. -/
def placesOf (calls : List StoreCall) : List String :=
  calls.filterMap StoreCall.place?

@[simp] theorem effectsOf_cons_ok (e : Effect) (place : Option String) (calls : List StoreCall) :
    effectsOf (.effect e (.ok place) :: calls) = e :: effectsOf calls := rfl

@[simp] theorem placesOf_cons_ok (e : Effect) (place : Option String) (calls : List StoreCall) :
    placesOf (.effect e (.ok place) :: calls) = place.toList ++ placesOf calls := by
  cases place <;> rfl

/-- A call of a store that is entered in a journal. -/
def entered {σ α : Type} (call : StateM σ (Except String α)) (entry : Except String α → StoreCall) :
    StateM (σ × List StoreCall) (Except String α) := fun s =>
  let r := call s.1
  (r.1, r.2, s.2 ++ [entry r.1])

/-- The store with a **journal**. -/
def Store.journaled {σ : Type} (store : Store (StateM σ)) :
    Store (StateM (σ × List StoreCall)) where
  list := entered store.list .list
  write script := entered (store.write script) fun a => .effect (.write script) (a.map some)
  save path text :=
    entered (store.save path text) fun a => .effect (.save path text) (a.map fun _ => none)
  archive name := entered (store.archive name) fun a => .effect (.archive name) (a.map fun _ => none)

/-! ### Carrying out effects -/

/-- Whether an effect writes a script. -/
def Effect.isWrite : Effect → Bool
  | write _ => true
  | _ => false

/-- The migration that an effect archives, if it does. -/
def Effect.archived? : Effect → Option String
  | archive name => some name
  | _ => none

/-- The report after an effect has succeeded. -/
def Report.enter (r : Report) (e : Effect) (place : Option String) : Report :=
  { r with
    written := r.written ++ place.toList
    archived := r.archived ++ e.archived?.toList }

/-- **Carrying out** effects: the report before, the effects, the calls, and the result. -/
inductive Carried : Report → List Effect → List StoreCall → Except Failure Report → Prop
  /-- Nothing is left to do. -/
  | done (r : Report) : Carried r [] [] (.ok r)
  /-- The next effect succeeds, and a place is known if it has written a script. -/
  | step {r : Report} {e : Effect} {place : Option String} {es : List Effect}
    {calls : List StoreCall} {out : Except Failure Report} (hplace : place.isSome = e.isWrite)
    (h : Carried (r.enter e place) es calls out) :
    Carried r (e :: es) (.effect e (.ok place) :: calls) out
  /-- The next effect fails, and nothing is tried behind it. -/
  | fail (r : Report) (e : Effect) (es : List Effect) (reason : String) :
    Carried r (e :: es) [.effect e (.error reason)] (.error (.io reason))

section Journaled

variable {σ : Type} (store : Store (StateM σ))

/-- What a computation returns leaves the state as it is. -/
theorem StateM.pure_apply {α : Type} (a : α) (w : σ) : (pure a : StateM σ α) w = (a, w) :=
  rfl

/-- One effect with a journal: the store is asked once, and the answer is entered. -/
theorem Store.perform_journaled (r : Report) (e : Effect) (w : σ) (j : List StoreCall) :
    ∃ answer, store.journaled.perform r e (w, j) =
        ((store.perform r e w).1, ((store.perform r e w).2, j ++ [.effect e answer])) ∧
      ((∃ place, answer = .ok place ∧ place.isSome = e.isWrite ∧
        (store.perform r e w).1 = .ok (r.enter e place)) ∨
      ∃ reason, answer = .error reason ∧ (store.perform r e w).1 = .error (.io reason)) := by
  cases e with
  | write script =>
    refine ⟨(store.write script w).1.map some, ?_⟩
    rcases h : store.write script w with ⟨_ | path, w'⟩ <;>
      simp [perform, journaled, entered, bind, StateT.bind, StateM.pure_apply, h, Except.map,
        Report.enter, Effect.archived?, Effect.isWrite]
  | save path text =>
    refine ⟨(store.save path text w).1.map fun _ => none, ?_⟩
    rcases h : store.save path text w with ⟨_ | _, w'⟩ <;>
      simp [perform, journaled, entered, bind, StateT.bind, StateM.pure_apply, h, Except.map,
        Report.enter, Effect.archived?, Effect.isWrite]
  | archive name =>
    refine ⟨(store.archive name w).1.map fun _ => none, ?_⟩
    rcases h : store.archive name w with ⟨_ | _, w'⟩ <;>
      simp [perform, journaled, entered, bind, StateT.bind, StateM.pure_apply, h, Except.map,
        Report.enter, Effect.archived?, Effect.isWrite]

/-- **A run with a journal** does to the store what the run does, gives the same result, and enters
calls that carry out the effects. -/
theorem Store.performAll_journaled (r : Report) (es : List Effect) (w : σ) (j : List StoreCall) :
    ∃ calls, store.journaled.performAll r es (w, j) =
        ((store.performAll r es w).1, ((store.performAll r es w).2, j ++ calls)) ∧
      Carried r es calls (store.performAll r es w).1 := by
  induction es generalizing r w j with
  | nil => exact ⟨[], by simp [performAll, StateM.pure_apply], .done r⟩
  | cons e rest ih =>
    obtain ⟨answer, hrun, hanswer⟩ := store.perform_journaled r e w j
    rcases hp : store.perform r e w with ⟨out, w'⟩
    rw [hp] at hrun hanswer
    rcases hanswer with ⟨place, rfl, hplace, rfl⟩ | ⟨reason, rfl, rfl⟩
    · obtain ⟨calls, hrest, hcarried⟩ := ih (r.enter e place) w' (j ++ [.effect e (.ok place)])
      refine ⟨.effect e (.ok place) :: calls, ?_, ?_⟩
      · simpa [performAll, bind, StateT.bind, hrun, hp] using hrest
      · simpa [performAll, bind, StateT.bind, hp] using Carried.step hplace hcarried
    · refine ⟨[.effect e (.error reason)], ?_, ?_⟩
      · simp [performAll, bind, StateT.bind, StateM.pure_apply, hrun, hp]
      · simpa [performAll, bind, StateT.bind, StateM.pure_apply, hp] using
          Carried.fail r e rest reason

end Journaled

/-! ### What journals say -/

namespace Carried

variable {r : Report} {es : List Effect} {calls : List StoreCall} {out : Except Failure Report}

/-- The effects that have happened are the first ones of those that were to happen. -/
theorem effectsOf_prefix (h : Carried r es calls out) : effectsOf calls <+: es := by
  induction h with
  | done r => exact List.prefix_refl _
  | step _ _ ih => exact (List.prefix_cons_inj _).2 ih
  | fail r e es reason => exact List.nil_prefix

/-- A call that fails is the last one. -/
theorem nothing_after_failure (h : Carried r es calls out) :
    ∀ before c after, calls = before ++ c :: after → c.failed = true → after = [] := by
  induction h with
  | done r => intro before c after hsplit; simp at hsplit
  | step _ _ ih =>
    intro before c after hsplit hc
    cases before with
    | nil =>
      obtain ⟨rfl, rfl⟩ := List.cons.inj hsplit
      exact absurd hc (by simp [StoreCall.failed])
    | cons b before => exact ih before c after (List.cons.inj hsplit).2 hc
  | fail r e es reason =>
    intro before c after hsplit _
    cases before with
    | nil => exact (List.cons.inj hsplit).2.symm
    | cons b before => simpa using (List.cons.inj hsplit).2

/-- Whatever is tried, all the effects before it have happened. -/
theorem before_call (h : Carried r es calls out) :
    ∀ before e a after, calls = before ++ .effect e a :: after →
      ∃ rest, es = effectsOf before ++ e :: rest := by
  induction h with
  | done r => intro before e a after hsplit; simp at hsplit
  | @step r e' place es calls out _ _ ih =>
    intro before e a after hsplit
    cases before with
    | nil =>
      obtain ⟨hcall, -⟩ := List.cons.inj hsplit
      obtain ⟨rfl, -⟩ := StoreCall.effect.inj hcall
      exact ⟨es, rfl⟩
    | cons b before =>
      obtain ⟨rfl, hrest⟩ := List.cons.inj hsplit
      obtain ⟨rest, rfl⟩ := ih before e a after hrest
      exact ⟨rest, rfl⟩
  | fail r e' es reason =>
    intro before e a after hsplit
    cases before with
    | nil =>
      obtain ⟨hcall, -⟩ := List.cons.inj hsplit
      obtain ⟨rfl, -⟩ := StoreCall.effect.inj hcall
      exact ⟨es, rfl⟩
    | cons b before => simp at hsplit

/-- Without a call that fails there is a result. -/
theorem exists_report (h : Carried r es calls out) (hok : ∀ c ∈ calls, c.failed = false) :
    ∃ r', out = .ok r' := by
  induction h with
  | done r => exact ⟨r, rfl⟩
  | step _ _ ih => exact ih fun c hc => hok c (List.mem_cons_of_mem _ hc)
  | fail r e es reason => exact absurd (hok _ (List.mem_singleton.2 rfl)) (by simp [StoreCall.failed])

/-- A result lists what has happened, and that is everything. -/
theorem report_eq {r' : Report} (h : Carried r es calls (.ok r')) :
    effectsOf calls = es ∧ r'.plan = r.plan ∧ r'.scripts = r.scripts ∧
      r'.written = r.written ++ placesOf calls ∧
      (placesOf calls).length = (es.filter Effect.isWrite).length ∧
      r'.archived = r.archived ++ es.filterMap Effect.archived? := by
  generalize hout : (Except.ok r' : Except Failure Report) = out at h
  induction h with
  | done r =>
    obtain rfl := Except.ok.inj hout
    simp [effectsOf, placesOf]
  | @step r e place es calls out hplace _ ih =>
    obtain ⟨heffects, hplan, hscripts, hwritten, hlength, harchived⟩ := ih hout
    refine ⟨by rw [effectsOf_cons_ok, heffects], hplan, hscripts, ?_, ?_, ?_⟩
    · rw [hwritten, placesOf_cons_ok, ← List.append_assoc]
      rfl
    · rw [placesOf_cons_ok, List.length_append, hlength, List.filter_cons]
      cases place <;> cases he : e.isWrite <;> simp_all [Nat.add_comm]
    · rw [harchived, List.filterMap_cons]
      cases e <;> simp [Report.enter, Effect.archived?]
  | fail => exact absurd hout (by simp)

end Carried

end SchemaHistory

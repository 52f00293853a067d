import SchemaHistory.Proofs.Replays

/-!
# The states of a replay

A replay is watched between any two of its lines. A **visit** is a line together with the state in
which it is read, and the visits of a source (`SchemaHistory.Replay.visitsOf`) are the lines that
its replay comes to: those up to the first one that ends the source or the run.

A state is **reachable** (`SchemaHistory.Replay.Reachable`) if some sequence of sources leads to it
from a fresh replay, whether it stands at the beginning of a source, behind one of its lines, or
where a failure has left it. What one statement keeps holds in every reachable state
(`SchemaHistory.Replay.Reachable.induction`).
-/

namespace SchemaHistory

/-- A **visit** of a replay to a logical line. -/
structure Visit where
  /-- The state in which the line is read. -/
  before : Replay
  text : String
  location : Location

/-- Only the head of the reverse direction is recognised as one. -/
theorem Statement.opensDown_of_recognize {line : List Char} {inTable : Bool} {l : Location}
    (h : recognize line inTable l = .ok (some downBoundary)) : opensDown line = true := by
  have hdirective : ∀ verb call, tableDirective verb call l ≠ .ok downBoundary := by
    intro verb call
    rw [tableDirective]
    split <;> simp
  have hschema : ∀ chain, ofSchemaChain chain l ≠ .ok downBoundary := by
    intro chain
    rw [ofSchemaChain]
    split
    · unfold ofDirectiveCall
      split
      · split <;> simp
      · exact hdirective _ _
      · exact hdirective _ _
      · exact hdirective _ _
      · exact hdirective _ _
      · simp
    · simp
  rw [recognize] at h
  split at h
  · assumption
  split at h
  · exact absurd h (by simp)
  split at h
  · exact absurd h (by simp)
  split at h
  · rename_i chain _
    obtain ⟨s, hs, hsome⟩ := exists_of_map_eq_ok h
    obtain rfl := Option.some.inj hsome
    exact absurd hs (hschema chain)
  · split at h
    · obtain ⟨c, -, hc⟩ := Option.map_eq_some_iff.1 (Except.ok.inj h)
      cases c <;> exact absurd hc (by simp [ofChained])
    · exact absurd h (by simp)

/-- The state behind the line of a visit. -/
def Visit.after (v : Visit) : Replay :=
  (v.before.line v.text v.location).1

namespace Replay

/-- The **visits** to the lines of a source, the first of which has the number `n`. Behind a line
that ends the source or the run there are none. -/
def visits (source : String) (n : Nat) (r : Replay) : List String → List Visit
  | [] => []
  | text :: rest =>
    ⟨r, text, ⟨source, n⟩⟩ ::
      match r.line text ⟨source, n⟩ with
      | (r', .proceed _) => visits source (n + 1) r' rest
      | _ => []

/-- The visits to the lines of a source. -/
def visitsOf (r : Replay) (m : Migration) : List Visit :=
  visits m.name 1 { r with current := none } (Source.normalize m.text)

/-- The visits to the lines of sources that are replayed until one fails. -/
def visitsOfSources (r : Replay) : List Migration → List Visit
  | [] => []
  | m :: rest =>
    r.visitsOf m ++
      match r.source m with
      | (r', .ok _) => r'.visitsOfSources rest
      | (_, .error _) => []

/-- The state **behind** lines through which the replay goes on; nothing if one of them ends the
source or the run. -/
def through? (source : String) (n : Nat) (r : Replay) : List String → Option Replay
  | [] => some r
  | text :: rest =>
    match r.line text ⟨source, n⟩ with
    | (r', .proceed _) => through? source (n + 1) r' rest
    | _ => none

variable {r : Replay} {source : String} {n : Nat}

/-! ### Lines one after the other -/

theorem through?_append (a b : List String) :
    through? source n r (a ++ b) =
      (through? source n r a).bind fun r' => through? source (n + a.length) r' b := by
  induction a generalizing n r with
  | nil => rfl
  | cons text rest ih =>
    rw [List.cons_append, through?, through?]
    split
    · rw [ih, List.length_cons, Nat.add_right_comm, Nat.add_assoc]
    · rfl

/-- Behind lines through which the replay goes on, the visits go on. -/
theorem visits_append {r' : Replay} {a : List String} (h : through? source n r a = some r')
    (b : List String) :
    visits source n r (a ++ b) = visits source n r a ++ visits source (n + a.length) r' b := by
  induction a generalizing n r with
  | nil =>
    obtain rfl := Option.some.inj h
    rfl
  | cons text rest ih =>
    rw [through?] at h
    split at h
    · rename_i r₁ op heq
      simp only [List.cons_append, visits, heq]
      rw [ih h, List.length_cons, Nat.add_right_comm, Nat.add_assoc]
    · exact absurd h (by simp)

/-- Behind lines through which the replay goes on, its answer is that of the lines that follow. -/
theorem exists_lines_append {r' : Replay} {a : List String} (h : through? source n r a = some r') :
    ∃ op, ∀ operation b,
      lines source n operation r (a ++ b) =
        lines source (n + a.length) (operation || op) r' b := by
  induction a generalizing n r with
  | nil =>
    obtain rfl := Option.some.inj h
    exact ⟨false, fun operation b => by rw [Bool.or_false]; rfl⟩
  | cons text rest ih =>
    rw [through?] at h
    split at h
    · rename_i r₁ op heq
      obtain ⟨op', hop'⟩ := ih h
      refine ⟨op || op', fun operation b => ?_⟩
      rw [List.cons_append, lines, heq, List.length_cons, ← Nat.add_assoc, Nat.add_right_comm,
        ← Bool.or_assoc]
      exact hop' _ b
    · exact absurd h (by simp)

/-- A property that every line keeps holds behind lines through which the replay goes on. -/
theorem through?_induction {P : Replay → Prop} {texts : List String}
    (hline : ∀ r text l, text ∈ texts → P r → P (r.line text l).1) {r' : Replay}
    (hthrough : through? source n r texts = some r') (h : P r) : P r' := by
  induction texts generalizing n r with
  | nil => exact Option.some.inj hthrough ▸ h
  | cons text rest ih =>
    have hfirst := hline r text ⟨source, n⟩ List.mem_cons_self h
    rw [through?] at hthrough
    split at hthrough
    · rename_i r₁ op heq
      rw [heq] at hfirst
      exact ih (fun r t l ht => hline r t l (List.mem_cons_of_mem text ht)) hthrough hfirst
    · exact absurd hthrough (by simp)

/-- A line ends its source only if the reverse direction begins on it. -/
theorem line_ne_stop {text : String} (h : Statement.opensDown text.toList = false) (r : Replay)
    (l : Location) : (r.line text l).2 ≠ .stop := by
  rw [line]
  split
  · simp
  · simp
  · rename_i s hs
    cases s with
    | downBoundary =>
      rw [Statement.opensDown_of_recognize hs] at h
      exact absurd h (by simp)
    | calls chain =>
      rw [step]
      split <;> simp
    | _ => simp [step]

/-- Lines of which none ends the source are gone through, or one of them fails. -/
theorem through?_or_fails {texts : List String}
    (hstop : ∀ r text l, text ∈ texts → (line r text l).2 ≠ .stop) (source : String) (n : Nat)
    (r : Replay) :
    (∃ r', through? source n r texts = some r') ∨
      ∀ operation rest, ∃ f, (lines source n operation r (texts ++ rest)).2 = .error f := by
  -- The lines are followed up to the first one that does not go on, which must be a failure.
  induction texts generalizing n r with
  | nil => exact Or.inl ⟨r, rfl⟩
  | cons text rest ih =>
    have hrest := fun r t l ht => hstop r t l (List.mem_cons_of_mem text ht)
    rcases hline : r.line text ⟨source, n⟩ with ⟨r₁, op | _ | f⟩
    · rcases ih hrest (n + 1) r₁ with ⟨r', hr'⟩ | hfails
      · exact Or.inl ⟨r', by rw [through?, hline]; exact hr'⟩
      · refine Or.inr fun operation more => ?_
        rw [List.cons_append, lines, hline]
        exact hfails _ more
    · have hne := hstop r text ⟨source, n⟩ List.mem_cons_self
      rw [hline] at hne
      exact absurd rfl hne
    · refine Or.inr fun operation more => ⟨f, ?_⟩
      rw [List.cons_append, lines, hline]

/-! ### The state that is left -/

section Left

variable {P : Replay → Prop}

/-- What lines leave is the state behind the last one of them. -/
theorem lines_of_visits {texts : List String} (operation : Bool) (h : P r)
    (hvisits : ∀ v ∈ visits source n r texts, P v.after) :
    P (lines source n operation r texts).1 := by
  -- Without lines it is the state `r` itself, so that is asked to have the property as well.
  induction texts generalizing n r operation with
  | nil => exact h
  | cons text rest ih =>
    obtain ⟨hfirst, hrest⟩ := List.forall_mem_cons.1 hvisits
    rw [Visit.after] at hfirst
    rw [lines]
    split <;> rename_i heq <;> rw [heq] at hfirst
    · exact hfirst
    · exact hfirst
    · rw [heq] at hrest
      exact ih _ hfirst hrest

theorem source_of_visitsOf (m : Migration) (h : P r)
    (hclose : ∀ r, P r → P { r with current := none })
    (hvisits : ∀ v ∈ r.visitsOf m, P v.after) : P (r.source m).1 := by
  have hlines := lines_of_visits false (hclose r h) hvisits
  rw [Replay.source]
  split <;> rename_i heq <;> rw [heq] at hlines
  · exact hclose _ hlines
  · exact hlines

/-- What sources leave has a property that every state behind a line has. -/
theorem sources_of_visitsOfSources (ms : List Migration) (h : P r)
    (hclose : ∀ r, P r → P { r with current := none })
    (hvisits : ∀ v ∈ r.visitsOfSources ms, P v.after) : P (r.sources ms).1 := by
  induction ms generalizing r with
  | nil => exact h
  | cons m rest ih =>
    obtain ⟨hfirst, hrest⟩ := List.forall_mem_append.1 hvisits
    have hsource := source_of_visitsOf m h hclose hfirst
    rw [sources]
    split <;> rename_i heq <;> rw [heq] at hsource
    · exact hsource
    · rw [heq] at hrest
      have hall := ih hsource hrest
      split <;> rename_i heq' <;> rw [heq'] at hall
      · exact hall
      · exact hall

end Left

/-! ### Invariants -/

section Invariants

variable {P : Replay → Prop} (hstep : ∀ r s l, s.Occurs → P r → P (r.step s l).1)
include hstep

theorem visits_induction {text : String} {texts : List String}
    (htexts : ∀ t ∈ texts, t ∈ Source.normalize text) (h : P r) :
    ∀ v ∈ visits source n r texts, P v.before ∧ P v.after := by
  induction texts generalizing n r with
  | nil => simp [visits]
  | cons t rest ih =>
    have hline := line_induction hstep (htexts t List.mem_cons_self) ⟨source, n⟩ h
    rw [visits]
    refine List.forall_mem_cons.2 ⟨⟨h, hline⟩, ?_⟩
    split
    · rename_i r' op heq
      rw [heq] at hline
      exact ih (fun u hu => htexts u (List.mem_cons_of_mem t hu)) hline
    · simp

variable (hclose : ∀ r, P r → P { r with current := none })
include hclose

theorem visitsOf_induction (m : Migration) (h : P r) :
    ∀ v ∈ r.visitsOf m, P v.before ∧ P v.after :=
  visits_induction hstep (fun _ => id) (hclose r h)

end Invariants

/-! ### Reachable states -/

/-- The states that a replay can **reach** from a fresh one, with any sources. A failure does not
keep the replay from being given another source. -/
inductive Reachable : Replay → Prop
  /-- Nothing has been replayed. -/
  | fresh : Reachable {}
  /-- A source begins. -/
  | entered {r : Replay} (h : Reachable r) : Reachable { r with current := none }
  /-- A line of a source was replayed. -/
  | visited {r : Replay} (h : Reachable r) (m : Migration) {v : Visit} (hv : v ∈ r.visitsOf m) :
    Reachable v.after
  /-- A source has ended, or has failed. -/
  | left {r : Replay} (h : Reachable r) (m : Migration) : Reachable (r.source m).1

namespace Reachable

/-- **What one statement keeps holds in every reachable state.** It has to survive the end of a
block as well, since no block is open before and after a source. -/
theorem induction {P : Replay → Prop} (hfresh : P {})
    (hclose : ∀ r, P r → P { r with current := none })
    (hstep : ∀ r s l, s.Occurs → P r → P (r.step s l).1) (h : r.Reachable) : P r := by
  induction h with
  | fresh => exact hfresh
  | entered _ ih => exact hclose _ ih
  | visited _ m hv ih => exact (visitsOf_induction hstep hclose m ih _ hv).2
  | left _ m ih => exact source_induction hstep hclose m ih

/-- What a list of sources leaves is reachable. -/
theorem sources (h : r.Reachable) (ms : List Migration) : (r.sources ms).1.Reachable := by
  induction ms generalizing r with
  | nil => exact h
  | cons m rest ih =>
    have hsource := h.left m
    rw [Replay.sources]
    split <;> rename_i heq <;> rw [heq] at hsource
    · exact hsource
    · have hrest := ih hsource
      split <;> rename_i heq' <;> rw [heq'] at hrest
      · exact hrest
      · exact hrest

end Reachable

end Replay

end SchemaHistory

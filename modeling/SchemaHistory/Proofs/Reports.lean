import Mathlib.Control.Monad.Basic
import SchemaHistory.Proofs.Calls
import SchemaHistory.Proofs.Locations

/-!
# What a replay reports

The failures that a replay meets are of two kinds. Some are **reports** on a statement
(`SchemaHistory.Failure.ReportsOn`): they are recoverable, and the replay goes on. The others end
the run at a statement (`SchemaHistory.Failure.EndsAt`). No branch of a statement mixes them up, none
reports twice, and none reports before it fails; so a line **records** nothing, one report or one
failure (`SchemaHistory.Replay.Records`).

The lines of a source are numbered from one, so what it reports is a log with increasing line
numbers, and a failure has a greater one (`SchemaHistory.Replay.source_log`). This is true of
every state and every text.
-/

namespace SchemaHistory

variable {l : Location}

/-! ### Two kinds of failures -/

namespace Failure

/-- A failure **reports on** the statement at a location: the replay goes on. -/
structure ReportsOn (f : Failure) (l : Location) : Prop where
  recoverable : f.isRecoverable = true
  location : f.location? = some l

/-- A failure **ends** a run **at** a location. -/
structure EndsAt (f : Failure) (l : Location) : Prop where
  fatal : f.isRecoverable = false
  location : f.location? = some l

variable {f : Failure}

theorem isSome_location? (hf : f.isRecoverable = true) : f.location?.isSome = true := by
  cases f <;> first | rfl | exact absurd hf (by simp [isRecoverable])

/-- A recoverable failure that is not moved to a location stands there already. -/
theorem reportsOn_of_moveTo (hf : f.isRecoverable = true) (h : f.moveTo l = f) :
    f.ReportsOn l where
  recoverable := hf
  location := by
    obtain ⟨k, hk⟩ := Option.isSome_iff_exists.1 (isSome_location? hf)
    rw [← h, location?_moveTo, hk]
    rfl

theorem endsAt_malformed (reason : Malformation) : (malformedStatement reason l).EndsAt l :=
  ⟨rfl, rfl⟩

theorem endsAt_unrecognized (call : String) : (unrecognizedCall call l).EndsAt l :=
  ⟨rfl, rfl⟩

end Failure

/-- A computation **fails at** a location only: a failure of it would end the run there. -/
def FailsAt {α : Type} (l : Location) (x : Except Failure α) : Prop :=
  ∀ f, x = .error f → f.EndsAt l

theorem failsAt_ok {α : Type} (a : α) : FailsAt l (.ok a) := by
  intro f h
  exact absurd h (by simp)

theorem failsAt_error {α : Type} {f : Failure} (hf : f.EndsAt l) :
    FailsAt l (.error f : Except Failure α) := by
  intro g h
  obtain rfl := Except.error.inj h
  exact hf

theorem FailsAt.map {α β : Type} {x : Except Failure α} (h : FailsAt l x) (g : α → β) :
    FailsAt l (x.map g) := by
  cases x with
  | ok a => exact failsAt_ok (g a)
  | error f => exact failsAt_error (h f rfl)

/-- What one statement **remarks**: nothing, or one report on it. -/
inductive Remark (l : Location) : List Failure → Prop
  | silent : Remark l []
  | report {f : Failure} (hf : f.ReportsOn l) : Remark l [f]

/-! ### Calls and raw alterations -/

theorem Column.failsAt_ofChain (type : ColumnType) (chain : Chain) :
    FailsAt l (ofChain type chain l) := by
  rw [ofChain]
  split
  · exact failsAt_error (Failure.endsAt_malformed _)
  · refine FailsAt.map ?_ _
    rw [ofHead]
    split
    · exact failsAt_ok _
    · split
      · exact failsAt_ok _
      · exact failsAt_error (Failure.endsAt_malformed _)

theorem Relationship.failsAt_ofChain (chain : Chain) : FailsAt l (ofChain chain l) := by
  rw [ofChain]
  split
  · exact failsAt_ok _
  · exact failsAt_error (Failure.endsAt_malformed _)

namespace Table

variable (t : Table)

theorem failsAt_makeUnique (key : String) (head : Call) :
    FailsAt l (t.makeUnique key head l) := by
  rw [makeUnique]
  split
  · split <;> exact failsAt_ok _
  · exact failsAt_ok _

theorem failsAt_renameByCall (key : String) (head : Call) :
    FailsAt l (t.renameByCall key head l) := by
  rw [renameByCall]
  split
  · split <;> exact failsAt_ok _
  · exact failsAt_error (Failure.endsAt_malformed _)

theorem failsAt_applyBuilder (head : Call) (chain : Chain) :
    FailsAt l (t.applyBuilder head chain l) := by
  rw [applyBuilder]
  split
  · exact failsAt_ok _
  · split
    · exact (Column.failsAt_ofChain _ chain).map _
    · exact failsAt_error (Failure.endsAt_unrecognized _)

/-- **A call that fails ends the run**, at its own location. -/
theorem failsAt_apply (key : String) (head : Call) (chain : Chain) :
    FailsAt l (t.apply key head chain l) := by
  rw [apply]
  split
  case h_3 => exact failsAt_makeUnique t key head
  case h_4 => exact failsAt_renameByCall t key head
  case h_7 => exact (Relationship.failsAt_ofChain chain).map _
  case h_12 => exact failsAt_applyBuilder t head chain
  all_goals exact failsAt_ok _

variable {t}

/-- **A call that does not fail makes at most one remark.** -/
theorem remark_apply {key : String} {head : Call} {chain : Chain} {e : Table × List Failure}
    (h : t.apply key head chain l = .ok e) : Remark l e.2 := by
  have hmove := moveTo_apply l l t key head chain
  rw [h] at hmove
  cases answers_of_apply h with
  | report f hf =>
    -- The effect stays as it is when it is moved to its own location, and so does the report.
    have hf' : [f.moveTo l] = [f] := congrArg Prod.snd (Except.ok.inj hmove)
    exact .report (Failure.reportsOn_of_moveTo hf (List.singleton_inj.1 hf'))
  | define type e _ hdefine =>
    obtain ⟨c, -, hsilent, -⟩ := define_eq_ok hdefine
    rw [hsilent]
    exact .silent
  | _ => exact .silent

theorem remark_alter (a : Alteration) : Remark l (t.alter a l).2 := by
  simp only [alter]
  split
  · split
    · exact .silent
    · exact .report ⟨rfl, rfl⟩
  · split
    · exact .silent
    · exact .report ⟨rfl, rfl⟩

end Table

/-! ### Recognition -/

namespace Statement

theorem failsAt_tableDirective (verb : TableVerb) (call : Call) :
    FailsAt l (tableDirective verb call l) := by
  rw [tableDirective]
  split
  · exact failsAt_ok _
  · exact failsAt_error (Failure.endsAt_malformed _)

theorem failsAt_ofSchemaChain (chain : Chain) : FailsAt l (ofSchemaChain chain l) := by
  rw [ofSchemaChain]
  split
  · rw [ofDirectiveCall]
    split
    · split
      · exact failsAt_ok _
      · exact failsAt_error (Failure.endsAt_malformed _)
    · exact failsAt_tableDirective _ _
    · exact failsAt_tableDirective _ _
    · exact failsAt_tableDirective _ _
    · exact failsAt_tableDirective _ _
    · exact failsAt_ok _
  · exact failsAt_ok _

/-- **A line that cannot be recognised ends the run**, at its own location. -/
theorem failsAt_recognize (line : List Char) (inTable : Bool) :
    FailsAt l (recognize line inTable l) := by
  rw [recognize]
  split
  · exact failsAt_ok _
  split
  · exact failsAt_ok _
  split
  · exact failsAt_ok _
  split
  · exact (failsAt_ofSchemaChain _).map _
  · split <;> exact failsAt_ok _

end Statement

/-! ### Lines -/

namespace Replay

/-- What a line at a location **records**, given the state before it and the result: if the replay
goes on, at most one remark; if it does not, no report. -/
inductive Records (r : Replay) (l : Location) : Replay × Outcome → Prop
  | proceed {r' : Replay} {fs : List Failure} (b : Bool) (hfs : Remark l fs)
    (h : r'.diagnostics = r.diagnostics ++ fs) : Records r l (r', .proceed b)
  | stop {r' : Replay} (h : r'.diagnostics = r.diagnostics) : Records r l (r', .stop)
  | fail {r' : Replay} {f : Failure} (hf : f.EndsAt l) (h : r'.diagnostics = r.diagnostics) :
    Records r l (r', .fail f)

variable (r : Replay)

/-- A line that reports nothing. -/
theorem Records.silent {r r' : Replay} (b : Bool) (h : r'.diagnostics = r.diagnostics) :
    Records r l (r', .proceed b) :=
  .proceed b .silent (by rw [h, List.append_nil])

theorem records_alter (a : Alteration) : Records r l (r.alter a l, .proceed true) := by
  rw [alter]
  split
  · exact .proceed true (.report ⟨rfl, rfl⟩) rfl
  · exact .proceed true (Table.remark_alter a) rfl

theorem records_rename (old new : String) : Records r l (r.rename old new l, .proceed true) := by
  rw [rename]
  split
  · exact .proceed true (.report ⟨rfl, rfl⟩) rfl
  · refine .proceed true ?_ rfl
    split
    · exact .report ⟨rfl, rfl⟩
    · exact .silent

theorem records_calls (chain : Chain) : Records r l (r.step (.calls chain) l) := by
  rw [step, call]
  cases chain.head? with
  | none => exact .silent false rfl
  | some head =>
    cases r.current with
    | none => exact .silent false rfl
    | some name =>
      cases he : ((r.schema.openTable name).tableOrNew name).apply name head chain l with
      | ok e =>
        simp only [he]
        exact .proceed false (Table.remark_apply he) rfl
      | error f =>
        simp only [he]
        exact .fail (Table.failsAt_apply _ name head chain f he) rfl

/-- **A statement reports at most once**, and not at all if it fails. -/
theorem records_step (s : Statement) : Records r l (r.step s l) := by
  cases s with
  | downBoundary => exact .stop rfl
  | blockClose => exact .silent false rfl
  | query verb => exact .silent false rfl
  | alteration a => exact records_alter r a
  | renameTable old new => exact records_rename r old new
  | directive verb table => cases verb <;> exact .silent true rfl
  | assignment property value =>
    refine .silent false ?_
    rw [assign]
    split <;> rfl
  | calls chain => exact records_calls r chain

theorem records_line (text : String) : Records r l (r.line text l) := by
  rw [line]
  split
  · rename_i f hf
    exact .fail (Statement.failsAt_recognize _ _ f hf) rfl
  · exact .silent false rfl
  · exact records_step r _

end Replay

/-! ### Logs -/

/-- A failure **precedes** another one if the line it is about has a smaller number. -/
def Failure.Precedes (f g : Failure) : Prop :=
  ∃ k j : Location, f.location? = some k ∧ g.location? = some j ∧ k.line < j.line

/-- A **log** of the lines of a source that are numbered from `n` up to `m`: reports on these
lines, with strictly increasing numbers. -/
structure IsLog (source : String) (n m : Nat) (fs : List Failure) : Prop where
  reports : ∀ f ∈ fs, ∃ k, f.ReportsOn ⟨source, k⟩ ∧ n ≤ k ∧ k ≤ m
  increasing : fs.Pairwise Failure.Precedes

namespace IsLog

variable {source : String} {n m : Nat} {fs : List Failure}

theorem nil : IsLog source n m [] where
  reports := by simp
  increasing := .nil

/-- What a line remarks precedes what the lines behind it report. -/
theorem cons {new : List Failure} (hnew : Remark ⟨source, n⟩ new) (hn : n ≤ m)
    (h : IsLog source (n + 1) m fs) : IsLog source n m (new ++ fs) := by
  have hlater : ∀ g ∈ fs, ∃ k, g.ReportsOn ⟨source, k⟩ ∧ n ≤ k ∧ k ≤ m := by
    intro g hg
    obtain ⟨k, hk, hlow, hhigh⟩ := h.reports g hg
    exact ⟨k, hk, by omega, hhigh⟩
  cases hnew with
  | silent => exact ⟨hlater, h.increasing⟩
  | @report f hf =>
    refine ⟨List.forall_mem_cons.2 ⟨⟨n, hf, Nat.le_refl n, hn⟩, hlater⟩,
      List.pairwise_cons.2 ⟨fun g hg => ?_, h.increasing⟩⟩
    obtain ⟨k, hk, hlow, -⟩ := h.reports g hg
    exact ⟨_, _, hf.location, hk.location, hlow⟩

end IsLog

/-- A failure **closes** a log of lines that are numbered up to `m`: it ends the run at one of
them, behind all that was reported. -/
structure Closes (source : String) (n m : Nat) (fs : List Failure) (f : Failure) : Prop where
  ends : ∃ k, f.EndsAt ⟨source, k⟩ ∧ n ≤ k ∧ k ≤ m
  behind : ∀ g ∈ fs, g.Precedes f

theorem Closes.cons {source : String} {n m : Nat} {fs new : List Failure} {f : Failure}
    (hnew : Remark ⟨source, n⟩ new) (h : Closes source (n + 1) m fs f) :
    Closes source n m (new ++ fs) f := by
  obtain ⟨k, hk, hlow, hhigh⟩ := h.ends
  refine ⟨⟨k, hk, by omega, hhigh⟩, fun g hg => ?_⟩
  rcases List.mem_append.1 hg with hg | hg
  · cases hnew with
    | silent => exact absurd hg (by simp)
    | report hf =>
      obtain rfl := List.mem_singleton.1 hg
      exact ⟨_, _, hf.location, hk.location, hlow⟩
  · exact h.behind g hg

/-! ### Sources -/

namespace Replay

/-- Lines only add to what was reported before them. -/
theorem lines_log (source : String) (n : Nat) (operation : Bool) (r : Replay)
    (texts : List String) :
    ∃ fs, (lines source n operation r texts).1.diagnostics = r.diagnostics ++ fs ∧
      IsLog source n (n + texts.length - 1) fs ∧
      ∀ f, (lines source n operation r texts).2 = .error f →
        Closes source n (n + texts.length - 1) fs f := by
  -- The log is put together from its end, since the first line has the smallest number.
  induction texts generalizing n operation r with
  | nil => exact ⟨[], by simp [lines], .nil, by simp [lines]⟩
  | cons text rest ih =>
    have hline := records_line (l := ⟨source, n⟩) r text
    have hlength : n + (text :: rest).length - 1 = n + 1 + rest.length - 1 := by
      rw [List.length_cons]
      omega
    rw [lines, hlength]
    split <;> rename_i heq <;> rw [heq] at hline
    · rename_i f
      cases hline with
      | fail hf h =>
        refine ⟨[], by rw [h, List.append_nil], .nil, fun g hg => ?_⟩
        obtain rfl := Except.error.inj hg
        exact ⟨⟨n, hf, Nat.le_refl n, by omega⟩, by simp⟩
    · cases hline with
      | stop h => exact ⟨[], by rw [h, List.append_nil], .nil, by simp⟩
    · rename_i r' b
      cases hline with
      | @proceed _ new _ hnew h =>
        obtain ⟨fs, hfs, hlog, hfails⟩ := ih (n + 1) (operation || b) r'
        exact ⟨new ++ fs, by rw [hfs, h, List.append_assoc], hlog.cons hnew (by omega),
          fun f hf => (hfails f hf).cons hnew⟩

/-- **What a source reports is a log of its lines.** Whatever the state and the text are, the
replay of a source only adds to what was reported: recoverable failures that name the source and
lines of it, with strictly increasing numbers. If it fails, the failure ends the run at a line of
the source behind all of these. -/
theorem source_log (r : Replay) (m : Migration) :
    ∃ fs, (r.source m).1.diagnostics = r.diagnostics ++ fs ∧
      IsLog m.name 1 (Source.normalize m.text).length fs ∧
      ∀ f, (r.source m).2 = .error f → Closes m.name 1 (Source.normalize m.text).length fs f := by
  obtain ⟨fs, hfs, hlog, hfails⟩ :=
    lines_log m.name 1 false { r with current := none } (Source.normalize m.text)
  rw [Nat.add_sub_cancel_left] at hlog hfails
  refine ⟨fs, ?_, hlog, ?_⟩
  · rw [source]
    split <;> rename_i heq <;> rw [heq] at hfs <;> exact hfs
  · intro f hf
    rw [source] at hf
    split at hf <;> rename_i heq <;> rw [heq] at hfails
    · exact absurd hf (by simp)
    · exact hfails f hf

/-- A source that asks for a missing table and an index, and then fails. -/
def indexedRoles : Migration :=
  ⟨"a.php", "Schema::rename('a', 'b');\nSchema::create('roles', function ($table) \x7b\n" ++
    "$table->index('name');\n$table->nothing();\n\x7d);"⟩

/-- The log of it: two reports, and a failure behind them. -/
theorem source_log_roles :
    (({} : Replay).source indexedRoles).2 = .error (.unrecognizedCall "nothing" ⟨"a.php", 4⟩) ∧
      IsLog "a.php" 1 6 [.unknownTable "a" ⟨"a.php", 1⟩,
        .unsupportedOperation "index" "roles" ⟨"a.php", 3⟩] ∧
      Closes "a.php" 1 6 [.unknownTable "a" ⟨"a.php", 1⟩,
        .unsupportedOperation "index" "roles" ⟨"a.php", 3⟩]
        (.unrecognizedCall "nothing" ⟨"a.php", 4⟩) := by
  have hfails : (({} : Replay).source indexedRoles).2 =
      .error (.unrecognizedCall "nothing" ⟨"a.php", 4⟩) := by
    decide +kernel
  have hdiagnostics : (({} : Replay).source indexedRoles).1.diagnostics =
      [.unknownTable "a" ⟨"a.php", 1⟩, .unsupportedOperation "index" "roles" ⟨"a.php", 3⟩] := by
    decide +kernel
  have hlength : (Source.normalize indexedRoles.text).length = 6 := by decide +kernel
  obtain ⟨fs, hfs, hlog, hcloses⟩ := source_log {} indexedRoles
  obtain rfl : fs = _ := hfs.symm.trans hdiagnostics
  rw [hlength] at hlog hcloses
  exact ⟨hfails, hlog, hcloses _ hfails⟩

end Replay

end SchemaHistory

import SchemaHistory.Proofs.ConsistentReplays
import SchemaHistory.Proofs.Reports

/-!
# Failed statements

A failure ends the run in the middle of a source. What stands there is the work of the statements
before it: the failing statement itself has done nothing (`SchemaHistory.Replay.failed_statement`).

The steps do not promise this by their form. A call opens its table before it looks at its
arguments, and to open a table may be to create it; a call that fails keeps the schema in which
this was done. But the table whose block is open is always one of the schema, since a statement
that drops it closes the block and one that renames it takes the block along
(`SchemaHistory.Replay.current_mem_step`). No block is open where a source begins, so within a source
there is nothing to create, whatever the state was in which the source was met.
-/

namespace SchemaHistory

namespace Replay

variable {r r' : Replay} {l : Location} {f : Failure}

/-! ### The failing statement -/

theorem Grounded.call_of_fail (h : r.Grounded) {chain : Chain}
    (hf : r.call chain l = (r', some f)) : r' = r := by
  cases hhead : chain.head? with
  | none =>
    rw [call, hhead] at hf
    exact absurd (congrArg Prod.snd hf) (by simp)
  | some head =>
    cases hname : r.current with
    | none =>
      rw [call, hhead, hname] at hf
      exact absurd (congrArg Prod.snd hf) (by simp)
    | some name =>
      obtain ⟨t, ht⟩ := Schema.mem_tableNames_iff.1 (h name hname)
      rw [call_inside hname ht hhead] at hf
      split at hf
      · exact absurd (congrArg Prod.snd hf) (by simp)
      · exact (congrArg Prod.fst hf).symm

/-- Only calls fail, once their line is recognised. -/
theorem Grounded.step_of_fail (h : r.Grounded) {s : Statement}
    (hf : r.step s l = (r', .fail f)) : r' = r := by
  cases s with
  | calls chain =>
    rw [step] at hf
    split at hf <;> rename_i heq
    · exact absurd (congrArg Prod.snd hf) (by simp)
    · obtain ⟨rfl, -⟩ := Prod.mk.inj hf
      exact h.call_of_fail heq
  | _ => exact absurd (congrArg Prod.snd hf) (by simp [step])

/-- **A line that fails leaves the state as it was.** -/
theorem Grounded.line_of_fail (h : r.Grounded) {text : String}
    (hf : r.line text l = (r', .fail f)) : r' = r := by
  rw [Replay.line] at hf
  split at hf
  · exact (congrArg Prod.fst hf).symm
  · exact absurd (congrArg Prod.snd hf) (by simp)
  · exact h.step_of_fail hf

theorem location?_of_line_fail {text : String} (hf : r.line text l = (r', .fail f)) :
    f.location? = some l := by
  have hrecords := records_line (l := l) r text
  rw [hf] at hrecords
  cases hrecords with
  | fail hends => exact hends.location

/-! ### The lines before it -/

/-- Lines of which one fails leave what the lines before it lead to. -/
theorem Grounded.lines_of_error {source : String} {n : Nat} {operation : Bool}
    {texts : List String} (h : r.Grounded)
    (hf : lines source n operation r texts = (r', .error f)) :
    ∃ i b, i < texts.length ∧ f.location? = some ⟨source, n + i⟩ ∧
      lines source n operation r (texts.take i) = (r', .ok b) := by
  -- The replay goes on up to the line that fails, so that line is found by following it.
  induction texts generalizing n operation r with
  | nil => exact absurd (congrArg Prod.snd hf) (by simp [lines])
  | cons text rest ih =>
    have hground := h.line text ⟨source, n⟩
    rw [lines] at hf
    split at hf <;> rename_i heq
    · obtain ⟨rfl, hg⟩ := Prod.mk.inj hf
      obtain rfl := Except.error.inj hg
      obtain rfl := h.line_of_fail heq
      exact ⟨0, operation, Nat.zero_lt_succ _, location?_of_line_fail heq, rfl⟩
    · exact absurd (congrArg Prod.snd hf) (by simp)
    · rename_i r₁ b
      rw [heq] at hground
      obtain ⟨i, b', hi, hlocation, hlines⟩ := ih hground hf
      refine ⟨i + 1, b', Nat.succ_lt_succ hi, ?_, ?_⟩
      · rw [hlocation, Nat.add_assoc, Nat.add_comm 1 i]
      · rw [List.take_succ_cons, lines, heq]
        exact hlines

/-- **A failed statement has no effect.** If a source fails, it fails at one of its logical lines,
and the replay is in the very state that the lines before this one lead to: they go through, and
the schema, the open block and the diagnostics are as they leave them. -/
theorem failed_statement (r : Replay) (m : Migration) {f : Failure}
    (hf : (r.source m).2 = .error f) :
    ∃ k b, f.location? = some ⟨m.name, k⟩ ∧ 1 ≤ k ∧ k ≤ (Source.normalize m.text).length ∧
      lines m.name 1 false { r with current := none } ((Source.normalize m.text).take (k - 1)) =
        ((r.source m).1, .ok b) := by
  rw [source] at hf ⊢
  split at hf <;> rename_i heq
  · exact absurd hf (by simp)
  · obtain rfl := Except.error.inj hf
    obtain ⟨i, b, hi, hlocation, hlines⟩ :=
      (grounded_of_none (r := { r with current := none }) rfl).lines_of_error heq
    refine ⟨1 + i, b, hlocation, by omega, by omega, ?_⟩
    rw [Nat.add_sub_cancel_left]
    exact hlines

/-- A source that fails inside the block of a table that it renames from there. -/
def brokenForeignKey : Migration :=
  ⟨"a.php", "Schema::create('a', function ($table) \x7b\nSchema::rename('a', 'b');\n" ++
    "$table->id();\n$table->foreign('x')->on('c');\n\x7d);"⟩

/-- It fails at its fourth line, and what stands is the work of three. -/
theorem failed_statement_foreignKey :
    (({} : Replay).source brokenForeignKey).2 =
        .error (.malformedStatement .foreignKeyNeedsArguments ⟨"a.php", 4⟩) ∧
      ∃ b, lines "a.php" 1 false {} ((Source.normalize brokenForeignKey.text).take 3) =
        ((({} : Replay).source brokenForeignKey).1, .ok b) := by
  have hfails : (({} : Replay).source brokenForeignKey).2 =
      .error (.malformedStatement .foreignKeyNeedsArguments ⟨"a.php", 4⟩) := by
    decide +kernel
  obtain ⟨k, b, hlocation, -, -, hlines⟩ := failed_statement {} brokenForeignKey hfails
  obtain rfl : 4 = k := congrArg Location.line (Option.some.inj hlocation)
  exact ⟨hfails, b, hlines⟩

end Replay

end SchemaHistory

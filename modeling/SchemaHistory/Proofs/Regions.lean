import SchemaHistory.Proofs.WrittenLines

/-!
# Openings and bodies of comments

Which characters of a physical line are code follows from the moves of the scanner. Three cases
come up again and again in a text that is written around others.

* A text that **opens no comment** (`SchemaHistory.Source.opensComment`) keeps its first character.
* A block comment is passed over whatever it says, up to the first mark that closes it
  (`SchemaHistory.Source.stripFrom_body`).
* A physical line starts in code or in a comment (`SchemaHistory.Source.lineStart`), and behind a
  place in code it is read like a line of its own (`SchemaHistory.Source.strip_append`).
-/

namespace SchemaHistory.Source

open Text

/-! ### What opens no comment -/

/-- Whether a text **opens a comment** with its first characters. -/
def opensComment : List Char → Bool
  | '#' :: _ => true
  | '/' :: '/' :: _ => true
  | '/' :: '*' :: _ => true
  | _ => false

theorem opensComment_of_prefix {s t : List Char} (h : s <+: t) (ht : opensComment t = false) :
    opensComment s = false := by
  obtain ⟨u, rfl⟩ := h
  unfold opensComment at ht ⊢
  split <;> simp_all

/-- The first character of a text that opens no comment is left. -/
theorem stripFrom_of_not_opensComment {c : Char} {s : List Char} (h : opensComment (c :: s) = false)
    (blank : Bool) :
    stripFrom .code blank (c :: s) =
      (c :: (stripFrom (if isQuote c then .quoted c else .code) (isBlank c) s).1,
        (stripFrom (if isQuote c then .quoted c else .code) (isBlank c) s).2) := by
  rw [stripFrom]
  · rintro rfl
    simp [opensComment] at h
  · rintro u rfl rfl
    simp [opensComment] at h
  · rintro u rfl rfl
    simp [opensComment] at h

theorem stripFrom_blanks {g : List Char} (hg : ∀ c ∈ g, isBlank c = true) (blank : Bool) :
    stripFrom .code blank g = (g, false) := by
  induction g generalizing blank with
  | nil => rw [stripFrom]
  | cons c g ih =>
    obtain ⟨hc, hg⟩ := List.forall_mem_cons.1 hg
    rw [stripFrom_code_cons (isInert_of_isBlank hc), ih hg]

/-! ### Inside of a block comment -/

theorem regionBehind_blanks {g : List Char} (hg : ∀ c ∈ g, isBlank c = true) :
    regionBehind .comment g = some .comment := by
  induction g with
  | nil => rw [regionBehind]
  | cons c g ih =>
    obtain ⟨hc, hg⟩ := List.forall_mem_cons.1 hg
    rw [regionBehind]
    · exact ih hg
    · rintro rest rfl
      exact absurd hc (by decide)

/-- **A block comment is passed over**, whatever stands in it, up to the mark that closes it. -/
theorem stripFrom_body {x : List Char} (hx : ¬['*', '/'] <:+: x) (blank : Bool) :
    stripFrom .comment blank x = ([], true) ∧ ∀ rest,
      stripFrom .comment blank (x ++ '*' :: '/' :: rest) =
        stripFrom .comment blank ('*' :: '/' :: rest) := by
  induction x with
  | nil => exact ⟨by rw [stripFrom], fun rest => rfl⟩
  | cons c x ih =>
    obtain ⟨hnone, hclosed⟩ := ih fun h => hx (h.trans (List.suffix_cons c x).isInfix)
    have hopen : ∀ u, c = '*' → x = '/' :: u → False := by
      rintro u rfl rfl
      exact hx (List.prefix_append ['*', '/'] u).isInfix
    refine ⟨?_, fun rest => ?_⟩
    · rw [stripFrom]
      · exact hnone
      · exact hopen
    · refine Eq.trans ?_ (hclosed rest)
      rw [List.cons_append, stripFrom]
      · intro u hc hu
        -- A star at the end of the body is followed by the star of the mark.
        cases x with
        | nil => exact absurd (List.cons.inj hu).1 (by decide)
        | cons d x =>
          obtain ⟨rfl, -⟩ := List.cons.inj hu
          exact hopen x hc rfl

/-! ### Physical lines -/

/-- The region that a physical line starts in. -/
def lineStart (inComment : Bool) : Region :=
  if inComment then .comment else .code

theorem opened_lineStart (b : Bool) : (lineStart b).Opened := by
  cases b
  · exact Region.opened_code
  · exact Region.opened_comment

/-- A text as the scanner reads it, **without carriage returns**. -/
def withoutReturns (s : List Char) : List Char :=
  s.filter (· != '\r')

theorem withoutReturns_append (s t : List Char) :
    withoutReturns (s ++ t) = withoutReturns s ++ withoutReturns t :=
  List.filter_append ..

theorem withoutReturns_cons {c : Char} (hc : c ≠ '\r') (s : List Char) :
    withoutReturns (c :: s) = c :: withoutReturns s :=
  List.filter_cons_of_pos (by simpa using hc)

theorem strip_eq (b : Bool) (l : List Char) :
    strip b l = stripFrom (lineStart b) false (withoutReturns l) := rfl

theorem strip_append {b : Bool} {v : List Char}
    (hv : regionBehind (lineStart b) (withoutReturns v) = some .code) {l : List Char}
    (hapart : Apart (withoutReturns v) (withoutReturns l)) :
    strip b (v ++ l) =
      ((strip b v).1 ++ (stripFrom .code (blankAfter false (strip b v).1) (withoutReturns l)).1,
        (stripFrom .code (blankAfter false (strip b v).1) (withoutReturns l)).2) := by
  rw [strip_eq, withoutReturns_append]
  exact stripFrom_append_of_code (opened_lineStart b) hv hapart false

end SchemaHistory.Source

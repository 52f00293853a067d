import SchemaHistory.Proofs.QuietLines

/-!
# What is found in front of a quote

The phrases that are looked for anywhere on a line, the head of the reverse direction and a raw
alteration, have no single quote in them. So neither is found across a quote: what is found on a
text with a quote in it is found in front of the quote or behind it, and what is found in front of
it does not depend on what stands behind (`SchemaHistory.firstMatch?_of_none`,
`SchemaHistory.firstMatch?_of_none_behind`).

A string literal in a statement is therefore searched by itself: the statement opens the reverse
direction, or alters a column, exactly if the content of the literal does
(`SchemaHistory.Statement.opensDown_quoted`, `SchemaHistory.Alteration.parse?_quoted`).
-/

namespace SchemaHistory

open Text

/-! ### The readers of a pattern -/

/-- A reader that gives the rest of a text **stops at quotes** if it never reads over one. -/
def StopsAtQuotes (f : List Char → Option (List Char)) : Prop :=
  ∀ u v, f (u ++ '\'' :: v) = (f u).map (· ++ '\'' :: v)

/-- A reader that gives something and the rest of a text stops at quotes if it never reads over
one, and what it gives depends on nothing behind one. -/
def YieldsAtQuotes {α : Type} (f : List Char → Option (α × List Char)) : Prop :=
  ∀ u v, f (u ++ '\'' :: v) = (f u).map fun r => (r.1, r.2 ++ '\'' :: v)

namespace StopsAtQuotes

theorem bind {f g : List Char → Option (List Char)} (hf : StopsAtQuotes f) (hg : StopsAtQuotes g) :
    StopsAtQuotes fun s => (f s).bind g := by
  intro u v
  simp only [hf u v]
  cases f u with
  | none => rfl
  | some s => exact hg s v

theorem bind_yields {α : Type} {f : List Char → Option (List Char)}
    {g : List Char → Option (α × List Char)} (hf : StopsAtQuotes f) (hg : YieldsAtQuotes g) :
    YieldsAtQuotes fun s => (f s).bind g := by
  intro u v
  simp only [hf u v]
  cases f u with
  | none => rfl
  | some s => exact hg s v

end StopsAtQuotes

theorem stopsAtQuotes_afterPrefix? {p : List Char} (hp : '\'' ∉ p) :
    StopsAtQuotes (afterPrefix? p) := by
  intro u v
  induction p generalizing u with
  | nil => rfl
  | cons d p ih =>
    have hd : d ≠ '\'' := fun hd => hp (by simp [hd])
    cases u with
    | nil => simp [afterPrefix?, hd]
    | cons c u =>
      rw [List.cons_append, afterPrefix?, afterPrefix?,
        ih fun hmem => hp (List.mem_cons_of_mem d hmem)]
      split <;> rfl

theorem trimStart_quote (u v : List Char) : trimStart (u ++ '\'' :: v) = trimStart u ++ '\'' :: v :=
  (takeWhile_dropWhile_append_cons (p := isBlank) (by decide) u v).2

namespace Alteration

theorem stopsAtQuotes_afterBlanks? : StopsAtQuotes afterBlanks? := by
  intro u v
  cases u with
  | nil => rfl
  | cons c u =>
    rw [List.cons_append, afterBlanks?, afterBlanks?, trimStart_quote]
    split <;> rfl

theorem stopsAtQuotes_afterKeyword? {k : List Char} (hk : '\'' ∉ k) :
    StopsAtQuotes (afterKeyword? k) := by
  intro u v
  induction k generalizing u with
  | nil => rfl
  | cons d k ih =>
    have hd : d ≠ '\'' := fun hd => hk (by simp [hd])
    cases u with
    | nil =>
      have hlower : Char.toLower '\'' = '\'' := by decide
      simp [afterKeyword?, hlower, hd.symm]
    | cons c u =>
      rw [List.cons_append, afterKeyword?, afterKeyword?,
        ih fun hmem => hk (List.mem_cons_of_mem d hmem)]
      split <;> rfl

theorem stopsAtQuotes_afterKeywordAndBlanks? {k : List Char} (hk : '\'' ∉ k) :
    StopsAtQuotes (afterKeywordAndBlanks? k) :=
  (stopsAtQuotes_afterKeyword? hk).bind stopsAtQuotes_afterBlanks?

theorem afterTick_quote (u v : List Char) :
    afterTick (u ++ '\'' :: v) = afterTick u ++ '\'' :: v := by
  cases u with
  | nil => rfl
  | cons c u =>
    by_cases hc : c = '\x60'
    · rw [hc]
      rfl
    · have htick : ∀ s, afterTick (c :: s) = c :: s := by
        intro s
        unfold afterTick
        split
        · rename_i heq
          exact absurd (List.cons.inj heq).1 hc
        · rfl
      rw [List.cons_append, htick, htick, List.cons_append]

theorem yieldsAtQuotes_name? {p : Char → Bool} (hp : p '\'' = false) :
    YieldsAtQuotes (name? p) := by
  intro u v
  obtain ⟨htake, hdrop⟩ := takeWhile_dropWhile_append_cons hp (afterTick u) v
  rw [name?, name?, afterTick_quote]
  simp only [htake, hdrop, afterTick_quote]
  split <;> rfl

theorem yieldsAtQuotes_verb? : YieldsAtQuotes verb? := by
  intro u v
  rw [verb?, verb?, stopsAtQuotes_afterKeywordAndBlanks? (by decide) u v,
    stopsAtQuotes_afterKeywordAndBlanks? (by decide) u v]
  cases afterKeywordAndBlanks? "modify".toList u with
  | some rest => rfl
  | none => cases afterKeywordAndBlanks? "change".toList u <;> rfl

theorem yieldsAtQuotes_column? : YieldsAtQuotes column? := by
  intro u v
  have hname : YieldsAtQuotes (name? isNamePart) := yieldsAtQuotes_name? (by decide)
  have hkeyword :
      (afterKeywordAndBlanks? "column".toList (u ++ '\'' :: v)).bind (name? isNamePart) =
      ((afterKeywordAndBlanks? "column".toList u).bind (name? isNamePart)).map
        fun r => (r.1, r.2 ++ '\'' :: v) :=
    (stopsAtQuotes_afterKeywordAndBlanks? (by decide)).bind_yields hname u v
  rw [column?, column?, hkeyword, hname u v]
  cases (afterKeywordAndBlanks? "column".toList u).bind (name? isNamePart) with
  | some r => rfl
  | none => rfl

/-- What a match says about the definition is cut at a quote. -/
theorem takeWhile_tail (u v : List Char) :
    ((u ++ '\'' :: v).takeWhile (· != '\n')).takeWhile (fun c => !endsStatement c) =
      (u.takeWhile (· != '\n')).takeWhile fun c => !endsStatement c := by
  induction u with
  | nil => simp [endsStatement]
  | cons c u ih =>
    rw [List.cons_append, List.takeWhile_cons, List.takeWhile_cons]
    split
    · rw [List.takeWhile_cons, List.takeWhile_cons, ih]
    · rfl

/-- **The pattern of an alteration is matched in front of a quote or not at all**, and the
alteration that a match describes does not depend on what stands behind the quote. -/
theorem match?_quote (u v : List Char) :
    (match? (u ++ '\'' :: v)).isSome = (match? u).isSome ∧
      (match? (u ++ '\'' :: v)).bind ofMatch? = (match? u).bind ofMatch? := by
  have halter := stopsAtQuotes_afterKeywordAndBlanks? (k := "alter".toList) (by decide)
  have htable := stopsAtQuotes_afterKeywordAndBlanks? (k := "table".toList) (by decide)
  have hname := yieldsAtQuotes_name? (p := isTablePart) (by decide)
  simp only [match?, Option.bind_eq_bind, Option.pure_def]
  -- Each reader of the pattern fails on both texts, or leaves the quote to the next one.
  rw [halter u v]
  cases afterKeywordAndBlanks? "alter".toList u with
  | none => exact ⟨rfl, rfl⟩
  | some s₁ =>
  simp only [Option.map_some, Option.bind_some]
  rw [htable s₁ v]
  cases afterKeywordAndBlanks? "table".toList s₁ with
  | none => exact ⟨rfl, rfl⟩
  | some s₂ =>
  simp only [Option.map_some, Option.bind_some]
  rw [hname s₂ v]
  cases name? isTablePart s₂ with
  | none => exact ⟨rfl, rfl⟩
  | some r₃ =>
  simp only [Option.map_some, Option.bind_some]
  rw [stopsAtQuotes_afterBlanks? r₃.2 v]
  cases afterBlanks? r₃.2 with
  | none => exact ⟨rfl, rfl⟩
  | some s₄ =>
  simp only [Option.map_some, Option.bind_some]
  rw [yieldsAtQuotes_verb? s₄ v]
  cases verb? s₄ with
  | none => exact ⟨rfl, rfl⟩
  | some r₅ =>
  simp only [Option.map_some, Option.bind_some]
  rw [yieldsAtQuotes_column? r₅.2 v]
  cases column? r₅.2 with
  | none => exact ⟨rfl, rfl⟩
  | some r₆ =>
    refine ⟨rfl, ?_⟩
    simp only [Option.map_some, Option.bind_some, ofMatch?, takeWhile_tail]

end Alteration

/-- The head of the reverse direction is found in front of a quote or not at all. -/
theorem Statement.stopsAtQuotes_afterDownHead? : StopsAtQuotes afterDownHead? := by
  have hparen : StopsAtQuotes fun s => afterPrefix? ['('] (trimStart s) := by
    intro u v
    simp only [trimStart_quote]
    exact stopsAtQuotes_afterPrefix? (by decide) _ v
  exact (stopsAtQuotes_afterPrefix? (by decide)).bind (Alteration.stopsAtQuotes_afterBlanks?.bind
    ((stopsAtQuotes_afterPrefix? (by decide)).bind hparen))

/-! ### The first match -/

theorem firstMatch?_cons {α : Type} (f : List Char → Option α) (c : Char) (s : List Char) :
    firstMatch? f (c :: s) = (f (c :: s)).or (firstMatch? f s) := by
  rw [firstMatch?]
  cases f (c :: s) <;> rfl

section FirstMatch

variable {α β : Type} {f : List Char → Option α} {g : α → Option β}
  (hf : ∀ u v, (f (u ++ '\'' :: v)).isSome = (f u).isSome ∧
    (f (u ++ '\'' :: v)).bind g = (f u).bind g) (hnil : f [] = none)
include hf

theorem eq_none_append_quote_iff {u v : List Char} : f (u ++ '\'' :: v) = none ↔ f u = none := by
  rw [← Option.isNone_iff_eq_none, ← Option.isNone_iff_eq_none, ← Option.not_isSome,
    ← Option.not_isSome, (hf u v).1]

include hnil

/-- A text in front of a quote on which nothing is found does not matter. -/
theorem firstMatch?_of_none {u : List Char} (hu : firstMatch? f u = none) (v : List Char) :
    firstMatch? f (u ++ '\'' :: v) = firstMatch? f v := by
  -- A match begins in front of the quote, at it, or behind it, and only the last is possible.
  induction u with
  | nil =>
    have hquote : f ('\'' :: v) = none := (eq_none_append_quote_iff hf (u := [])).2 hnil
    rw [List.nil_append, firstMatch?_cons, hquote, Option.none_or]
  | cons c u ih =>
    rw [firstMatch?_cons, Option.or_eq_none_iff] at hu
    have hfirst := (eq_none_append_quote_iff hf (v := v)).2 hu.1
    rw [List.cons_append] at hfirst
    rw [List.cons_append, firstMatch?_cons, hfirst, Option.none_or, ih hu.2]

/-- A text behind a quote on which nothing is found does not matter. -/
theorem firstMatch?_of_none_behind (u : List Char) {v : List Char} (hv : firstMatch? f v = none) :
    (firstMatch? f (u ++ '\'' :: v)).bind g = (firstMatch? f u).bind g := by
  -- At each place in front of the quote the two texts match alike, and at the quote neither does.
  induction u with
  | nil =>
    rw [firstMatch?_of_none hf hnil (u := []) hnil, hv, firstMatch?, hnil]
  | cons c u ih =>
    have hfirst := hf (c :: u) v
    rw [List.cons_append] at hfirst
    rw [List.cons_append, firstMatch?_cons, firstMatch?_cons]
    cases hc : f (c :: u) with
    | none =>
      rw [hc] at hfirst
      rw [Option.isSome_eq_false_iff.1 hfirst.1 |> Option.isNone_iff_eq_none.1, Option.none_or,
        Option.none_or, ih]
    | some a =>
      rw [hc] at hfirst
      obtain ⟨a', ha'⟩ := Option.isSome_iff_exists.1 hfirst.1
      rw [ha'] at hfirst ⊢
      exact hfirst.2

end FirstMatch

/-! ### String literals -/

section Literals

variable {u w : List Char} (hu : Quiet u) (hw : Quiet w) (s : List Char)
include hu hw

/-- **A line with a string literal begins the reverse direction exactly if the content of the
literal does**, where all else on the line is quiet. -/
theorem Statement.opensDown_quoted :
    opensDown (u ++ '\'' :: (s ++ '\'' :: w)) = opensDown s := by
  have hf : ∀ u v, (afterDownHead? (u ++ '\'' :: v)).isSome = (afterDownHead? u).isSome ∧
      (afterDownHead? (u ++ '\'' :: v)).bind (fun _ => some ()) =
        (afterDownHead? u).bind fun _ => some () := by
    intro u v
    rw [stopsAtQuotes_afterDownHead? u v]
    cases afterDownHead? u <;> exact ⟨rfl, rfl⟩
  have hnone : ∀ {t : List Char}, Quiet t → firstMatch? afterDownHead? t = none := by
    intro t ht
    have hopens := ht.opensDown_eq
    rwa [opensDown, Option.isSome_eq_false_iff, Option.isNone_iff_eq_none] at hopens
  have hbehind := firstMatch?_of_none_behind hf rfl s (hnone hw)
  have hsome : ∀ o : Option (List Char), (o.bind fun _ => some ()).isSome = o.isSome := by
    intro o
    cases o <;> rfl
  -- The quote in front is passed first; then the one behind the content is the seam.
  rw [opensDown, opensDown, firstMatch?_of_none hf rfl (hnone hu), ← hsome, hbehind, hsome]

/-- **A line with a string literal alters a column exactly as the content of the literal does**,
where all else on the line is quiet. -/
theorem Alteration.parse?_quoted :
    parse? (u ++ '\'' :: (s ++ '\'' :: w)) = parse? s := by
  have hnone : ∀ {t : List Char}, Quiet t → firstMatch? match? t = none := by
    intro t ht
    obtain ⟨v, -, hv⟩ := ht .idle rfl
    exact firstMatch?_eq_none (fun _ _ => run_of_match?) hv
  rw [parse?, firstMatch?_of_none match?_quote rfl (hnone hu),
    firstMatch?_of_none_behind match?_quote rfl s (hnone hw), parse?]

end Literals

end SchemaHistory

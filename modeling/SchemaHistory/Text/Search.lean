/-!
# Prefixes, occurrences and separators

The few questions about a text that the readers of statements and paths ask.
-/

namespace SchemaHistory.Text

/-- What follows a given beginning of the text, if the text begins with it. -/
def afterPrefix? : List Char → List Char → Option (List Char)
  | [], s => some s
  | _ :: _, [] => none
  | p :: ps, c :: s => if p = c then afterPrefix? ps s else none

/-- What stands before a given ending of the text, if the text ends with it. -/
def beforeSuffix? (ending s : List Char) : Option (List Char) :=
  (afterPrefix? ending.reverse s.reverse).map List.reverse

/-- Whether a text **occurs** in another one. -/
def occursIn (t : List Char) : List Char → Bool
  | [] => t.isEmpty
  | c :: s => t.isPrefixOf (c :: s) || occursIn t s

/-- The first answer of a function on the text, on the text without its first character, and so
on. -/
def firstMatch? {α : Type} (f : List Char → Option α) : List Char → Option α
  | [] => f []
  | c :: s =>
    match f (c :: s) with
    | some a => some a
    | none => firstMatch? f s

/-- The pieces between the characters that satisfy a test; there is always one. -/
def splitAt (p : Char → Bool) : List Char → List (List Char)
  | [] => [[]]
  | c :: s =>
    if p c then [] :: splitAt p s
    else
      match splitAt p s with
      | [] => [[c]]
      | piece :: pieces => (c :: piece) :: pieces

theorem eq_append_of_afterPrefix? {p s r : List Char} (h : afterPrefix? p s = some r) :
    s = p ++ r := by
  fun_induction afterPrefix? p s with
  | case1 s => exact Option.some.inj h
  | case2 => exact absurd h (by simp)
  | case3 p ps s ih => rw [ih h, List.cons_append]
  | case4 => exact absurd h (by simp)

theorem afterPrefix?_append (p s : List Char) : afterPrefix? p (p ++ s) = some s := by
  induction p with
  | nil => rfl
  | cons c p ih => rw [List.cons_append, afterPrefix?, if_pos rfl, ih]

/-- A text ends with an ending exactly if it is something with the ending behind it. -/
theorem beforeSuffix?_eq_some_iff {ending s u : List Char} :
    beforeSuffix? ending s = some u ↔ s = u ++ ending := by
  rw [beforeSuffix?, Option.map_eq_some_iff]
  constructor
  · rintro ⟨v, hv, rfl⟩
    rw [← List.reverse_inj, eq_append_of_afterPrefix? hv, List.reverse_append, List.reverse_reverse]
  · rintro rfl
    exact ⟨u.reverse, by rw [List.reverse_append, afterPrefix?_append], List.reverse_reverse u⟩

theorem splitAt_ne_nil (p : Char → Bool) (s : List Char) : splitAt p s ≠ [] := by
  cases s with
  | nil => simp [splitAt]
  | cons c s =>
    rw [splitAt]
    split
    · simp
    · split <;> simp

/-- The pieces in front of a separator and those behind it. -/
theorem splitAt_append_cons {p : Char → Bool} {c : Char} (hc : p c = true) (s t : List Char) :
    splitAt p (s ++ c :: t) = splitAt p s ++ splitAt p t := by
  induction s with
  | nil => simp [splitAt, hc]
  | cons d s ih =>
    rw [List.cons_append, splitAt, splitAt, ih]
    by_cases hd : p d = true
    · rw [if_pos hd, if_pos hd, List.cons_append]
    · rw [if_neg hd, if_neg hd]
      cases hs : splitAt p s with
      | nil => exact absurd hs (splitAt_ne_nil p s)
      | cons piece pieces => rfl

/-- A text without separators is one piece. -/
theorem splitAt_of_forall {p : Char → Bool} {s : List Char} (h : ∀ c ∈ s, p c = false) :
    splitAt p s = [s] := by
  induction s with
  | nil => rfl
  | cons c s ih =>
    rw [splitAt, if_neg (by simp [h c List.mem_cons_self]),
      ih fun d hd => h d (List.mem_cons_of_mem c hd)]

/-- The last character of a text that satisfies a condition, if there is one. -/
theorem exists_last (p : Char → Bool) (u : List Char) :
    (∀ c ∈ u, p c = false) ∨
      ∃ w e v, u = w ++ e :: v ∧ p e = true ∧ ∀ c ∈ v, p c = false := by
  induction u with
  | nil => exact Or.inl (by simp)
  | cons c u ih =>
    rcases ih with hu | ⟨w, e, v, rfl, he, hv⟩
    · cases hc : p c with
      | true => exact Or.inr ⟨[], c, u, rfl, hc, hu⟩
      | false => exact Or.inl (List.forall_mem_cons.2 ⟨hc, hu⟩)
    · exact Or.inr ⟨c :: w, e, v, rfl, he, hv⟩

/-- A run of characters is taken off a text up to its end. -/
theorem takeWhile_dropWhile_append {p : Char → Bool} {u s : List Char} (hu : ∀ c ∈ u, p c = true)
    (hs : ∀ c ∈ s.head?, p c = false) :
    (u ++ s).takeWhile p = u ∧ (u ++ s).dropWhile p = s := by
  rw [List.takeWhile_append_of_pos hu, List.dropWhile_append_of_pos hu]
  cases s with
  | nil => exact ⟨List.append_nil u, rfl⟩
  | cons c s =>
    have hc : ¬p c = true := by simp [hs c rfl]
    rw [List.takeWhile_cons_of_neg hc, List.dropWhile_cons_of_neg hc]
    exact ⟨List.append_nil u, rfl⟩

/-- Behind a character that ends a run, a text does not matter to the run. -/
theorem takeWhile_dropWhile_append_cons {p : Char → Bool} {d : Char} (hd : p d = false)
    (s t : List Char) :
    (s ++ d :: t).takeWhile p = s.takeWhile p ∧
      (s ++ d :: t).dropWhile p = s.dropWhile p ++ d :: t := by
  induction s with
  | nil => simp [hd]
  | cons c s ih => by_cases hc : p c = true <;> simp [hc, ih]

/-- The number of bytes of a text in UTF-8. -/
def byteLength : List Char → Nat
  | [] => 0
  | c :: s => c.utf8Size + byteLength s

@[simp] theorem byteLength_nil : byteLength [] = 0 := rfl

theorem byteLength_append (s t : List Char) :
    byteLength (s ++ t) = byteLength s + byteLength t := by
  induction s with
  | nil => simp [byteLength]
  | cons c s ih => simp [byteLength, ih, Nat.add_assoc]

end SchemaHistory.Text

import SchemaHistory.Proofs.Tiling

/-!
# Cutting texts by bytes

The readers of this library take texts apart from the front and never count. A reader that keeps its
place as a number of bytes can do the same work, but it can also ask for what is not there: for a
stretch that ends before it starts or behind the end of the text, or for one that cuts a character
in two. Here the pieces of such a reader are given, each of which **fails** on what is not there
(`SchemaHistory.ByPlace.Fault`) instead of making something up.

A slice exists exactly between two places that stand between characters, in this order
(`SchemaHistory.ByPlace.slice_eq_ok_iff`). Places of that kind come from two sources: from the
number of bytes in front of something, as the lexer counts them, and from a search, which finds the
first character of a class and so stands in front of it (`SchemaHistory.ByPlace.firstByte?`).
-/

namespace SchemaHistory.ByPlace

open Source Text

/-- What a reader by places can ask for that **is not there**. -/
inductive Fault
  /-- A stretch of text that does not lie between characters of it. -/
  | slice (start stop : Nat)
  /-- A stretch of tokens that does not lie within them. -/
  | stretch (start stop : Nat)
  /-- A token at a place where there is none. -/
  | index (i : Nat)
  /-- A difference of numbers whose second one is greater. -/
  | difference (a b : Nat)
  deriving DecidableEq, Inhabited

/-! ### Slices -/

/-- The first so many bytes of a text and what follows them, unless this cuts a character in two. -/
def splitBytes? : List Char → Nat → Option (List Char × List Char)
  | s, 0 => some ([], s)
  | [], _ + 1 => none
  | c :: s, n + 1 =>
    if c.utf8Size ≤ n + 1 then (splitBytes? s (n + 1 - c.utf8Size)).map fun r => (c :: r.1, r.2)
    else none

theorem splitBytes?_eq_some_iff {s a b : List Char} {n : Nat} :
    splitBytes? s n = some (a, b) ↔ s = a ++ b ∧ byteLength a = n := by
  fun_induction splitBytes? s n generalizing a with
  | case1 s =>
    constructor
    · rintro h
      obtain ⟨rfl, rfl⟩ := Prod.mk.inj (Option.some.inj h)
      exact ⟨rfl, rfl⟩
    · rintro ⟨rfl, hlength⟩
      obtain rfl : a = [] := by
        by_contra hne
        exact absurd hlength (Nat.ne_of_gt (byteLength_pos hne))
      rfl
  | case2 n =>
    refine iff_of_false (by simp) ?_
    rintro ⟨hnil, hlength⟩
    obtain ⟨rfl, rfl⟩ := List.append_eq_nil_iff.1 hnil.symm
    exact absurd hlength (by simp)
  | case3 c s n hle ih =>
    rw [Option.map_eq_some_iff]
    constructor
    · rintro ⟨⟨x, y⟩, hr, heq⟩
      obtain ⟨rfl, rfl⟩ := Prod.mk.inj heq
      obtain ⟨rfl, hlength⟩ := ih.1 hr
      exact ⟨rfl, by rw [byteLength, hlength]; omega⟩
    · rintro ⟨hs, hlength⟩
      cases a with
      | nil => exact absurd hlength (by simp)
      | cons d a =>
        obtain ⟨rfl, hrest⟩ := List.cons.inj hs
        rw [byteLength] at hlength
        exact ⟨(a, b), ih.2 ⟨hrest, by omega⟩, rfl⟩
  | case4 c s n hle =>
    refine iff_of_false (by simp) ?_
    rintro ⟨hs, hlength⟩
    cases a with
    | nil => exact absurd hlength (by simp)
    | cons d a =>
      obtain ⟨rfl, -⟩ := List.cons.inj hs
      rw [byteLength] at hlength
      omega

/-- The **slice** of a text from one place in bytes to another. -/
def slice (s : List Char) (start stop : Nat) : Except Fault (List Char) :=
  match (splitBytes? s stop).bind fun r => splitBytes? r.1 start with
  | some (_, u) => .ok u
  | none => .error (.slice start stop)

/-- **A slice exists exactly between two places that stand between characters**, in this order. -/
theorem slice_eq_ok_iff {s u : List Char} {start stop : Nat} :
    slice s start stop = .ok u ↔ IsSlice s start stop u := by
  have hsplit : (∃ a, ((splitBytes? s stop).bind fun r => splitBytes? r.1 start) = some (a, u)) ↔
      IsSlice s start stop u := by
    constructor
    · rintro ⟨a, h⟩
      obtain ⟨⟨front, b⟩, hfront, ha⟩ := Option.bind_eq_some_iff.1 h
      obtain ⟨rfl, hstop⟩ := splitBytes?_eq_some_iff.1 hfront
      obtain ⟨rfl, hstart⟩ := splitBytes?_eq_some_iff.1 ha
      exact ⟨a, b, List.append_assoc a u b, hstart, hstop⟩
    · rintro ⟨a, b, rfl, hstart, hstop⟩
      refine ⟨a, Option.bind_eq_some_iff.2 ⟨(a ++ u, b), ?_, ?_⟩⟩
      · exact splitBytes?_eq_some_iff.2 ⟨(List.append_assoc a u b).symm, hstop⟩
      · exact splitBytes?_eq_some_iff.2 ⟨rfl, hstart⟩
  rw [← hsplit, slice]
  cases (splitBytes? s stop).bind fun r => splitBytes? r.1 start with
  | none => simp
  | some r =>
    obtain ⟨a, v⟩ := r
    simp

/-- A slice that ends inside of a character does not exist. -/
example : slice "né".toList 0 2 = .error (.slice 0 2) := rfl

/-- The slice between two places that are counted. -/
theorem slice_append (a u b : List Char) :
    slice (a ++ (u ++ b)) (byteLength a) (byteLength (a ++ u)) = .ok u :=
  slice_eq_ok_iff.2 ⟨a, b, rfl, rfl, rfl⟩

theorem slice_zero (u b : List Char) : slice (u ++ b) 0 (byteLength u) = .ok u :=
  slice_append [] u b

theorem slice_to_end (a u : List Char) :
    slice (a ++ u) (byteLength a) (byteLength (a ++ u)) = .ok u := by
  have h := slice_append a u []
  rwa [List.append_nil] at h

/-! ### Searches -/

/-- The place of the first character that satisfies a test, if there is one. -/
def firstByte? (p : Char → Bool) : List Char → Option Nat
  | [] => none
  | c :: s => if p c then some 0 else (firstByte? p s).map (c.utf8Size + ·)

/-- **A search stops in front of the first character that it looks for.** -/
theorem exists_of_firstByte? {p : Char → Bool} {s : List Char} {n : Nat}
    (h : firstByte? p s = some n) :
    ∃ a c b, s = a ++ c :: b ∧ (∀ d ∈ a, p d = false) ∧ p c = true ∧ byteLength a = n := by
  induction s generalizing n with
  | nil => exact absurd h (by simp [firstByte?])
  | cons c s ih =>
    rw [firstByte?] at h
    split at h
    · rename_i hc
      exact ⟨[], c, s, rfl, by simp, hc, Option.some.inj h⟩
    · rename_i hc
      obtain ⟨m, hm, rfl⟩ := Option.map_eq_some_iff.1 h
      obtain ⟨a, d, b, rfl, ha, hd, rfl⟩ := ih hm
      refine ⟨c :: a, d, b, rfl, ?_, hd, rfl⟩
      rw [List.forall_mem_cons]
      exact ⟨Bool.eq_false_iff.2 hc, ha⟩

theorem firstByte?_eq_none_iff {p : Char → Bool} {s : List Char} :
    firstByte? p s = none ↔ ∀ c ∈ s, p c = false := by
  induction s with
  | nil => simp [firstByte?]
  | cons c s ih => by_cases hc : p c = true <;> simp [firstByte?, hc, ih]

end SchemaHistory.ByPlace

import Mathlib.Data.List.Chain
import SchemaHistory.Proofs.Lexing

/-!
# The lexemes of a text tile it

A cursor gives the lexemes of a text one by one, each at its place in bytes, and then says `finish`
as often as it is asked. Everything that is read from a line is cut out at these places, so they
have to fit: the lexemes **tile** the text (`SchemaHistory.Source.Tiling`), from its first byte to
its last, with no gap and no overlap, and each has the text that stands at its place.

The scanner looks at most one character ahead, and only to see where a lexeme ends. So a lexeme
depends on what stands behind it through one character at most, and the same lexeme comes out if
that is replaced by something that ends it as well (`SchemaHistory.Source.CanFollow`,
`SchemaHistory.Source.Lexeme.startingWith_replace`). With nothing behind it, this says that a lexeme
is read back from its own text (`SchemaHistory.Source.lexemes_text`); with a character that stops
every lexeme, that the first lexemes of a text can be cut off and put in front of it
(`SchemaHistory.Source.lexemes_cut`).
-/

namespace SchemaHistory.Source

open Text

/-! ### How a lexeme goes on -/

/-- The kinds of **runs**, each with the characters that go on with it. -/
inductive IsRun : Kind → (Char → Bool) → Prop
  | blank : IsRun .blank isBlank
  | number : IsRun .number isNumberPart
  | variable : IsRun .variable isVariablePart
  | word : IsRun .word isWordPart

theorem IsRun.stop {kind : Kind} {p : Char → Bool} (h : IsRun kind p) {e : Char}
    (he : isStop e = true) : p e = false := by
  obtain ⟨hblank, hnumber, hvariable, hword, -⟩ := isStop_iff.1 he
  cases h <;> assumption

/-- The lexeme of a **mark**, and what follows it. -/
def mark (c : Char) (s : List Char) : Lexeme × List Char :=
  match c, s with
  | '-', '>' :: rest => (⟨.arrow, ['-', '>']⟩, rest)
  | '=', '>' :: rest => (⟨.doubleArrow, ['=', '>']⟩, rest)
  | ':', ':' :: rest => (⟨.doubleColon, [':', ':']⟩, rest)
  | c, rest => (⟨markKind c, [c]⟩, rest)

/-- The **manner** in which a lexeme goes on behind its first character. -/
inductive Manner (c : Char) : Prop
  /-- With all characters of a class. -/
  | run (kind : Kind) (p : Char → Bool) (hrun : IsRun kind p)
    (h : ∀ s, Lexeme.startingWith c s = run kind p c s)
  /-- Up to the closing delimiter. -/
  | string (hquote : isQuote c = true)
    (h : ∀ s, Lexeme.startingWith c s =
      (⟨.quoted, c :: (untilClosed c s).1⟩, (untilClosed c s).2))
  /-- With one character at most. -/
  | mark (h : ∀ s, Lexeme.startingWith c s = mark c s)

/-- **The first character decides how a lexeme goes on.** -/
theorem Lexeme.manner (c : Char) : Manner c := by
  by_cases hblank : isBlank c = true
  · exact .run _ _ .blank fun s => if_pos hblank
  by_cases hdigit : isDigit c = true
  · exact .run _ _ .number fun s => (if_neg hblank).trans (if_pos hdigit)
  by_cases hvar : c = '$'
  · exact .run _ _ .variable fun s =>
      (if_neg hblank).trans ((if_neg hdigit).trans (if_pos hvar))
  by_cases hword : isWordStart c = true
  · exact .run _ _ .word fun s =>
      (if_neg hblank).trans ((if_neg hdigit).trans ((if_neg hvar).trans (if_pos hword)))
  by_cases hquote : isQuote c = true
  · refine .string hquote fun s => ?_
    unfold startingWith
    rw [if_neg hblank, if_neg hdigit, if_neg hvar, if_neg hword, if_pos hquote]
  · refine .mark fun s => ?_
    unfold startingWith
    rw [if_neg hblank, if_neg hdigit, if_neg hvar, if_neg hword, if_neg hquote]
    rfl

/-! ### What stands behind a lexeme -/

/-- A text **can follow** where another one followed: if it starts with anything, this stops every
lexeme, or the other one started with it. -/
def CanFollow (t t' : List Char) : Prop :=
  ∀ e ∈ t'.head?, t ≠ [] ∧ (isStop e = true ∨ e ∈ t.head?)

theorem CanFollow.nil (t : List Char) : CanFollow t [] := by
  simp [CanFollow]

theorem CanFollow.eq_nil {t' : List Char} (h : CanFollow [] t') : t' = [] := by
  cases t' with
  | nil => rfl
  | cons e t' => exact absurd rfl (h e rfl).1

/-- What ends a run still ends it if it is replaced. -/
theorem CanFollow.head_false {p : Char → Bool} (hp : ∀ e, isStop e = true → p e = false)
    {t t' : List Char} (h : CanFollow t t') (ht : ∀ e ∈ t.head?, p e = false) :
    ∀ e ∈ t'.head?, p e = false := fun e he =>
  (h e he).2.elim (hp e) (ht e)

theorem head?_dropWhile_eq_false {p : Char → Bool} (s : List Char) :
    ∀ e ∈ (s.dropWhile p).head?, p e = false := by
  intro e he
  have hnot := List.head?_dropWhile_not p s
  rw [Option.mem_def.1 he] at hnot
  simpa using hnot

/-- A run ends in the same place if what follows it is replaced. -/
theorem run_replace {kind : Kind} {p : Char → Bool} (hrun : IsRun kind p) (c : Char)
    (s : List Char) {t' : List Char} (h : CanFollow (run kind p c s).2 t') :
    run kind p c ((run kind p c s).1.text.tail ++ t') = ((run kind p c s).1, t') :=
  run_append (List.all_eq_true.1 List.all_takeWhile)
    (h.head_false (fun _ => hrun.stop) (head?_dropWhile_eq_false s))

/-- A string ends in the same place if what follows it is replaced. Only a string that is not closed
has nothing behind it. -/
theorem untilClosed_replace {q : Char} (hq : isQuote q = true) (s : List Char) {t' : List Char}
    (h : CanFollow (untilClosed q s).2 t') :
    untilClosed q ((untilClosed q s).1 ++ t') = ((untilClosed q s).1, t') := by
  fun_induction untilClosed q s with
  | case1 =>
    obtain rfl := h.eq_nil
    rfl
  | case2 c rest ih => rw [List.cons_append, List.cons_append, untilClosed, ih h]
  | case3 => exact untilClosed_self hq t'
  | case4 c rest hnot hc ih =>
    rw [List.cons_append, untilClosed, if_neg hc, ih h]
    -- A backslash at the very end leaves the string open.
    rintro d r rfl heq
    cases rest with
    | nil =>
      obtain rfl := h.eq_nil
      exact absurd heq (by simp [untilClosed])
    | cons d' r' => exact hnot d' r' rfl rfl

/-- A mark takes a second character along only if it is the one that belongs to it. -/
theorem mark_replace (c : Char) (s : List Char) {t' : List Char} (h : CanFollow (mark c s).2 t') :
    mark c ((mark c s).1.text.tail ++ t') = ((mark c s).1, t') := by
  let Pair (e : Char) : Prop := c = '-' ∧ e = '>' ∨ c = '=' ∧ e = '>' ∨ c = ':' ∧ e = ':'
  by_cases hpair : ∃ e ∈ s.head?, Pair e
  · obtain ⟨e, he, hc⟩ := hpair
    obtain ⟨r, rfl⟩ := List.head?_eq_some_iff.1 he
    rcases hc with ⟨rfl, rfl⟩ | ⟨rfl, rfl⟩ | ⟨rfl, rfl⟩ <;> rfl
  · have hone : ∀ u : List Char, (∀ e ∈ u.head?, isStop e = true ∨ e ∈ s.head?) →
        mark c u = (⟨markKind c, [c]⟩, u) := by
      intro u hu
      have hnot : ∀ e ∈ u.head?, ¬Pair e := by
        rintro e he hc
        rcases hu e he with hstop | hhead
        · obtain ⟨-, -, -, -, hgt, hcolon⟩ := isStop_iff.1 hstop
          rcases hc with ⟨-, h⟩ | ⟨-, h⟩ | ⟨-, h⟩
          exacts [hgt h, hgt h, hcolon h]
        · exact hpair ⟨e, hhead, hc⟩
      unfold mark
      split
      · exact absurd (Or.inl ⟨rfl, rfl⟩) (hnot _ rfl)
      · exact absurd (Or.inr (Or.inl ⟨rfl, rfl⟩)) (hnot _ rfl)
      · exact absurd (Or.inr (Or.inr ⟨rfl, rfl⟩)) (hnot _ rfl)
      · rfl
    rw [hone s fun e he => Or.inr he] at h ⊢
    exact hone t' fun e he => (h e he).2

/-- **A lexeme stays the same if what follows it is replaced.** -/
theorem Lexeme.startingWith_replace {c : Char} {s t t' : List Char} {l : Lexeme}
    (h : startingWith c s = (l, t)) (ht : CanFollow t t') :
    startingWith c (l.text.tail ++ t') = (l, t') := by
  rcases manner c with ⟨kind, p, hrun, hstart⟩ | ⟨hquote, hstart⟩ | hstart
  · rw [hstart] at h ⊢
    have hreplace := run_replace hrun c s (show CanFollow _ t' by rwa [h])
    rwa [h] at hreplace
  · rw [hstart] at h ⊢
    obtain ⟨rfl, rfl⟩ := Prod.mk.inj h
    rw [List.tail_cons, untilClosed_replace hquote s ht]
  · rw [hstart] at h ⊢
    have hreplace := mark_replace c s (show CanFollow _ t' by rwa [h])
    rwa [h] at hreplace

/-! ### Cutting a text between lexemes -/

/-- The **text** of lexemes in a row. -/
def textOf (ls : List Lexeme) : List Char :=
  ls.flatMap (·.text)

@[simp] theorem textOf_nil : textOf [] = [] := rfl

@[simp] theorem textOf_cons (l : Lexeme) (ls : List Lexeme) :
    textOf (l :: ls) = l.text ++ textOf ls := rfl

@[simp] theorem textOf_append (ls ls' : List Lexeme) :
    textOf (ls ++ ls') = textOf ls ++ textOf ls' :=
  List.flatMap_append

theorem textOf_lexemes (s : List Char) : textOf (lexemes s) = s :=
  flatMap_text_lexemes s

/-- The lexemes of a text start with the one that its first character starts. -/
theorem lexemes_eq_cons {s : List Char} {l : Lexeme} {ls : List Lexeme}
    (h : lexemes s = l :: ls) :
    ∃ c u, s = c :: u ∧ Lexeme.startingWith c u = (l, textOf ls) ∧ lexemes (textOf ls) = ls ∧
      l.text = c :: l.text.tail := by
  cases s with
  | nil => exact absurd h (by simp [lexemes])
  | cons c u =>
    rw [lexemes] at h
    obtain ⟨hl, hls⟩ := List.cons.inj h
    have htext : (Lexeme.startingWith c u).2 = textOf ls := by rw [← hls, textOf_lexemes]
    refine ⟨c, u, rfl, by rw [← hl, ← htext], by rw [← htext, hls], ?_⟩
    have hhead := Lexeme.text_startingWith c u
    rw [hl] at hhead
    exact List.eq_cons_of_mem_head? hhead

/-- **Behind its first lexemes a text has the other ones.** -/
theorem lexemes_drop {s : List Char} {ls ms : List Lexeme} (h : lexemes s = ls ++ ms) :
    s = textOf ls ++ textOf ms ∧ lexemes (textOf ms) = ms := by
  constructor
  · rw [← textOf_append, ← h, textOf_lexemes]
  · induction ls generalizing s with
    | nil =>
      rw [List.nil_append] at h
      rw [← h, textOf_lexemes]
    | cons l ls ih =>
      obtain ⟨-, -, -, -, hrest, -⟩ := lexemes_eq_cons h
      exact ih hrest

/-- **The first lexemes of a text stay the same** in front of what can follow them. -/
theorem lexemes_replace {s t : List Char} {ls ms : List Lexeme} (h : lexemes s = ls ++ ms)
    (ht : CanFollow (textOf ms) t) : lexemes (textOf ls ++ t) = ls ++ lexemes t := by
  induction ls generalizing s with
  | nil => rfl
  | cons l ls ih =>
    obtain ⟨c, u, -, hstart, hrest, htext⟩ := lexemes_eq_cons h
    have hfollow : CanFollow (textOf (ls ++ ms)) (textOf ls ++ t) := by
      cases ls with
      | nil => exact ht
      | cons k ls =>
        obtain ⟨d, -, -, -, -, hk⟩ := lexemes_eq_cons hrest
        intro e he
        rw [textOf_cons, hk] at he
        rw [List.cons_append, textOf_cons, hk]
        exact ⟨List.cons_ne_nil _ _, Or.inr he⟩
    have hnext := Lexeme.startingWith_replace hstart hfollow
    rw [textOf_cons, List.append_assoc, htext, List.cons_append, lexemes_cons hnext, ih hrest,
      List.cons_append]

theorem textOf_ne_nil {s : List Char} {ls ms : List Lexeme} (h : lexemes s = ls ++ ms)
    (hms : ms ≠ []) : textOf ms ≠ [] := by
  obtain ⟨m, ms, rfl⟩ := List.exists_cons_of_ne_nil hms
  obtain ⟨c, -, -, -, -, htext⟩ := lexemes_eq_cons (lexemes_drop h).2
  rw [textOf_cons, htext]
  exact List.cons_ne_nil _ _

/-- **In front of a character that stops every lexeme** the first lexemes of a text stay the same,
unless they are all there are. -/
theorem lexemes_cut {s : List Char} {ls ms : List Lexeme} (h : lexemes s = ls ++ ms)
    (hms : ms ≠ []) {d : Char} (hd : isStop d = true) (t : List Char) :
    lexemes (textOf ls ++ d :: t) = ls ++ lexemes (d :: t) := by
  refine lexemes_replace h fun e he => ⟨textOf_ne_nil h hms, Or.inl ?_⟩
  obtain rfl : d = e := by simpa using he
  exact hd

/-- Every lexeme of a text is the one that begins with its first character. -/
theorem exists_startingWith {s : List Char} {l : Lexeme} (h : l ∈ lexemes s) :
    ∃ c u v, Lexeme.startingWith c u = (l, v) ∧ l.text = c :: l.text.tail := by
  obtain ⟨ls, ms, hsplit⟩ := List.append_of_mem h
  obtain ⟨c, u, -, hstart, -, htext⟩ := lexemes_eq_cons (lexemes_drop hsplit).2
  exact ⟨c, u, _, hstart, htext⟩

/-- **Every lexeme is read back from its own text.** -/
theorem lexemes_text {s : List Char} {l : Lexeme} (h : l ∈ lexemes s) : lexemes l.text = [l] := by
  obtain ⟨ls, ms, hsplit⟩ := List.append_of_mem h
  have hone : lexemes (textOf (l :: ms)) = [l] ++ ms := (lexemes_drop hsplit).2
  have hread := lexemes_replace hone (.nil _)
  rw [List.append_nil, lexemes] at hread
  simpa using hread

/-! ### Places -/

/-- The lexemes of a row, each at its place. -/
def tiles (offset : Nat) : List Lexeme → List PlacedLexeme
  | [] => []
  | l :: rest =>
    ⟨l, offset, offset + byteLength l.text⟩ :: tiles (offset + byteLength l.text) rest

/-- The `finish` at a place. -/
def finishAt (offset : Nat) : PlacedLexeme :=
  ⟨⟨.finish, []⟩, offset, offset⟩

/-- A lexeme at a place that is so much further on. -/
def PlacedLexeme.shift (n : Nat) (p : PlacedLexeme) : PlacedLexeme :=
  ⟨p.lexeme, n + p.start, n + p.stop⟩

/-- Whether a text is the **slice** of another one between two places, which both stand between
characters. -/
def IsSlice (s : List Char) (start stop : Nat) (u : List Char) : Prop :=
  ∃ a b, s = a ++ (u ++ b) ∧ byteLength a = start ∧ byteLength (a ++ u) = stop

/-- Lexemes at their places **tile** a text if they stand behind each other, from the start of the
text to its end, none of them empty, and each has the text that stands at its place. -/
structure Tiling (s : List Char) (ps : List PlacedLexeme) : Prop where
  starts : ∀ p ∈ ps.head?, p.start = 0
  nonempty : ∀ p ∈ ps, p.start < p.stop
  adjacent : ps.IsChain fun p q => p.stop = q.start
  ends : ∀ p ∈ ps.getLast?, p.stop = byteLength s
  slice : ∀ p ∈ ps, ∀ u, IsSlice s p.start p.stop u ↔ u = p.lexeme.text
  texts : ps.flatMap (·.lexeme.text) = s

theorem byteLength_pos {s : List Char} (h : s ≠ []) : 0 < byteLength s := by
  obtain ⟨c, s, rfl⟩ := List.exists_cons_of_ne_nil h
  exact Nat.add_pos_left c.utf8Size_pos _

/-- A place between characters is where one beginning of the text ends. -/
theorem append_inj_of_byteLength {a b x y : List Char} (h : a ++ x = b ++ y)
    (hlength : byteLength a = byteLength b) : a = b ∧ x = y := by
  have hnil : ∀ {r : List Char}, byteLength r = 0 → r = [] := by
    intro r hr
    by_contra hne
    exact absurd hr (Nat.ne_of_gt (byteLength_pos hne))
  rcases List.append_eq_append_iff.1 h with ⟨r, rfl, rfl⟩ | ⟨r, rfl, rfl⟩ <;>
    rw [byteLength_append] at hlength <;> obtain rfl := hnil (r := r) (by omega) <;> simp

/-- **There is one slice between two places**, if any. -/
theorem IsSlice.unique {s u v : List Char} {start stop : Nat} (hu : IsSlice s start stop u)
    (hv : IsSlice s start stop v) : u = v := by
  obtain ⟨a, b, hs, ha, hau⟩ := hu
  obtain ⟨a', b', hs', ha', hav⟩ := hv
  obtain ⟨rfl, hrest⟩ := append_inj_of_byteLength (hs.symm.trans hs') (ha.trans ha'.symm)
  rw [byteLength_append] at hau hav
  exact (append_inj_of_byteLength hrest (by omega)).1

theorem isSlice_of_mem_tiles {u : List Char} {ls : List Lexeme} {p : PlacedLexeme}
    (h : p ∈ tiles (byteLength u) ls) :
    IsSlice (u ++ textOf ls) p.start p.stop p.lexeme.text := by
  induction ls generalizing u with
  | nil => exact absurd h (by simp [tiles])
  | cons l ls ih =>
    rw [tiles, ← byteLength_append] at h
    rcases List.mem_cons.1 h with rfl | h
    · exact ⟨u, textOf ls, rfl, rfl, rfl⟩
    · have hslice := ih h
      rwa [List.append_assoc] at hslice

theorem flatMap_text_tiles (offset : Nat) (ls : List Lexeme) :
    (tiles offset ls).flatMap (·.lexeme.text) = textOf ls := by
  induction ls generalizing offset with
  | nil => rfl
  | cons l ls ih => rw [tiles, List.flatMap_cons, ih, textOf_cons]

theorem map_lexeme_tiles (offset : Nat) (ls : List Lexeme) :
    (tiles offset ls).map (·.lexeme) = ls := by
  induction ls generalizing offset with
  | nil => rfl
  | cons l ls ih => rw [tiles, List.map_cons, ih]

theorem lexeme_mem_of_mem_tiles {offset : Nat} {ls : List Lexeme} {p : PlacedLexeme}
    (h : p ∈ tiles offset ls) : p.lexeme ∈ ls := by
  have hlexemes := map_lexeme_tiles offset ls
  exact hlexemes ▸ List.mem_map_of_mem h

theorem tiles_append (offset : Nat) (ls ms : List Lexeme) :
    tiles offset (ls ++ ms) = tiles offset ls ++ tiles (offset + byteLength (textOf ls)) ms := by
  induction ls generalizing offset with
  | nil => rfl
  | cons l ls ih =>
    rw [List.cons_append, tiles, tiles, ih, textOf_cons, byteLength_append, ← Nat.add_assoc,
      List.cons_append]

theorem take_tiles (k offset : Nat) (ls : List Lexeme) :
    (tiles offset ls).take k = tiles offset (ls.take k) := by
  induction ls generalizing k offset with
  | nil => rw [List.take_nil, tiles, List.take_nil]
  | cons l ls ih =>
    cases k with
    | zero => rfl
    | succ k => rw [tiles, List.take_succ_cons, ih, List.take_succ_cons, tiles]

theorem map_shift_tiles (n offset : Nat) (ls : List Lexeme) :
    (tiles offset ls).map (·.shift n) = tiles (n + offset) ls := by
  induction ls generalizing offset with
  | nil => rfl
  | cons l ls ih =>
    rw [tiles, tiles, List.map_cons, ih, PlacedLexeme.shift, ← Nat.add_assoc]

theorem isChain_tiles (offset : Nat) (ls : List Lexeme) :
    (tiles offset ls).IsChain (fun p q => p.stop = q.start) ∧
      (∀ p ∈ (tiles offset ls).head?, p.start = offset) ∧
      ∀ p ∈ (tiles offset ls).getLast?, p.stop = offset + byteLength (textOf ls) := by
  induction ls generalizing offset with
  | nil => simp [tiles]
  | cons l ls ih =>
    obtain ⟨hchain, hhead, hlast⟩ := ih (offset + byteLength l.text)
    rw [tiles]
    refine ⟨List.isChain_cons.2 ⟨fun q hq => (hhead q hq).symm, hchain⟩, by simp, fun p hp => ?_⟩
    rw [textOf_cons, byteLength_append, ← Nat.add_assoc]
    cases ls with
    | nil =>
      obtain rfl : _ = p := by simpa [tiles] using hp
      rfl
    | cons k ls =>
      rw [List.getLast?_cons_of_ne_nil (by simp [tiles])] at hp
      exact hlast p hp

/-- **The lexemes of a text tile it.** -/
theorem tiling_tiles (s : List Char) : Tiling s (tiles 0 (lexemes s)) := by
  obtain ⟨hchain, hhead, hlast⟩ := isChain_tiles 0 (lexemes s)
  have hslice : ∀ p ∈ tiles 0 (lexemes s), IsSlice s p.start p.stop p.lexeme.text := by
    intro p hp
    have h := isSlice_of_mem_tiles (u := []) hp
    rwa [textOf_lexemes] at h
  rw [textOf_lexemes, Nat.zero_add] at hlast
  refine ⟨hhead, fun p hp => ?_, hchain, hlast, fun p hp u => ⟨fun hu => ?_, fun hu => ?_⟩, ?_⟩
  · obtain ⟨a, b, -, hstart, hstop⟩ := hslice p hp
    obtain ⟨c, -, -, -, htext⟩ := exists_startingWith (lexeme_mem_of_mem_tiles hp)
    have hpos : 0 < byteLength p.lexeme.text := byteLength_pos (htext ▸ List.cons_ne_nil _ _)
    rw [byteLength_append] at hstop
    omega
  · exact hu.unique (hslice p hp)
  · exact hu ▸ hslice p hp
  · rw [flatMap_text_tiles, textOf_lexemes]

/-! ### Asking a cursor -/

/-- A cursor after it was asked a number of times. -/
def Cursor.after (c : Cursor) : Nat → Cursor
  | 0 => c
  | n + 1 => c.next.2.after n

/-- What a cursor **answers** from the start of a text, the first time it is asked, the second time,
and so on. -/
def answer (s : List Char) (n : Nat) : PlacedLexeme :=
  ((Cursor.ofText s).after n).next.1

/-- A cursor answers with the lexemes of the text that it has still to read, and then with the
`finish`. -/
theorem Cursor.next_after (c : Cursor) (n : Nat) :
    (c.after n).next.1 =
      (tiles c.offset (lexemes c.rest))[n]?.getD (finishAt (c.offset + byteLength c.rest)) := by
  induction n generalizing c with
  | zero =>
    obtain ⟨rest, offset⟩ := c
    cases rest with
    | nil => simp [after, next, Lexeme.first?, lexemes, tiles, finishAt]
    | cons d rest => simp [after, next, Lexeme.first?, lexemes, tiles]
  | succ n ih =>
    obtain ⟨rest, offset⟩ := c
    rw [after, ih]
    cases rest with
    | nil => simp [next, Lexeme.first?, lexemes, tiles]
    | cons d rest =>
      have happend := congrArg byteLength (Lexeme.startingWith_append d rest)
      rw [byteLength_append] at happend
      rw [lexemes, tiles, List.getElem?_cons_succ, ← happend, ← Nat.add_assoc]
      rfl

theorem answer_eq (s : List Char) (n : Nat) :
    answer s n = (tiles 0 (lexemes s))[n]?.getD (finishAt (byteLength s)) := by
  have h := (Cursor.ofText s).next_after n
  rwa [Cursor.ofText, Nat.zero_add] at h

theorem length_tiles (offset : Nat) (ls : List Lexeme) : (tiles offset ls).length = ls.length := by
  rw [← List.length_map, map_lexeme_tiles]

/-- A text has no more lexemes than characters. -/
theorem length_lexemes_le (s : List Char) : (lexemes s).length ≤ s.length := by
  induction s using lexemes.induct with
  | case1 => simp [lexemes]
  | case2 c s ih =>
    have hle := Lexeme.length_startingWith c s
    rw [lexemes, List.length_cons, List.length_cons]
    omega

theorem Lexeme.kind_startingWith_ne_finish (c : Char) (s : List Char) :
    (startingWith c s).1.kind ≠ .finish := by
  rcases manner c with ⟨kind, p, hrun, hstart⟩ | ⟨-, hstart⟩ | hstart
  · rw [hstart]
    cases hrun <;> exact Kind.noConfusion
  · rw [hstart]
    exact Kind.noConfusion
  · have hmark : markKind c ≠ .finish := by
      unfold markKind
      split <;> exact Kind.noConfusion
    rw [hstart]
    unfold mark
    split
    exacts [Kind.noConfusion, Kind.noConfusion, Kind.noConfusion, hmark]

theorem kind_ne_finish {s : List Char} {l : Lexeme} (h : l ∈ lexemes s) : l.kind ≠ .finish := by
  obtain ⟨c, u, v, hstart, -⟩ := exists_startingWith h
  have hkind := Lexeme.kind_startingWith_ne_finish c u
  rwa [hstart] at hkind

/-- From the place behind its first lexemes a text gives the other ones, and the answers are so much
further on. -/
theorem answer_drop {s : List Char} {ls ms : List Lexeme} (h : lexemes s = ls ++ ms) (n : Nat) :
    (answer (textOf ms) n).shift (byteLength (textOf ls)) = answer s (ls.length + n) := by
  have hlength : byteLength s = byteLength (textOf ls) + byteLength (textOf ms) := by
    rw [← byteLength_append, ← (lexemes_drop h).1]
  have hfinish : finishAt (byteLength s) =
      (finishAt (byteLength (textOf ms))).shift (byteLength (textOf ls)) := by
    rw [hlength]
    rfl
  rw [answer_eq, answer_eq, (lexemes_drop h).2, h, tiles_append, hfinish, ← length_tiles 0 ls,
    List.getElem?_append_right (Nat.le_add_right _ n), Nat.add_sub_cancel_left, Nat.zero_add,
    ← Nat.add_zero (byteLength (textOf ls)), ← map_shift_tiles, Nat.add_zero, List.getElem?_map,
    Option.getD_map]

/-! ### The tokens -/

/-- Tokens at their places, each behind the blanks before it. -/
def placeTokens (offset : Nat) : List Token → List PlacedLexeme
  | [] => []
  | t :: rest =>
    let start := offset + byteLength t.gap
    ⟨t.lexeme, start, start + byteLength t.text⟩ :: placeTokens (start + byteLength t.text) rest

/-- The tokens of a text at their places, and the `finish` behind them. -/
def placedTokens (s : List Char) : List PlacedLexeme :=
  placeTokens 0 (tokens s) ++ [finishAt (byteLength s)]

theorem placeTokens_tokensAfter (offset : Nat) (gap : List Char) (ls : List Lexeme) :
    placeTokens offset (tokensAfter gap ls) =
      (tiles (offset + byteLength gap) ls).filter (·.lexeme.kind != .blank) := by
  induction ls generalizing offset gap with
  | nil => rfl
  | cons l ls ih =>
    by_cases hl : l.kind = .blank
    · rw [tokensAfter, if_pos hl, ih, tiles, byteLength_append, ← Nat.add_assoc,
        List.filter_cons_of_neg (by simp [hl])]
    · rw [tokensAfter, if_neg hl, placeTokens, ih, tiles,
        List.filter_cons_of_pos (by simp [hl])]
      rfl

theorem place_eq (offset : Nat) (ls : List Lexeme) :
    place offset ls = tiles offset ls ++ [finishAt (offset + byteLength (textOf ls))] := by
  induction ls generalizing offset with
  | nil => rfl
  | cons l ls ih =>
    rw [place, ih, tiles, textOf_cons, byteLength_append, Nat.add_assoc, List.cons_append]

theorem placedLexemes_eq (s : List Char) :
    placedLexemes s = tiles 0 (lexemes s) ++ [finishAt (byteLength s)] := by
  rw [placedLexemes, place_eq, textOf_lexemes, Nat.zero_add]

/-- The tokens are the lexemes that are not blank, at the same places. -/
theorem placedTokens_eq (s : List Char) :
    placedTokens s = (placedLexemes s).filter (·.lexeme.kind != .blank) := by
  rw [placedTokens, tokens, placeTokens_tokensAfter, placedLexemes_eq, List.filter_append]
  rfl

/-! ### The cursor and its tiles -/

/-- **A cursor gives the tiles of its text.** For every text there are lexemes at places in bytes
that tile it, no more than it has characters. Asked again and again, a cursor at the start of the
text answers with them in a row and then with the empty `finish` at the end of the text, for ever.
Left without the blank ones, they are the tokens of the text. At each place between them, a cursor
that starts there gives those that are left, counted from there. And each of them is what a cursor
gives that has nothing but its text. -/
theorem cursor_tiles (s : List Char) :
    ∃ ps : List PlacedLexeme,
      Tiling s ps ∧ ps.length ≤ s.length ∧ (∀ p ∈ ps, p.lexeme.kind ≠ .finish) ∧
      (∀ n, answer s n = ps[n]?.getD (finishAt (byteLength s))) ∧
      placedLexemes s = ps ++ [finishAt (byteLength s)] ∧
      placedTokens s = (placedLexemes s).filter (·.lexeme.kind != .blank) ∧
      (∀ k ≤ ps.length, ∃ u v, s = u ++ v ∧ u = (ps.take k).flatMap (·.lexeme.text) ∧
        ∀ n, (answer v n).shift (byteLength u) = answer s (k + n)) ∧
      ∀ p ∈ ps, (answer p.lexeme.text 0).lexeme = p.lexeme ∧
        answer p.lexeme.text 1 = finishAt (byteLength p.lexeme.text) := by
  refine ⟨tiles 0 (lexemes s), tiling_tiles s, ?_,
    fun p hp => kind_ne_finish (lexeme_mem_of_mem_tiles hp), answer_eq s, placedLexemes_eq s,
    placedTokens_eq s, fun k hk => ?_, fun p hp => ?_⟩
  · rw [length_tiles]
    exact length_lexemes_le s
  · have hsplit : lexemes s = (lexemes s).take k ++ (lexemes s).drop k :=
      (List.take_append_drop k _).symm
    rw [length_tiles] at hk
    refine ⟨_, _, (lexemes_drop hsplit).1, ?_, fun n => ?_⟩
    · rw [take_tiles, flatMap_text_tiles]
    · rw [answer_drop hsplit, List.length_take_of_le hk]
  · rw [answer_eq, answer_eq, lexemes_text (lexeme_mem_of_mem_tiles hp)]
    exact ⟨rfl, rfl⟩

/-- Places count bytes, and a string that is not closed goes on to the end. -/
example : placedLexemes "é::'x\\".toList =
    [⟨⟨.word, ['é']⟩, 0, 2⟩, ⟨⟨.doubleColon, [':', ':']⟩, 2, 4⟩,
      ⟨⟨.quoted, ['\'', 'x', '\\']⟩, 4, 7⟩, finishAt 7] := by decide +kernel

end SchemaHistory.Source

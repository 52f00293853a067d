import SchemaHistory.Proofs.AsciiWords
import SchemaHistory.Statement

/-!
# Quiet lines

Two readers look at every line before the statements of a table are considered: one looks for the
head of the reverse direction, `function down(`, and one for a raw alteration,
`alter table … modify`. Either finds its phrase anywhere on the line, so it takes an argument to
see that a statement of a script holds neither.

Both phrases begin in the same way: a word that ends in `n` or `r`, blanks, and a word that starts
with `d` or `t` and is followed by a blank or a parenthesis. A small automaton watches for that
(`SchemaHistory.Watch`). It reads a line from left to right, so a line can be watched piece by
piece, and a piece is **quiet** (`SchemaHistory.Quiet`) if nothing is found on it and it leaves no
half of the pattern behind. What both readers find, the automaton finds
(`SchemaHistory.Quiet.opensDown_eq`, `SchemaHistory.Quiet.parse?_eq`).
-/

namespace SchemaHistory

open Text

/-- What an automaton has **seen** last. -/
inductive Watch
  /-- Nothing that matters. -/
  | idle
  /-- The end of a first word. -/
  | primed
  /-- Blanks behind a first word. -/
  | gap
  /-- The start of a second word behind a first one and blanks. -/
  | word
  deriving DecidableEq

namespace Watch

/-- Whether a character can end the first word. -/
def endsFirst (c : Char) : Bool :=
  c.toLower == 'n' || c.toLower == 'r'

/-- Whether a character can start the second word. -/
def startsSecond (c : Char) : Bool :=
  c.toLower == 'd' || c.toLower == 't'

/-- The automaton after one more character; nothing if the pattern is complete. -/
def step (w : Watch) (c : Char) : Option Watch :=
  match w with
  | word => if isBlank c || c == '(' then none else if isAsciiLetter c then word else idle
  | idle => if endsFirst c then primed else idle
  | primed => if isBlank c then gap else if endsFirst c then primed else idle
  | gap =>
    if isBlank c then gap
    else if startsSecond c then word
    else if endsFirst c then primed else idle

/-- The automaton after a text. -/
def run (w : Watch) : List Char → Option Watch
  | [] => w
  | c :: s => (w.step c).bind fun v => v.run s

/-- Whether no half of the pattern has been seen. -/
def isCalm (w : Watch) : Bool :=
  w == idle || w == primed

theorem run_append (w : Watch) (s t : List Char) :
    w.run (s ++ t) = (w.run s).bind fun v => v.run t := by
  induction s generalizing w with
  | nil => rfl
  | cons c s ih =>
    rw [List.cons_append, run, run, Option.bind_assoc]
    exact congrArg _ (funext fun v => ih v)

end Watch

/-- A text is **quiet** if the automaton finds nothing on it and is left without half of the
pattern. -/
def Quiet (s : List Char) : Prop :=
  ∀ w : Watch, w.isCalm = true → ∃ v : Watch, v.isCalm = true ∧ w.run s = some v

theorem Quiet.nil : Quiet [] := fun w hw => ⟨w, hw, rfl⟩

theorem Quiet.append {s t : List Char} (hs : Quiet s) (ht : Quiet t) : Quiet (s ++ t) := by
  intro w hw
  obtain ⟨v, hv, hws⟩ := hs w hw
  obtain ⟨u, hu, hvt⟩ := ht v hv
  refine ⟨u, hu, ?_⟩
  rw [Watch.run_append, hws]
  exact hvt

/-! ### What is quiet -/

namespace Watch

/-- Only a blank or a parenthesis completes the pattern. -/
theorem exists_step {c : Char} (hblank : isBlank c = false) (hparen : c ≠ '(') (w : Watch) :
    ∃ v, w.step c = some v := by
  have hend : (isBlank c || c == '(') = false := by simp [hblank, hparen]
  cases w with
  | idle => rw [step]; split <;> exact ⟨_, rfl⟩
  | primed => rw [step, hblank, if_neg (by simp)]; split <;> exact ⟨_, rfl⟩
  | gap =>
    rw [step, hblank, if_neg (by simp)]
    split
    · exact ⟨_, rfl⟩
    · split <;> exact ⟨_, rfl⟩
  | word => rw [step, hend, if_neg (by simp)]; split <;> exact ⟨_, rfl⟩

theorem exists_run {s : List Char} (h : ∀ c ∈ s, isBlank c = false ∧ c ≠ '(') (w : Watch) :
    ∃ v, w.run s = some v := by
  induction s generalizing w with
  | nil => exact ⟨w, rfl⟩
  | cons c s ih =>
    obtain ⟨hblank, hparen⟩ := h c List.mem_cons_self
    obtain ⟨v, hv⟩ := exists_step hblank hparen w
    obtain ⟨u, hu⟩ := ih (fun d hd => h d (List.mem_cons_of_mem c hd)) v
    exact ⟨u, by rw [run, hv]; exact hu⟩

/-- A mark that is no part of the pattern leaves nothing of it. -/
theorem step_quote (w : Watch) : w.step '\'' = some idle := by
  cases w <;> decide

end Watch

theorem quiet_of_not_isBlank {s : List Char} (h : ∀ c ∈ s, isBlank c = false) : Quiet s := by
  induction s with
  | nil => exact .nil
  | cons c s ih =>
    have hc : isBlank c = false := h c List.mem_cons_self
    have hfirst : Quiet [c] := by
      intro w hw
      have hrun : ∀ w : Watch, w.run [c] = w.step c := fun w => by
        rw [Watch.run]
        exact Option.bind_fun_some _
      rw [hrun]
      cases w with
      | idle => rw [Watch.step]; split <;> exact ⟨_, by decide, rfl⟩
      | primed => rw [Watch.step, hc, if_neg (by simp)]; split <;> exact ⟨_, by decide, rfl⟩
      | gap => exact absurd hw (by decide)
      | word => exact absurd hw (by decide)
    exact hfirst.append (ih fun d hd => h d (List.mem_cons_of_mem c hd))

/-- A quoted text of one word, or of two with a space between them, is quiet. -/
theorem quiet_quoted {u v : List Char} (hu : ∀ c ∈ u, isBlank c = false)
    (hv : ∀ c ∈ v, isBlank c = false ∧ c ≠ '(') : Quiet ('\'' :: (u ++ ' ' :: (v ++ ['\'']))) := by
  intro w _
  refine ⟨.idle, by decide, ?_⟩
  obtain ⟨x, hx, hxu⟩ := quiet_of_not_isBlank hu .idle (by decide)
  obtain ⟨y, hy⟩ : ∃ y, x.step ' ' = some y := by
    cases x <;> first | exact absurd hx (by decide) | exact ⟨_, rfl⟩
  obtain ⟨z, hz⟩ := Watch.exists_run hv y
  have hend : z.run ['\''] = some .idle := by rw [Watch.run, Watch.step_quote]; rfl
  rw [Watch.run, Watch.step_quote, Option.bind_some, Watch.run_append, hxu, Option.bind_some,
    Watch.run, hy, Option.bind_some, Watch.run_append, hz, Option.bind_some, hend]

/-- Closed texts are seen to be quiet by running the automaton. -/
theorem Quiet.of_run {s : List Char} {v u : Watch} (hidle : Watch.idle.run s = some v)
    (hprimed : Watch.primed.run s = some u) (hv : v.isCalm = true) (hu : u.isCalm = true) :
    Quiet s := by
  intro w hw
  cases w with
  | idle => exact ⟨v, hv, hidle⟩
  | primed => exact ⟨u, hu, hprimed⟩
  | gap => exact absurd hw (by decide)
  | word => exact absurd hw (by decide)

/-! ### What the readers find -/

namespace Watch

theorem isAsciiLetter_of_endsFirst {c : Char} (h : endsFirst c = true) :
    isAsciiLetter c = true := by
  rw [endsFirst, Bool.or_eq_true, beq_iff_eq, beq_iff_eq] at h
  refine isAsciiLetter_of_toLower ?_
  rcases h with h | h <;> rw [h] <;> decide

theorem isAsciiLetter_of_startsSecond {c : Char} (h : startsSecond c = true) :
    isAsciiLetter c = true := by
  rw [startsSecond, Bool.or_eq_true, beq_iff_eq, beq_iff_eq] at h
  refine isAsciiLetter_of_toLower ?_
  rcases h with h | h <;> rw [h] <;> decide

/-- The first word leaves the automaton primed, or in a second word. -/
theorem run_first {u : List Char} (hu : ∀ c ∈ u, isAsciiLetter c = true) {c : Char}
    (hc : endsFirst c = true) (w : Watch) :
    w.run (u ++ [c]) = some primed ∨ w.run (u ++ [c]) = some word := by
  have hletter := isAsciiLetter_of_endsFirst hc
  obtain ⟨hblank, hparen⟩ := not_isBlank_of_isAsciiLetter hletter
  have hsecond : startsSecond c = false := by
    rw [endsFirst, Bool.or_eq_true, beq_iff_eq, beq_iff_eq] at hc
    rcases hc with hc | hc <;> simp [startsSecond, hc]
  obtain ⟨x, hx⟩ := exists_run (fun d hd => not_isBlank_of_isAsciiLetter (hu d hd)) w
  have hstep : x.step c = some primed ∨ x.step c = some word := by
    cases x <;> simp [step, hc, hblank, hparen, hsecond, hletter]
  have hrun : w.run (u ++ [c]) = x.step c := by
    rw [run_append, hx]
    exact Option.bind_fun_some _
  rwa [hrun]

/-- In a second word the automaton stays for as long as there are letters. -/
theorem run_word {u : List Char} (hu : ∀ c ∈ u, isAsciiLetter c = true) :
    word.run u = some word := by
  induction u with
  | nil => rfl
  | cons c u ih =>
    have hc := hu c List.mem_cons_self
    obtain ⟨hblank, hparen⟩ := not_isBlank_of_isAsciiLetter hc
    have hstep : word.step c = some word := by simp [step, hblank, hparen, hc]
    rw [run, hstep]
    exact ih fun d hd => hu d (List.mem_cons_of_mem c hd)

theorem run_gap {u : List Char} (hu : ∀ c ∈ u, isBlank c = true) : gap.run u = some gap := by
  induction u with
  | nil => rfl
  | cons c u ih =>
    have hstep : gap.step c = some gap := by simp [step, hu c List.mem_cons_self]
    rw [run, hstep]
    exact ih fun d hd => hu d (List.mem_cons_of_mem c hd)

/-- **The automaton finds the pattern** wherever it stands. -/
theorem run_pattern {first blanks second : List Char} {last start blank stop : Char}
    (hfirst : ∀ c ∈ first, isAsciiLetter c = true) (hlast : endsFirst last = true)
    (hblank : isBlank blank = true) (hblanks : ∀ c ∈ blanks, isBlank c = true)
    (hstart : startsSecond start = true) (hsecond : ∀ c ∈ second, isAsciiLetter c = true)
    (hstop : isBlank stop = true ∨ stop = '(') (rest : List Char) (w : Watch) :
    w.run (first ++ [last] ++ (blank :: blanks ++ (start :: second ++ stop :: rest))) = none := by
  have hend : word.run (stop :: rest) = none := by
    have hstep : word.step stop = none := by
      rcases hstop with h | rfl
      · simp [step, h]
      · rfl
    rw [run, hstep]
    rfl
  have htwo : gap.run (start :: second ++ stop :: rest) = none := by
    have hletter := isAsciiLetter_of_startsSecond hstart
    have hstep : gap.step start = some word := by
      simp [step, (not_isBlank_of_isAsciiLetter hletter).1, hstart]
    rw [List.cons_append, run, hstep, Option.bind_some, run_append, run_word hsecond,
      Option.bind_some, hend]
  rw [run_append]
  rcases run_first hfirst hlast w with h | h <;> rw [h, Option.bind_some, List.cons_append, run]
  · have hstep : primed.step blank = some gap := by simp [step, hblank]
    rw [hstep, Option.bind_some, run_append, run_gap hblanks, Option.bind_some, htwo]
  · have hstep : word.step blank = none := by simp [step, hblank]
    rw [hstep]
    rfl

end Watch

/-! ### From the readers to the automaton -/

theorem exists_blanks_of_trimStart (s : List Char) :
    ∃ bs, (∀ c ∈ bs, isBlank c = true) ∧ s = bs ++ trimStart s :=
  ⟨s.takeWhile isBlank, List.all_eq_true.1 List.all_takeWhile,
    List.takeWhile_append_dropWhile.symm⟩

theorem eq_append_of_afterBlanks? {s r : List Char} (h : Alteration.afterBlanks? s = some r) :
    ∃ b bs, isBlank b = true ∧ (∀ c ∈ bs, isBlank c = true) ∧ s = b :: bs ++ r := by
  cases s with
  | nil => simp [Alteration.afterBlanks?] at h
  | cons b s =>
    rw [Alteration.afterBlanks?] at h
    split at h
    · obtain rfl := Option.some.inj h
      obtain ⟨bs, hbs, hs⟩ := exists_blanks_of_trimStart s
      exact ⟨b, bs, ‹_›, hbs, congrArg (b :: ·) hs⟩
    · exact absurd h (by simp)

theorem eq_append_of_afterKeyword? {k s r : List Char} (h : Alteration.afterKeyword? k s = some r) :
    ∃ u, u.map Char.toLower = k ∧ s = u ++ r := by
  fun_induction Alteration.afterKeyword? k s with
  | case1 s => exact ⟨[], rfl, Option.some.inj h⟩
  | case2 => exact absurd h (by simp)
  | case3 ks c s ih =>
    obtain ⟨u, hu, hs⟩ := ih h
    exact ⟨c :: u, by rw [List.map_cons, hu], by rw [hs, List.cons_append]⟩
  | case4 => exact absurd h (by simp)

/-- A word in any letter case, and the blanks behind it. -/
theorem eq_append_of_afterKeywordAndBlanks? {k s r : List Char}
    (h : Alteration.afterKeywordAndBlanks? k s = some r) :
    ∃ u b bs, u.map Char.toLower = k ∧ isBlank b = true ∧ (∀ c ∈ bs, isBlank c = true) ∧
      s = u ++ (b :: bs ++ r) := by
  obtain ⟨s', hs', hr⟩ := Option.bind_eq_some_iff.1 h
  obtain ⟨u, hu, rfl⟩ := eq_append_of_afterKeyword? hs'
  obtain ⟨b, bs, hb, hbs, rfl⟩ := eq_append_of_afterBlanks? hr
  exact ⟨u, b, bs, hu, hb, hbs, rfl⟩

theorem isAsciiLetter_of_map {u k : List Char} (h : u.map Char.toLower = k)
    (hk : ∀ c ∈ k, isAsciiLetter c = true) : ∀ c ∈ u, isAsciiLetter c = true := fun _ hc =>
  isAsciiLetter_of_toLower (hk _ (h ▸ List.mem_map_of_mem hc))

/-- **The head of the reverse direction is found.** -/
theorem run_of_afterDownHead? {s r : List Char} (h : Statement.afterDownHead? s = some r)
    (w : Watch) : w.run s = none := by
  obtain ⟨s1, h1, hdown⟩ := Option.bind_eq_some_iff.1 h
  obtain ⟨s2, h2, hword⟩ := Option.bind_eq_some_iff.1 hdown
  obtain ⟨s3, h3, hopen⟩ := Option.bind_eq_some_iff.1 hword
  have hparen := eq_append_of_afterPrefix? hopen
  obtain rfl := eq_append_of_afterPrefix? h1
  obtain ⟨b, bs, hb, hbs, rfl⟩ := eq_append_of_afterBlanks? h2
  obtain rfl := eq_append_of_afterPrefix? h3
  obtain ⟨cs, hcs, hs3⟩ := exists_blanks_of_trimStart s3
  -- A blank or the parenthesis itself stands behind the word.
  obtain ⟨stop, rest, hstop, hrest⟩ : ∃ stop rest, (isBlank stop = true ∨ stop = '(') ∧
      s3 = stop :: rest := by
    rw [hparen] at hs3
    cases cs with
    | nil => exact ⟨_, _, Or.inr rfl, hs3⟩
    | cons c cs => exact ⟨c, _, Or.inl (hcs c List.mem_cons_self), hs3⟩
  have hfirst : ∀ c ∈ "functio".toList, isAsciiLetter c = true := by decide
  have hsecond : ∀ c ∈ "own".toList, isAsciiLetter c = true := by decide
  have hlast : Watch.endsFirst 'n' = true := by decide
  have hstart : Watch.startsSecond 'd' = true := by decide
  rw [hrest]
  exact Watch.run_pattern hfirst hlast hb hbs hstart hsecond hstop rest w

/-- **A raw alteration is found.** -/
theorem run_of_match? {s : List Char} {m : Alteration.Match} (h : Alteration.match? s = some m)
    (w : Watch) : w.run s = none := by
  obtain ⟨s1, h1, hrest⟩ := Option.bind_eq_some_iff.1 h
  obtain ⟨s2, h2, -⟩ := Option.bind_eq_some_iff.1 hrest
  obtain ⟨u, b, bs, hu, hb, hbs, hs⟩ := eq_append_of_afterKeywordAndBlanks? h1
  obtain ⟨v, b', bs', hv, hb', hbs', hs1⟩ := eq_append_of_afterKeywordAndBlanks? h2
  have huletters := isAsciiLetter_of_map hu (by decide)
  have hvletters := isAsciiLetter_of_map hv (by decide)
  obtain ⟨last, hlast, hr⟩ : ∃ last, u.getLast? = some last ∧ last.toLower = 'r' := by
    have hlast : (u.map Char.toLower).getLast? = some 'r' := by rw [hu]; rfl
    rw [List.getLast?_map] at hlast
    exact Option.map_eq_some_iff.1 hlast
  obtain ⟨first, rfl⟩ := List.getLast?_eq_some_iff.1 hlast
  obtain ⟨start, second, rfl, ht, -⟩ : ∃ start second, v = start :: second ∧
      start.toLower = 't' ∧ second.map Char.toLower = "able".toList := List.map_eq_cons_iff.1 hv
  have hfirst : Watch.endsFirst last = true := by simp [Watch.endsFirst, hr]
  have hstart : Watch.startsSecond start = true := by simp [Watch.startsSecond, ht]
  rw [hs, hs1]
  exact Watch.run_pattern (fun c hc => huletters c (List.mem_append_left _ hc)) hfirst hb hbs hstart
    (fun c hc => hvletters c (List.mem_cons_of_mem _ hc)) (Or.inl hb') (bs' ++ s2) w

/-- A reader finds nothing on a text on which the automaton gets through. -/
theorem firstMatch?_eq_none {α : Type} {f : List Char → Option α}
    (hf : ∀ s a, f s = some a → ∀ w : Watch, w.run s = none) {s : List Char} {w v : Watch}
    (h : w.run s = some v) : firstMatch? f s = none := by
  have hnone : ∀ {s : List Char} {w v : Watch}, w.run s = some v → f s = none := by
    intro s w v hrun
    cases hs : f s with
    | none => rfl
    | some a =>
      rw [hf s a hs w] at hrun
      exact absurd hrun (by simp)
  induction s generalizing w with
  | nil => exact hnone h
  | cons c s ih =>
    obtain ⟨x, -, hx⟩ := Option.bind_eq_some_iff.1 h
    rw [firstMatch?, hnone h]
    exact ih hx

/-- **The head of the reverse direction stands on no quiet line.** -/
theorem Quiet.opensDown_eq {s : List Char} (h : Quiet s) : Statement.opensDown s = false := by
  obtain ⟨v, -, hv⟩ := h .idle rfl
  rw [Statement.opensDown, firstMatch?_eq_none (fun _ _ => run_of_afterDownHead?) hv]
  rfl

/-- **A raw alteration stands on no quiet line.** -/
theorem Quiet.parse?_eq {s : List Char} (h : Quiet s) : Alteration.parse? s = none := by
  obtain ⟨v, -, hv⟩ := h .idle rfl
  rw [Alteration.parse?, firstMatch?_eq_none (fun _ _ => run_of_match?) hv]
  rfl

end SchemaHistory

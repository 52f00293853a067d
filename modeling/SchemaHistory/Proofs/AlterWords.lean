import Mathlib.Data.List.TakeWhile
import SchemaHistory.Proofs.QuietLines

/-!
# The words of an SQL statement

SQL leaves much freedom to who writes a statement: the keywords are in any letter case, the gaps
between words are of any width, and names are in backticks or not. Each kind of word is a structure
that carries what makes it one, and each has one lemma that says how it is read, whatever follows:
a keyword and the gap behind it (`SchemaHistory.Sql.Keyword.afterKeywordAndBlanks?_append`), a name
in front of a gap (`SchemaHistory.Sql.Name.name?_append`), and a name as the first word of a
definition (`SchemaHistory.Sql.Name.splitWord_append`).

A statement goes on for as long as no quote, semicolon or line break stands in it, and what follows
is cut off (`SchemaHistory.Sql.takeWhile_goesOn`). The call that a statement stands in is passed
over (`SchemaHistory.Sql.parse?_call`).
-/

namespace SchemaHistory

open Text Source

namespace Sql

open Alteration

/-! ### Words -/

/-- A **keyword** in any letter case. -/
structure Keyword (k : String) where
  text : List Char
  spells : text.map Char.toLower = k.toList

/-- A **gap** between two words of a line. -/
structure Gap where
  text : List Char
  ne_nil : text ≠ []
  isBlank_of_mem : ∀ c ∈ text, isBlank c = true
  oneLine : '\n' ∉ text

/-- One space. -/
def Gap.space : Gap :=
  ⟨[' '], by decide, by decide, by decide⟩

/-- A **name**, in backticks or not. -/
structure Name (p : Char → Bool) where
  text : List Char
  ne_nil : text ≠ []
  isPart_of_mem : ∀ c ∈ text, p c = true
  ticked : Bool

/-- What stands at both ends of a name. -/
def Name.tick {p : Char → Bool} (n : Name p) : List Char :=
  if n.ticked then ['\x60'] else []

/-- A name as it is written. -/
def Name.written {p : Char → Bool} (n : Name p) : List Char :=
  n.tick ++ (n.text ++ n.tick)

/-! ### Reading words -/

/-- The parts of names are no blanks, no parentheses, no backticks, and end no statement. -/
theorem class_of_isTablePart {c : Char} (h : isTablePart c = true) :
    endsWord c = false ∧ c ≠ '\x60' ∧ endsStatement c = false := by
  have hword : ∀ {d}, isAsciiWordPart d = true →
      endsWord d = false ∧ d ≠ '\x60' ∧ endsStatement d = false :=
    forall_isAsciiWordPart (P := fun d => endsWord d = false ∧ d ≠ '\x60' ∧
      endsStatement d = false) (by decide)
  simp only [isTablePart, isNamePart, Bool.or_eq_true, beq_iff_eq] at h
  rcases h with (((((hletter | hdigit) | rfl) | rfl) | rfl) | rfl) | rfl
  · exact hword (by simp [isAsciiWordPart, hletter])
  · exact hword (by simp [isAsciiWordPart, hdigit])
  all_goals decide

theorem isTablePart_of_isNamePart (c : Char) (h : isNamePart c = true) : isTablePart c = true := by
  simp [isTablePart, h]

theorem isNamePart_of_isTypePart {c : Char} (h : (isAsciiLetter c || isDigit c) = true) :
    isNamePart c = true := by
  rw [Bool.or_eq_true] at h
  rcases h with h | h <;> simp [isNamePart, h]

theorem isBlank_of_endsWord_eq_false {c : Char} (h : endsWord c = false) : isBlank c = false :=
  (Bool.or_eq_false_iff.1 h).1

theorem head?_append_of_ne_nil {u : List Char} (hu : u ≠ []) {P : Char → Prop}
    (h : ∀ c ∈ u, P c) (s : List Char) : ∀ c ∈ (u ++ s).head?, P c := by
  cases u with
  | nil => exact absurd rfl hu
  | cons d u =>
    intro c hc
    obtain rfl : d = c := by simpa using hc
    exact h d List.mem_cons_self

theorem afterKeyword?_append (u s : List Char) :
    afterKeyword? (u.map Char.toLower) (u ++ s) = some s := by
  induction u with
  | nil => rfl
  | cons c u ih => rw [List.map_cons, List.cons_append, afterKeyword?, if_pos rfl, ih]

namespace Gap

variable (g : Gap) {s : List Char}

theorem trimStart_append (hs : ∀ c ∈ s.head?, isBlank c = false) : trimStart (g.text ++ s) = s := by
  rw [Source.trimStart_append g.isBlank_of_mem, trimStart_of_head hs]

theorem isBlank_head (s : List Char) : ∀ c ∈ (g.text ++ s).head?, isBlank c = true :=
  head?_append_of_ne_nil g.ne_nil g.isBlank_of_mem s

theorem afterBlanks?_append (hs : ∀ c ∈ s.head?, isBlank c = false) :
    afterBlanks? (g.text ++ s) = some s := by
  have htrim := g.trimStart_append hs
  have hhead := g.isBlank_head s
  cases hg : g.text ++ s with
  | nil => exact absurd (List.append_eq_nil_iff.1 hg).1 g.ne_nil
  | cons c r =>
    rw [hg] at htrim hhead
    have hc : isBlank c = true := hhead c rfl
    rw [afterBlanks?, if_pos hc, ← htrim, trimStart, trimStart, List.dropWhile_cons_of_pos hc]

end Gap

theorem Keyword.afterKeywordAndBlanks?_append {word : String} (k : Keyword word) (g : Gap)
    {s : List Char} (hs : ∀ c ∈ s.head?, isBlank c = false) :
    afterKeywordAndBlanks? word.toList (k.text ++ (g.text ++ s)) = some s := by
  rw [afterKeywordAndBlanks?, ← k.spells, afterKeyword?_append, Option.bind_some,
    g.afterBlanks?_append hs]

/-- No keyword begins with a blank. -/
theorem Keyword.isBlank_head {word : String} (k : Keyword word)
    (hword : word.toList ≠ [] ∧ ∀ c ∈ word.toList, isAsciiLetter c = true) (s : List Char) :
    ∀ c ∈ (k.text ++ s).head?, isBlank c = false := by
  have hne : k.text ≠ [] := by
    intro h
    have hspells := k.spells
    rw [h] at hspells
    exact hword.1 hspells.symm
  exact head?_append_of_ne_nil hne (fun c hc =>
    (not_isBlank_of_isAsciiLetter (isAsciiLetter_of_map k.spells hword.2 c hc)).1) s

namespace Name

variable {p : Char → Bool} (hp : ∀ c, p c = true → isTablePart c = true) (n : Name p)

theorem afterTick_append {s : List Char} (hs : ∀ c ∈ s.head?, c ≠ '\x60') :
    afterTick (n.tick ++ s) = s := by
  rw [tick]
  split
  · rfl
  · rw [List.nil_append]
    unfold afterTick
    split
    · exact absurd rfl (hs _ rfl)
    · rfl

include hp

theorem class_of_mem {c : Char} (hc : c ∈ n.text) :
    endsWord c = false ∧ c ≠ '\x60' ∧ endsStatement c = false :=
  class_of_isTablePart (hp c (n.isPart_of_mem c hc))

/-- **A name is read**, if a gap follows it. -/
theorem name?_append (g : Gap) (s : List Char) :
    name? p (n.written ++ (g.text ++ s)) = some (n.text, g.text ++ s) := by
  have htick : ∀ {c}, p c = true → c ≠ '\x60' := fun hc => (class_of_isTablePart (hp _ hc)).2.1
  have hgap : ∀ c ∈ (g.text ++ s).head?, p c = false ∧ c ≠ '\x60' := by
    intro c hc
    have hblank := g.isBlank_head s c hc
    refine ⟨?_, by rintro rfl; exact absurd hblank (by decide)⟩
    rw [← Bool.not_eq_true]
    intro hpart
    rw [isBlank_of_endsWord_eq_false (class_of_isTablePart (hp c hpart)).1] at hblank
    exact absurd hblank (by simp)
  have hstop : ∀ c ∈ (n.tick ++ (g.text ++ s)).head?, p c = false := by
    rw [tick]
    split
    · intro c hc
      obtain rfl : '\x60' = c := by simpa using hc
      rw [← Bool.not_eq_true]
      exact fun hpart => htick hpart rfl
    · exact fun c hc => (hgap c hc).1
  obtain ⟨htake, hdrop⟩ := takeWhile_dropWhile_append n.isPart_of_mem hstop
  have hfirst : afterTick (n.written ++ (g.text ++ s)) = n.text ++ (n.tick ++ (g.text ++ s)) := by
    rw [written, List.append_assoc, List.append_assoc]
    exact n.afterTick_append (head?_append_of_ne_nil n.ne_nil (fun c hc =>
      htick (n.isPart_of_mem c hc)) _)
  have hlast := n.afterTick_append fun c hc => (hgap c hc).2
  rw [name?, hfirst]
  simp only [htake, hdrop, hlast]
  cases htext : n.text with
  | nil => exact absurd htext n.ne_nil
  | cons c text => rfl

theorem isBlank_head (s : List Char) : ∀ c ∈ (n.written ++ s).head?, isBlank c = false := by
  rw [written, List.append_assoc, tick]
  split
  · intro c hc
    obtain rfl : '\x60' = c := by simpa using hc
    decide
  · rw [List.nil_append, List.append_assoc]
    exact head?_append_of_ne_nil n.ne_nil (fun c hc =>
      isBlank_of_endsWord_eq_false (n.class_of_mem hp hc).1) _

end Name

/-! ### The first word of a definition -/

/-- Backticks are trimmed from both ends of a text that has none itself. -/
theorem trimTicks_append {t u r : List Char} (ht : ∀ c ∈ t, c = '\x60') (hne : u ≠ [])
    (hu : ∀ c ∈ u, c ≠ '\x60') (hr : ∀ c ∈ r, c = '\x60') : trimTicks (t ++ (u ++ r)) = u := by
  have hstart : (t ++ (u ++ r)).dropWhile (· == '\x60') = u ++ r :=
    (takeWhile_dropWhile_append (fun c hc => by simp [ht c hc])
      (head?_append_of_ne_nil hne (fun c hc => by simp [hu c hc]) r)).2
  have hend : (r.reverse ++ u.reverse).dropWhile (· == '\x60') = u.reverse :=
    (takeWhile_dropWhile_append (fun c hc => by simp [hr c (List.mem_reverse.1 hc)])
      fun c hc => by simp [hu c (List.mem_reverse.1 (List.mem_of_mem_head? hc))]).2
  rw [trimTicks, hstart, List.reverse_append, hend, List.reverse_reverse]

theorem splitWord_append {u s : List Char} (hu : ∀ c ∈ u, endsWord c = false)
    (hs : ∀ c ∈ s.head?, endsWord c = true) : splitWord (u ++ s) = (trimTicks u, s) := by
  obtain ⟨htake, hdrop⟩ := takeWhile_dropWhile_append (p := fun c => !endsWord c)
    (fun c hc => by simp [hu c hc]) fun c hc => by simp [hs c hc]
  rw [splitWord, htake, hdrop]

theorem Name.splitWord_append {p : Char → Bool} (hp : ∀ c, p c = true → isTablePart c = true)
    (n : Name p) {s : List Char} (hs : ∀ c ∈ s.head?, endsWord c = true) :
    splitWord (n.written ++ s) = (n.text, s) := by
  have htick : ∀ c ∈ n.tick, c = '\x60' := by
    intro c hc
    rw [tick] at hc
    split at hc
    · exact List.mem_singleton.1 hc
    · exact absurd hc (by simp)
  have hword : ∀ c ∈ n.written, endsWord c = false := by
    have hends : ∀ c ∈ n.tick, endsWord c = false := fun c hc => by rw [htick c hc]; decide
    intro c hc
    rw [written, List.mem_append, List.mem_append] at hc
    rcases hc with hc | hc | hc
    · exact hends c hc
    · exact (n.class_of_mem hp hc).1
    · exact hends c hc
  rw [Sql.splitWord_append hword hs, written,
    trimTicks_append htick n.ne_nil (fun c hc => (n.class_of_mem hp hc).2.1) htick]

/-! ### Where a statement ends -/

/-- Whether a statement goes on behind a character. -/
def goesOn (c : Char) : Bool :=
  c != '\n' && !endsStatement c

theorem goesOn_of_isBlank {c : Char} (h : isBlank c = true) (hne : c ≠ '\n') :
    goesOn c = true := by
  have hends : endsStatement c = false := by
    rw [← Bool.not_eq_true, endsStatement]
    intro hc
    simp only [Bool.or_eq_true, beq_iff_eq] at hc
    rcases hc with (rfl | rfl) | rfl <;> exact absurd h (by decide)
  simp [goesOn, hne, hends]

theorem goesOn_of_isTablePart {c : Char} (h : isTablePart c = true) : goesOn c = true := by
  obtain ⟨hword, -, hends⟩ := class_of_isTablePart h
  have hne : c ≠ '\n' := by
    rintro rfl
    exact absurd hword (by decide)
  simp [goesOn, hne, hends]

/-- **A statement is cut where it ends.** -/
theorem takeWhile_goesOn {s behind : List Char} (hs : ∀ c ∈ s, goesOn c = true)
    (hbehind : ∀ c ∈ behind.head?, endsStatement c = true) :
    ((s ++ behind).takeWhile (· != '\n')).takeWhile (fun c => !endsStatement c) = s := by
  rw [List.takeWhile_takeWhile]
  refine (takeWhile_dropWhile_append (fun c hc => ?_) fun c hc => ?_).1
  · have hgoes := hs c hc
    rw [goesOn, Bool.and_eq_true] at hgoes
    simp [hgoes]
  · simp [hbehind c hc]

theorem Gap.goesOn_of_mem (g : Gap) {c : Char} (hc : c ∈ g.text) : goesOn c = true :=
  goesOn_of_isBlank (g.isBlank_of_mem c hc) (by rintro rfl; exact g.oneLine hc)

theorem Name.goesOn_of_mem {p : Char → Bool} (hp : ∀ c, p c = true → isTablePart c = true)
    (n : Name p) {c : Char} (hc : c ∈ n.written) : goesOn c = true := by
  have htick : ∀ c ∈ n.tick, goesOn c = true := by
    rw [tick]
    split
    · simp only [List.mem_singleton, forall_eq]
      decide
    · simp
  rw [written, List.mem_append, List.mem_append] at hc
  rcases hc with hc | hc | hc
  · exact htick c hc
  · exact goesOn_of_isTablePart (hp c (n.isPart_of_mem c hc))
  · exact htick c hc

/-! ### The call around a statement -/

/-- A statement in a call that hands it to the database, in quotes of one kind or the other. -/
def call (quote : Char) (sql : List Char) : List Char :=
  "DB::statement(".toList ++ quote :: (sql ++ quote :: ");".toList)

/-- Where no `a` stands, no alteration begins. -/
theorem parse?_append {u : List Char} (hu : ∀ c ∈ u, c.toLower ≠ 'a') (s : List Char) :
    parse? (u ++ s) = parse? s := by
  induction u with
  | nil => rfl
  | cons c u ih =>
    have hfirst : afterKeyword? "alter".toList (c :: (u ++ s)) = none :=
      if_neg (hu c List.mem_cons_self)
    have hmatch : match? (c :: (u ++ s)) = none := by
      simp only [match?, afterKeywordAndBlanks?, hfirst, Option.bind_eq_bind, Option.bind_none]
    rw [List.cons_append, parse?, firstMatch?, hmatch]
    exact ih fun d hd => hu d (List.mem_cons_of_mem c hd)

/-- Nor does one begin where something else than an `l` stands behind it. -/
theorem parse?_cons_of_head {s : List Char} (hs : ∀ d ∈ s.head?, d.toLower ≠ 'l') :
    parse? ('a' :: s) = parse? s := by
  have hfirst : afterKeyword? "alter".toList ('a' :: s) = none := by
    have hsecond : afterKeyword? "lter".toList s = none := by
      cases s with
      | nil => rfl
      | cons d s => exact if_neg (hs d rfl)
    exact (if_pos (by decide)).trans hsecond
  have hmatch : match? ('a' :: s) = none := by
    simp only [match?, afterKeywordAndBlanks?, hfirst, Option.bind_eq_bind, Option.bind_none]
  rw [parse?, firstMatch?, hmatch, parse?]

/-- **The call in front of a statement is passed over.** -/
theorem parse?_call {quote : Char} (hquote : quote.toLower ≠ 'a') (sql : List Char) :
    parse? (call quote sql) = parse? (sql ++ quote :: ");".toList) := by
  have hcall : call quote sql =
      "DB::st".toList ++
        ('a' :: ("tement(".toList ++ ([quote] ++ (sql ++ quote :: ");".toList)))) :=
    rfl
  have hquote' : ∀ c ∈ [quote], c.toLower ≠ 'a' := by simpa using hquote
  have hhead : ∀ d ∈ ("tement(".toList ++ ([quote] ++ (sql ++ quote :: ");".toList))).head?,
      d.toLower ≠ 'l' := by
    intro d hd
    obtain rfl : 't' = d := by simpa using hd
    decide
  rw [hcall, parse?_append (by decide), parse?_cons_of_head hhead, parse?_append (by decide),
    parse?_append hquote']

end Sql

end SchemaHistory

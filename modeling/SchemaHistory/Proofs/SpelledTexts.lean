import SchemaHistory.Toml.Quoted
import SchemaHistory.Toml.Spelling

/-!
# Spelled texts are read back

The spelling that is chosen for a text depends on what is in it: it stands between double or single
quotes, one or three of them, with escapes or without. Whatever is chosen, a reader that comes to
the spelling finds the text and stops behind the closing quotes
(`SchemaHistory.Toml.text?_spell`), provided that no further quote follows.

The one delicate form is the text over several lines. Quotes may stand in it, and the last of them
may stand right before the three that close it, so that the reader sees a run of up to five. The
inductions therefore carry the number of quotes that were just written, and what follows is either a
run too short to close the text or the rest of the text and the closing quotes
(`SchemaHistory.Toml.quotes_escapeText`).
-/

namespace SchemaHistory.Toml

/-! ### Texts with escapes -/

/-- The digits of the escape of a control character write its number. -/
theorem hexCharacter?_numericEscape {c : Char} (h : c.toNat < 0x20 ∨ c.toNat = 0x7F) :
    (∃ a b d e, numericEscape c = ['\\', 'u', a, b, d, e] ∧
      hexCharacter? [a, b, d, e] = some c) ∧ ∀ m ∈ numericEscape c, m ≠ '\n' ∧ m ≠ '\r' := by
  have hall : ∀ n, n < 0x80 → (n < 0x20 ∨ n = 0x7F) →
      hexCharacter? ((numericEscape (Char.ofNat n)).drop 2) = some (Char.ofNat n) ∧
        ∀ m ∈ numericEscape (Char.ofNat n), m ≠ '\n' ∧ m ≠ '\r' := by
    decide +kernel
  have hchar := hall c.toNat (by omega) h
  rw [Char.ofNat_toNat] at hchar
  exact ⟨⟨_, _, _, _, rfl, hchar.1⟩, hchar.2⟩

section Escaped

variable {lines : Bool}

theorem escapedBody?_short {d c : Char} (h : escaped? d = some c) (t : List Char) :
    escapedBody? lines false ('\\' :: d :: t) =
      (escapedBody? lines false t).map (prepend [c]) := by
  rw [escapedBody?.eq_5, h]
  · rintro - - - - - rfl
    exact absurd h (by simp [escaped?])
  · rintro - - - - - - - - - rfl
    exact absurd h (by simp [escaped?])

theorem escapedBody?_plain {c : Char} (h : isPlain c = true) (hquote : c ≠ '"')
    (hbackslash : c ≠ '\\') (t : List Char) :
    escapedBody? lines false (c :: t) = (escapedBody? lines false t).map (prepend [c]) := by
  rw [escapedBody?.eq_8, if_neg (by simp [hbackslash, h]), Bool.false_and,
    if_neg Bool.false_ne_true]
  · exact hquote
  · exact fun _ _ _ _ _ hc => absurd hc hbackslash
  · exact fun _ _ _ _ _ _ _ _ _ hc => absurd hc hbackslash
  · exact fun _ _ hc => absurd hc hbackslash
  · rintro rfl
    exact absurd h (by decide)
  · rintro - rfl
    exact absurd h (by decide)

/-- A **piece** of a text with escapes that says a character. It starts with no quote, and it breaks
a line only if the character does. -/
structure Says (lines : Bool) (piece : List Char) (c : Char) : Prop where
  start : ∃ d e, piece = d :: e ∧ d ≠ '"'
  breaks : ∀ m ∈ piece, m ≠ '\r' ∧ (m = '\n' → c = '\n')
  read : ∀ t, escapedBody? lines false (piece ++ t) =
    (escapedBody? lines false t).map (prepend [c])

theorem Says.short {d c : Char} (h : escaped? d = some c) : Says lines ['\\', d] c := by
  refine ⟨⟨_, _, rfl, by decide⟩, fun m hm => ?_, escapedBody?_short h⟩
  have hd : d ≠ '\r' ∧ d ≠ '\n' := by
    constructor <;> rintro rfl <;> exact absurd h (by simp [escaped?])
  simp only [List.mem_cons, List.not_mem_nil, or_false] at hm
  rcases hm with rfl | rfl
  · exact ⟨by decide, fun hm => absurd hm (by decide)⟩
  · exact ⟨hd.1, fun hm => absurd hm hd.2⟩

/-- What a character is written as in a text with escapes: itself if it is a double quote of which
few stand in a row, and else a piece that says it. -/
theorem escapeText_cons (lines : Bool) (quotes : Nat) (c : Char) (s : List Char) :
    (c = '"' ∧ lines = true ∧ quotes < 2 ∧
      escapeText lines quotes (c :: s) = '"' :: escapeText lines (quotes + 1) s) ∨
    ∃ piece, escapeText lines quotes (c :: s) = piece ++ escapeText lines 0 s ∧
      Says lines piece c := by
  generalize htext : c :: s = text
  fun_cases escapeText lines quotes text
  case case1 => exact absurd htext (by simp)
  case case2 h =>
    obtain ⟨rfl, rfl⟩ := List.cons.inj htext
    rw [Bool.and_eq_true, decide_eq_true_iff] at h
    exact Or.inl ⟨rfl, h.1, h.2, rfl⟩
  case case6 h =>
    obtain ⟨rfl, rfl⟩ := List.cons.inj htext
    refine Or.inr ⟨['\n'], rfl, ⟨_, _, rfl, by decide⟩, by simp, fun t => ?_⟩
    rw [List.singleton_append, escapedBody?, if_pos h]
    rfl
  case case11 hquote _ _ hnewline _ hreturn hbackslash =>
    obtain ⟨rfl, rfl⟩ := List.cons.inj htext
    split
    case isTrue hcontrol =>
      obtain ⟨⟨a, b, d, e, hnumeric, hhex⟩, hbreaks⟩ := hexCharacter?_numericEscape hcontrol
      refine Or.inr ⟨numericEscape c, rfl, ⟨_, _, hnumeric, by decide⟩, fun m hm =>
        ⟨(hbreaks m hm).2, fun h => absurd h (hbreaks m hm).1⟩, fun t => ?_⟩
      rw [hnumeric]
      simp only [List.cons_append, List.nil_append, escapedBody?, hhex, Option.bind_some]
    case isFalse hcontrol =>
      have hplain : isPlain c = true := by
        simp only [isPlain, Bool.or_eq_true, Bool.and_eq_true, decide_eq_true_eq, bne_iff_ne]
        omega
      refine Or.inr ⟨[c], rfl, ⟨_, _, rfl, hquote⟩, fun m hm => ?_,
        escapedBody?_plain hplain hquote hbackslash⟩
      rw [List.mem_singleton.1 hm]
      exact ⟨hreturn, id⟩
  all_goals
    obtain ⟨rfl, rfl⟩ := List.cons.inj htext
    exact Or.inr ⟨_, rfl, .short rfl⟩

end Escaped

/-- A text with escapes breaks a line only where the text does. -/
theorem breaks_escapeText (lines : Bool) (quotes : Nat) (s : List Char) :
    ∀ m ∈ escapeText lines quotes s, m ≠ '\r' ∧ (m = '\n' → '\n' ∈ s) := by
  induction s generalizing quotes with
  | nil => simp [escapeText]
  | cons c s ih =>
    intro m hm
    rcases escapeText_cons lines quotes c s with ⟨-, -, -, htext⟩ | ⟨piece, htext, hword⟩
    · rw [htext] at hm
      rcases List.mem_cons.1 hm with rfl | hm
      · exact ⟨by decide, fun h => absurd h (by decide)⟩
      · exact ⟨(ih _ m hm).1, fun h => List.mem_cons_of_mem c ((ih _ m hm).2 h)⟩
    · rw [htext] at hm
      rcases List.mem_append.1 hm with hm | hm
      · exact ⟨(hword.breaks m hm).1, fun h => (hword.breaks m hm).2 h ▸ List.mem_cons_self⟩
      · exact ⟨(ih _ m hm).1, fun h => List.mem_cons_of_mem c ((ih _ m hm).2 h)⟩

/-- **A text on one line with escapes** is read back. -/
theorem escapedBody?_escapeText (quotes : Nat) (s rest : List Char) :
    escapedBody? false false (escapeText false quotes s ++ '"' :: rest) = some (s, rest) := by
  induction s generalizing quotes with
  | nil => simp [escapeText, escapedBody?]
  | cons c s ih =>
    rcases escapeText_cons false quotes c s with ⟨-, hlines, -⟩ | ⟨piece, htext, hword⟩
    · exact absurd hlines (by decide)
    · rw [htext, List.append_assoc, hword.read, ih]
      rfl

/-! ### Runs of quotes -/

section Runs

variable {q : Char} {rest : List Char}

/-- Up to two quotes before the closing ones belong to the text. -/
theorem closing?_replicate (hrest : ∀ c ∈ rest.head?, c ≠ q) {k : Nat} (hk : k ≤ 2) :
    closing? q (List.replicate (k + 3) q ++ rest) = some (List.replicate k q, rest) := by
  have hrun : (List.replicate (k + 3) q ++ rest).takeWhile (· == q) = List.replicate (k + 3) q :=
    (Text.takeWhile_dropWhile_append
      (fun c hc => by rw [List.eq_of_mem_replicate hc, beq_self_eq_true])
      fun c hc => beq_false_of_ne (hrest c hc)).1
  have hlength : min (k + 3) 5 = (List.replicate (k + 3) q).length := by
    rw [List.length_replicate]
    omega
  rw [closing?, hrun, if_neg (by simp), List.length_replicate, hlength, List.drop_left,
    List.take_replicate, List.drop_replicate]
  simp only [Option.some.injEq, Prod.mk.injEq, and_true]
  congr 1
  omega

theorem closing?_eq_none {s : List Char} (h : (s.takeWhile (· == q)).length < 3) :
    closing? q s = none := by
  rw [closing?, if_pos h]

end Runs

/-- **The quotes at the start of a text with escapes**, after some that were just written: they are
few, or they are the whole text and stand before the closing ones. -/
theorem quotes_escapeText {quotes : Nat} (hquotes : quotes ≤ 2) (s rest : List Char) :
    ((escapeText true quotes s ++ '"' :: '"' :: '"' :: rest).takeWhile (· == '"')).length ≤
        2 - quotes ∨
      ∃ k, quotes + k ≤ 2 ∧ s = List.replicate k '"' ∧
        escapeText true quotes s ++ '"' :: '"' :: '"' :: rest =
          List.replicate (k + 3) '"' ++ rest := by
  induction s generalizing quotes with
  | nil => exact Or.inr ⟨0, hquotes, rfl, rfl⟩
  | cons c s ih =>
    rcases escapeText_cons true quotes c s with ⟨rfl, -, hlt, htext⟩ | ⟨piece, htext, hword⟩
    · rw [htext, List.cons_append]
      have hle : quotes + 1 ≤ 2 := hlt
      rcases ih hle with hfew | ⟨k, hk, rfl, hall⟩
      · refine Or.inl ?_
        rw [List.takeWhile_cons_of_pos (by simp), List.length_cons]
        omega
      · exact Or.inr ⟨k + 1, by omega, rfl, by rw [hall]; rfl⟩
    · obtain ⟨d, e, rfl, hd⟩ := hword.start
      refine Or.inl ?_
      rw [htext, List.cons_append, List.cons_append, List.takeWhile_cons_of_neg (by simpa using hd)]
      exact Nat.zero_le _

/-- **A text over several lines with escapes** is read back. -/
theorem escapedBody?_lines {rest : List Char} (hrest : ∀ c ∈ rest.head?, c ≠ '"') {quotes : Nat}
    (hquotes : quotes ≤ 2) (s : List Char) :
    escapedBody? true false (escapeText true quotes s ++ '"' :: '"' :: '"' :: rest) =
      some (s, rest) := by
  induction s generalizing quotes with
  | nil =>
    have hclosing := closing?_replicate hrest (k := 0) (by omega)
    change closing? '"' ('"' :: '"' :: '"' :: rest) = _ at hclosing
    rw [escapeText, List.nil_append, escapedBody?, hclosing]
    rfl
  | cons c s ih =>
    rcases escapeText_cons true quotes c s with ⟨rfl, -, hlt, htext⟩ | ⟨piece, htext, hword⟩
    · rw [htext, List.cons_append, escapedBody?]
      have hle : quotes + 1 ≤ 2 := hlt
      rcases quotes_escapeText hle s rest with hfew | ⟨k, hk, rfl, hall⟩
      · have hnone : closing? '"' ('"' :: (escapeText true (quotes + 1) s ++
            '"' :: '"' :: '"' :: rest)) = none := by
          refine closing?_eq_none ?_
          rw [List.takeWhile_cons_of_pos (by simp), List.length_cons]
          omega
        rw [hnone, ih hlt]
        rfl
      · have hclosing := closing?_replicate hrest (k := k + 1) (by omega)
        rw [hall]
        change closing? '"' ('"' :: (List.replicate (k + 3) '"' ++ rest)) = _ at hclosing
        rw [hclosing]
        rfl
    · rw [htext, List.append_assoc, hword.read, ih (Nat.zero_le 2)]
      rfl

/-! ### Texts without escapes -/

/-- **A text on one line without escapes** is read back. -/
theorem literalBody?_line {s : List Char} (hs : ∀ c ∈ s, isPlain c = true ∧ c ≠ '\'')
    (rest : List Char) : literalBody? false (s ++ '\'' :: rest) = some (s, rest) := by
  induction s with
  | nil => rfl
  | cons c s ih =>
    obtain ⟨hplain, hquote⟩ := hs c List.mem_cons_self
    rw [List.cons_append, literalBody?, if_pos hplain,
      ih fun d hd => hs d (List.mem_cons_of_mem c hd)]
    · rfl
    · exact hquote
    · rintro rfl
      exact absurd hplain (by decide)
    · rintro - rfl
      exact absurd hplain (by decide)

theorem le_longestRun (q : Char) (n : Nat) (s : List Char) : n ≤ longestRun q n s := by
  induction s generalizing n with
  | nil => exact Nat.le_refl n
  | cons c s ih =>
    rw [longestRun]
    split
    · exact Nat.le_trans (Nat.le_succ n) (ih (n + 1))
    · exact Nat.le_max_left _ _

theorem not_mem_of_longestRun {q : Char} {n : Nat} {s : List Char} (h : longestRun q n s = 0) :
    q ∉ s := by
  induction s generalizing n with
  | nil => simp
  | cons c s ih =>
    rw [longestRun] at h
    split at h
    case isTrue hc =>
      have hle := le_longestRun q (n + 1) s
      omega
    case isFalse hc =>
      rw [List.mem_cons, not_or]
      exact ⟨fun hq => hc hq.symm, ih (n := 0) (by omega)⟩

/-- The quotes at the start of a text without escapes, after some that were just written. -/
theorem quotes_of_longestRun {quotes : Nat} {s : List Char} (hs : longestRun '\'' quotes s ≤ 2)
    (rest : List Char) :
    ((s ++ '\'' :: '\'' :: '\'' :: rest).takeWhile (· == '\'')).length ≤ 2 - quotes ∨
      ∃ k, quotes + k ≤ 2 ∧ s = List.replicate k '\'' := by
  induction s generalizing quotes with
  | nil => exact Or.inr ⟨0, hs, rfl⟩
  | cons c s ih =>
    rw [longestRun] at hs
    split at hs
    case isTrue hc =>
      subst hc
      rcases ih hs with hfew | ⟨k, hk, rfl⟩
      · have hle := le_longestRun '\'' (quotes + 1) s
        refine Or.inl ?_
        rw [List.cons_append, List.takeWhile_cons_of_pos (by simp), List.length_cons]
        omega
      · exact Or.inr ⟨k + 1, by omega, rfl⟩
    case isFalse hc =>
      refine Or.inl ?_
      rw [List.cons_append, List.takeWhile_cons_of_neg (by simpa using hc)]
      exact Nat.zero_le _

/-- **A text over several lines without escapes** is read back, if few quotes stand in a row. -/
theorem literalBody?_lines {rest : List Char} (hrest : ∀ c ∈ rest.head?, c ≠ '\'') {quotes : Nat}
    {s : List Char} (hs : ∀ c ∈ s, isPlain c = true ∨ c = '\n')
    (hrun : longestRun '\'' quotes s ≤ 2) :
    literalBody? true (s ++ '\'' :: '\'' :: '\'' :: rest) = some (s, rest) := by
  induction s generalizing quotes with
  | nil =>
    have hclosing := closing?_replicate hrest (k := 0) (by omega)
    change closing? '\'' ('\'' :: '\'' :: '\'' :: rest) = _ at hclosing
    rw [List.nil_append, literalBody?, hclosing]
    rfl
  | cons c s ih =>
    have hs' := fun d hd => hs d (List.mem_cons_of_mem c hd)
    rw [longestRun] at hrun
    split at hrun
    case isTrue hc =>
      subst hc
      rw [List.cons_append, literalBody?]
      rcases quotes_of_longestRun hrun rest with hfew | ⟨k, hk, rfl⟩
      · have hle := le_longestRun '\'' (quotes + 1) s
        have hnone : closing? '\'' ('\'' :: (s ++ '\'' :: '\'' :: '\'' :: rest)) = none := by
          refine closing?_eq_none ?_
          rw [List.takeWhile_cons_of_pos (by simp), List.length_cons]
          omega
        rw [hnone, ih hs' hrun]
        rfl
      · have hclosing := closing?_replicate hrest (k := k + 1) (by omega)
        have hall : '\'' :: (List.replicate k '\'' ++ '\'' :: '\'' :: '\'' :: rest) =
            List.replicate (k + 1 + 3) '\'' ++ rest := by
          rw [Nat.add_assoc k 1 3, Nat.add_comm 1 3, ← Nat.add_assoc, List.replicate_succ,
            ← List.replicate_append_replicate, List.cons_append, List.append_assoc]
          rfl
        rw [hall, hclosing]
        rfl
    case isFalse hc =>
      have hrun' : longestRun '\'' 0 s ≤ 2 := by omega
      rcases hs c List.mem_cons_self with hplain | rfl
      · rw [List.cons_append, literalBody?, if_pos hplain, ih hs' hrun']
        · rfl
        · exact hc
        · rintro rfl
          exact absurd hplain (by decide)
        · rintro - rfl
          exact absurd hplain (by decide)
      · rw [List.cons_append, literalBody?, if_pos rfl, ih hs' hrun']
        rfl

/-! ### Spellings -/

/-- Behind the opening quotes of a text over several lines, what breaks no line stays. -/
theorem skipBreak_append {body t : List Char} {q : Char} (hbody : ∀ c ∈ body, c ≠ '\n' ∧ c ≠ '\r')
    (hq : q ≠ '\n' ∧ q ≠ '\r') : skipBreak (body ++ q :: t) = body ++ q :: t := by
  have hbreak : ∀ c t, c ≠ '\n' ∧ c ≠ '\r' → skipBreak (c :: t) = c :: t := by
    intro c t hc
    rw [skipBreak, afterBreak?]
    · rfl
    · exact fun _ h => hc.1 (List.cons.inj h).1
    · exact fun _ h => hc.2 (List.cons.inj h).1
  cases body with
  | nil => exact hbreak q t hq
  | cons c body => exact hbreak c _ (hbody c List.mem_cons_self)

/-- A text stands on one line if no two more quotes follow the opening one. -/
theorem text?_of_ne {q : Char} {s : List Char} (h : ∀ t, s ≠ q :: q :: t) :
    text? (q :: s) = lineText? (q :: s) := by
  rw [text?]
  · rintro t ht
    obtain ⟨rfl, hs⟩ := List.cons.inj ht
    exact h t hs
  · rintro t ht
    obtain ⟨rfl, hs⟩ := List.cons.inj ht
    exact h t hs

section Spelled

variable {s rest : List Char} (hrest : ∀ c ∈ rest.head?, c ≠ '"' ∧ c ≠ '\'')

include hrest

theorem text?_basic : text? (Form.basic.write (s.contains '\n') s ++ rest) = some (s, rest) := by
  have htext : Form.basic.write (s.contains '\n') s ++ rest =
      '"' :: (escapeText false 0 s ++ '"' :: rest) := by
    simp [Form.write, Form.quotes, Form.hasLines, Form.escapes]
  rw [htext, text?_of_ne]
  · exact escapedBody?_escapeText 0 s rest
  · intro t ht
    cases s with
    | nil =>
      have hhead := hrest '"' (by rw [(List.cons.inj ht).2]; rfl)
      exact hhead.1 rfl
    | cons c s =>
      rcases escapeText_cons false 0 c s with ⟨-, hlines, -⟩ | ⟨piece, hpiece, hword⟩
      · exact absurd hlines (by decide)
      · obtain ⟨d, e, rfl, hd⟩ := hword.start
        rw [hpiece] at ht
        exact hd (List.cons.inj ht).1

theorem text?_literal (hs : ∀ c ∈ s, isPlain c = true ∧ c ≠ '\'') :
    text? (Form.literal.write (s.contains '\n') s ++ rest) = some (s, rest) := by
  have htext : Form.literal.write (s.contains '\n') s ++ rest = '\'' :: (s ++ '\'' :: rest) := by
    simp [Form.write, Form.quotes, Form.hasLines, Form.escapes]
  rw [htext, text?_of_ne]
  · exact literalBody?_line hs rest
  · intro t ht
    cases s with
    | nil =>
      have hhead := hrest '\'' (by rw [(List.cons.inj ht).2]; rfl)
      exact hhead.2 rfl
    | cons c s => exact (hs c List.mem_cons_self).2 (List.cons.inj ht).1

theorem text?_basicLines :
    text? (Form.basicLines.write (s.contains '\n') s ++ rest) = some (s, rest) := by
  have hbody := escapedBody?_lines (fun c hc => (hrest c hc).1) (Nat.zero_le 2) s
  cases hnewline : s.contains '\n' with
  | true =>
    have htext : Form.basicLines.write true s ++ rest = '"' :: '"' :: '"' :: '\n' ::
        (escapeText true 0 s ++ '"' :: '"' :: '"' :: rest) := by
      simp [Form.write, Form.quotes, Form.hasLines, Form.escapes]
    rw [htext]
    exact hbody
  | false =>
    have htext : Form.basicLines.write false s ++ rest = '"' :: '"' :: '"' ::
        (escapeText true 0 s ++ '"' :: '"' :: '"' :: rest) := by
      simp [Form.write, Form.quotes, Form.hasLines, Form.escapes]
    have hbreaks : ∀ c ∈ escapeText true 0 s, c ≠ '\n' ∧ c ≠ '\r' := by
      intro c hc
      obtain ⟨hreturn, hbreak⟩ := breaks_escapeText true 0 s c hc
      refine ⟨fun h => ?_, hreturn⟩
      rw [List.contains_iff_mem.2 (hbreak h)] at hnewline
      exact absurd hnewline (by decide)
    rw [htext, text?, skipBreak_append hbreaks (by decide), hbody]

theorem text?_literalLines (hs : ∀ c ∈ s, isPlain c = true ∨ c = '\n')
    (hrun : longestRun '\'' 0 s ≤ 2) :
    text? (Form.literalLines.write (s.contains '\n') s ++ rest) = some (s, rest) := by
  have hbody := literalBody?_lines (fun c hc => (hrest c hc).2) hs hrun
  cases hnewline : s.contains '\n' with
  | true =>
    have htext : Form.literalLines.write true s ++ rest = '\'' :: '\'' :: '\'' :: '\n' ::
        (s ++ '\'' :: '\'' :: '\'' :: rest) := by
      simp [Form.write, Form.quotes, Form.hasLines, Form.escapes]
    rw [htext]
    exact hbody
  | false =>
    have htext : Form.literalLines.write false s ++ rest = '\'' :: '\'' :: '\'' ::
        (s ++ '\'' :: '\'' :: '\'' :: rest) := by
      simp [Form.write, Form.quotes, Form.hasLines, Form.escapes]
    have hbreaks : ∀ c ∈ s, c ≠ '\n' ∧ c ≠ '\r' := by
      intro c hc
      constructor <;> rintro rfl
      · rw [List.contains_iff_mem.2 hc] at hnewline
        exact absurd hnewline (by decide)
      · exact absurd (hs _ hc) (by decide)
    rw [htext, text?, skipBreak_append hbreaks (by decide), hbody]

end Spelled

/-- What is no control character stands for itself, or breaks a line. -/
theorem isPlain_of_isControl {c : Char} (h : isControl c = false) :
    isPlain c = true ∨ c = '\n' := by
  simp only [isControl, isPlain, Bool.or_eq_false_iff, Bool.and_eq_false_iff, decide_eq_false_iff_not,
    bne_eq_false_iff_eq, beq_eq_false_iff_ne, Bool.or_eq_true, Bool.and_eq_true, beq_iff_eq,
    decide_eq_true_eq, bne_iff_ne] at h ⊢
  obtain ⟨(h | rfl) | rfl, hdelete⟩ := h
  · exact Or.inl (Or.inr ⟨by omega, hdelete⟩)
  · exact Or.inl (Or.inl rfl)
  · exact Or.inr rfl

/-- How a text is spelled: in a form with escapes, or in one without, if the text allows it. -/
theorem spell_cases (s : List Char) :
    (∃ f : Form, f.escapes = true ∧ spell s = f.write (s.contains '\n') s) ∨
    ((∀ c ∈ s, isPlain c = true ∧ c ≠ '\'') ∧
      spell s = Form.literal.write (s.contains '\n') s) ∨
    ((∀ c ∈ s, isPlain c = true ∨ c = '\n') ∧ longestRun '\'' 0 s ≤ 2 ∧
      spell s = Form.literalLines.write (s.contains '\n') s) := by
  have hplain : (Traits.of s).control = false → ∀ c ∈ s, isPlain c = true ∨ c = '\n' :=
    fun h c hc => isPlain_of_isControl (by simpa using List.any_eq_false.1 h c hc)
  have hspell : spell s = (Traits.of s).form.write (s.contains '\n') s := rfl
  rw [Traits.form] at hspell
  split at hspell
  · exact Or.inl ⟨_, rfl, hspell⟩
  split at hspell
  · rename_i h
    simp only [Bool.and_eq_true, Bool.not_eq_true', beq_iff_eq] at h
    obtain ⟨⟨hcontrol, hrun⟩, hnewline⟩ := h
    refine Or.inr (Or.inl ⟨fun c hc => ⟨?_, ?_⟩, hspell⟩)
    · refine (hplain hcontrol c hc).resolve_right ?_
      rintro rfl
      exact absurd hnewline (by simpa [Traits.of] using hc)
    · rintro rfl
      exact not_mem_of_longestRun hrun hc
  split at hspell
  · exact Or.inl ⟨_, rfl, hspell⟩
  split at hspell
  · rename_i h
    simp only [Bool.and_eq_true, Bool.not_eq_true', decide_eq_true_eq] at h
    exact Or.inr (Or.inr ⟨hplain h.1, h.2, hspell⟩)
  split at hspell <;> exact Or.inl ⟨_, rfl, hspell⟩

/-- **The spelling of a text is read back**, before anything but a quote. -/
theorem text?_spell (s rest : List Char)
    (hrest : ∀ c ∈ rest.head?, c ≠ '"' ∧ c ≠ '\'') : text? (spell s ++ rest) = some (s, rest) := by
  rcases spell_cases s with ⟨f, hf, hspell⟩ | ⟨hs, hspell⟩ | ⟨hs, hrun, hspell⟩
  · rw [hspell]
    cases f with
    | basic => exact text?_basic hrest
    | basicLines => exact text?_basicLines hrest
    | _ => exact absurd hf (by decide)
  · rw [hspell]
    exact text?_literal hrest hs
  · rw [hspell]
    exact text?_literalLines hrest hs hrun

/-- A spelling has no carriage return. -/
theorem not_mem_spell (s : List Char) : '\r' ∉ spell s := by
  have hquotes : ∀ f : Form, '\r' ∉ f.quotes := by
    intro f
    cases f <;> decide
  have hwrite : ∀ (f : Form) newline, '\r' ∉ (if f.escapes then escapeText f.hasLines 0 s else s) →
      '\r' ∉ f.write newline s := by
    intro f newline h
    simp only [Form.write, List.mem_append, not_or]
    exact ⟨⟨⟨hquotes f, by split <;> decide⟩, h⟩, hquotes f⟩
  rcases spell_cases s with ⟨f, hf, hspell⟩ | ⟨hs, hspell⟩ | ⟨hs, -, hspell⟩
  · rw [hspell]
    refine hwrite f _ ?_
    rw [if_pos hf]
    exact fun h => (breaks_escapeText _ _ s _ h).1 rfl
  · rw [hspell]
    exact hwrite .literal _ fun h => absurd (hs _ h) (by decide)
  · rw [hspell]
    exact hwrite .literalLines _ fun h => absurd (hs _ h) (by decide)

/-- A spelling starts with a quote. -/
theorem exists_spell (s : List Char) : ∃ q t, spell s = q :: t ∧ (q = '"' ∨ q = '\'') := by
  have hwrite : ∀ (f : Form) newline, ∃ q t, f.write newline s = q :: t ∧ (q = '"' ∨ q = '\'') := by
    intro f newline
    cases f <;> exact ⟨_, _, rfl, by decide⟩
  exact hwrite _ _

end SchemaHistory.Toml

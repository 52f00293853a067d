import SchemaHistory.Proofs.LineCharacters
import SchemaHistory.Proofs.ReadChain
import SchemaHistory.Proofs.Tiling

/-!
# Captured text means the same in a new place

Defaults and parameters are not understood but **captured**: the text between the parentheses of a
call, or what follows its first argument there, is copied into the statement that is written. So it
has to mean there what it meant where it was found, on lines of any kind: with brackets that do not
match, arrays with keys, closures, or strings that look like code.

Two things carry this. The captured text ends in front of another token, so its tokens are the same
wherever it stands, as long as the character behind it stops them
(`SchemaHistory.Source.Captured.tokens_append`); this is where it matters that the call is closed,
since a string that is left open could swallow what it is put in front of. And the reader counts
brackets from depth zero, no matter of what shape: it starts at zero behind the parenthesis that
opens and is back at zero at the comma behind the first argument, so both texts stand inside a
parenthesis by themselves (`SchemaHistory.Source.Inside`).
-/

namespace SchemaHistory

open Source Text

namespace Source

/-! ### How lexemes end -/

theorem IsRun.not_isBlank {kind : Kind} {p : Char → Bool} (h : IsRun kind p) (hk : kind ≠ .blank)
    {c : Char} (hc : p c = true) : isBlank c = false := by
  cases h
  exacts [absurd rfl hk, isBlank_of_isNumberPart hc, isBlank_of_isVariablePart hc,
    isBlank_of_isWordPart hc]

/-- A string with anything behind it ends with its delimiter. -/
theorem getLast?_untilClosed {q : Char} {s : List Char} (h : (untilClosed q s).2 ≠ []) :
    (untilClosed q s).1.getLast? = some q := by
  fun_induction untilClosed q s with
  | case1 => exact absurd rfl h
  | case2 c rest ih =>
    have hlast := ih h
    have hne := List.ne_nil_of_mem (List.mem_of_getLast? hlast)
    rw [List.getLast?_cons_of_ne_nil (List.cons_ne_nil c _), List.getLast?_cons_of_ne_nil hne,
      hlast]
  | case3 => rfl
  | case4 c rest hnot hc ih =>
    have hlast := ih h
    have hne := List.ne_nil_of_mem (List.mem_of_getLast? hlast)
    rw [List.getLast?_cons_of_ne_nil hne, hlast]

/-- A lexeme is blank if it starts with a blank. -/
theorem Lexeme.kind_startingWith_eq_blank_iff {c : Char} {s : List Char} :
    (startingWith c s).1.kind = .blank ↔ isBlank c = true := by
  constructor
  · intro hkind
    exact isBlank_of_kind hkind c (List.mem_of_mem_head? (text_startingWith c s))
  · intro hc
    unfold startingWith
    rw [if_pos hc]
    rfl

theorem isBlank_of_isQuote {q : Char} (h : isQuote q = true) : isBlank q = false := by
  have hq : q = '\'' ∨ q = '"' ∨ q = '\x60' := by simpa [isQuote, or_assoc] using h
  rcases hq with rfl | rfl | rfl <;> decide

/-- **A lexeme ends in no blank** unless it is blank itself, or a string that is left open. -/
theorem Lexeme.tight_startingWith {c : Char} {s : List Char}
    (hl : (startingWith c s).1.kind ≠ .blank) (ht : (startingWith c s).2 ≠ []) :
    Tight (startingWith c s).1.text := by
  have hc : isBlank c = false :=
    Bool.eq_false_iff.2 fun hc => hl (kind_startingWith_eq_blank_iff.2 hc)
  intro d hd
  rcases manner c with ⟨kind, p, hrun, hstart⟩ | ⟨hquote, hstart⟩ | hstart <;>
    rw [hstart] at hl ht hd
  · rcases List.mem_cons.1 (List.mem_of_getLast? hd) with rfl | hd
    · exact hc
    · exact hrun.not_isBlank hl (List.all_eq_true.1 List.all_takeWhile d hd)
  · have hlast := getLast?_untilClosed ht
    have hne := List.ne_nil_of_mem (List.mem_of_getLast? hlast)
    rw [List.getLast?_cons_of_ne_nil hne, hlast] at hd
    obtain rfl : c = d := by simpa using hd
    exact isBlank_of_isQuote hquote
  · unfold mark at hd
    split at hd <;> obtain rfl := Option.some.inj hd
    exacts [by decide, by decide, by decide, hc]

/-! ### Stretches of tokens -/

/-- Tokens with other blanks before the first of them. -/
def regap (g : List Char) : List Token → List Token
  | [] => []
  | t :: ts => ⟨g, t.lexeme⟩ :: ts

@[simp] theorem regap_nil (g : List Char) : regap g [] = [] := rfl

@[simp] theorem regap_cons (g : List Char) (t : Token) (ts : List Token) :
    regap g (t :: ts) = ⟨g, t.lexeme⟩ :: ts := rfl

@[simp] theorem regap_eq_nil {g : List Char} {ts : List Token} : regap g ts = [] ↔ ts = [] := by
  cases ts <;> simp

@[simp] theorem map_kind_regap (g : List Char) (ts : List Token) :
    (regap g ts).map Token.kind = ts.map Token.kind := by
  cases ts <;> rfl

theorem sourceText_regap (g : List Char) {ts : List Token} (hne : ts ≠ []) :
    sourceText (regap g ts) = g ++ textFromFirst ts := by
  obtain ⟨t, ts, rfl⟩ := List.exists_cons_of_ne_nil hne
  simp [sourceText, textFromFirst, Token.text]

/-- Blanks already read make up the gap of the first token. -/
theorem tokensAfter_eq_regap {ls : List Lexeme} (h : ∀ l ∈ ls.head?, l.kind ≠ .blank)
    (g : List Char) : tokensAfter g ls = regap g (tokensAfter [] ls) := by
  cases ls with
  | nil => rfl
  | cons l ls => rw [tokensAfter, tokensAfter, if_neg (h l rfl), if_neg (h l rfl), regap_cons]

/-- Blanks in front of a text are put before its first token. -/
theorem tokens_append_gap {g s : List Char} (hg : ∀ c ∈ g, isBlank c = true)
    (hs : ∀ c ∈ s.head?, isBlank c = false) : tokens (g ++ s) = regap g (tokens s) := by
  have hfirst : ∀ l ∈ (lexemes s).head?, l.kind ≠ .blank := by
    intro l hl hkind
    obtain ⟨ls, hlexemes⟩ := List.head?_eq_some_iff.1 hl
    obtain ⟨c, u, rfl, hstart, -⟩ := lexemes_eq_cons hlexemes
    have hc : isBlank c = true := Lexeme.kind_startingWith_eq_blank_iff.1 (by rw [hstart, hkind])
    exact absurd hc (by simp [hs c rfl])
  rw [tokens_gap hg hs, tokensAfter_eq_regap hfirst, tokens]

/-- Lexemes can be split where their tokens can. -/
theorem tokensAfter_split {gap : List Char} {ls : List Lexeme} {ts us : List Token} {u : Token}
    (h : tokensAfter gap ls = ts ++ u :: us) :
    ∃ ks ms, ls = ks ++ u.lexeme :: ms ∧ u.lexeme.kind ≠ .blank ∧
      tokensAfter gap (ks ++ [u.lexeme]) = ts ++ [u] ∧ tokensAfter [] ms = us := by
  induction ls generalizing gap ts with
  | nil => exact absurd h.symm (by simp [tokensAfter])
  | cons l ls ih =>
    by_cases hl : l.kind = .blank
    · rw [tokensAfter, if_pos hl] at h
      obtain ⟨ks, ms, rfl, hu, hks, hms⟩ := ih h
      exact ⟨l :: ks, ms, rfl, hu, by rw [List.cons_append, tokensAfter, if_pos hl, hks], hms⟩
    · rw [tokensAfter, if_neg hl] at h
      cases ts with
      | nil =>
        obtain ⟨rfl, rfl⟩ := List.cons.inj h
        exact ⟨[], ls, rfl, hl, by simp [tokensAfter, hl], rfl⟩
      | cons t ts =>
        obtain ⟨rfl, hrest⟩ := List.cons.inj h
        obtain ⟨ks, ms, rfl, hu, hks, hms⟩ := ih hrest
        refine ⟨l :: ks, ms, rfl, hu, ?_, hms⟩
        rw [List.cons_append, tokensAfter, if_neg hl, hks, List.cons_append]

/-- A stretch of tokens is **captured** from a line if it stands there in front of another token. -/
def Captured (ts : List Token) : Prop :=
  ∃ s before behind, tokens s = before ++ (ts ++ behind) ∧ behind ≠ []

theorem Captured.suffix {ts us : List Token} (h : Captured ts) (hus : us <:+ ts) : Captured us := by
  obtain ⟨s, before, behind, hs, hbehind⟩ := h
  obtain ⟨vs, rfl⟩ := hus
  exact ⟨s, before ++ vs, behind, by simpa using hs, hbehind⟩

/-- The lexemes that a captured stretch is made of, the last of them apart, and those behind it. -/
structure Captured.Lexemes (ts : List Token) (ls : List Lexeme) (l : Lexeme) (ms : List Lexeme) :
    Prop where
  eq : lexemes (textOf (ls ++ l :: ms)) = ls ++ l :: ms
  behind : ms ≠ []
  first : ∀ k ∈ (ls ++ [l]).head?, k.kind ≠ .blank
  last : l.kind ≠ .blank
  tokens : ∀ g, tokensAfter g (ls ++ [l]) = regap g ts

theorem Captured.exists_lexemes {ts : List Token} (h : Captured ts) (hne : ts ≠ []) :
    ∃ ls l ms, Lexemes ts ls l ms := by
  obtain ⟨s, before, behind, hs, hbehind⟩ := h
  obtain ⟨t, ts, rfl⟩ := List.exists_cons_of_ne_nil hne
  rw [List.cons_append] at hs
  obtain ⟨ks, ns, hlexemes, ht, -, hns⟩ := tokensAfter_split hs
  -- The stretch begins with the lexeme of its first token; where it ends, its last token says.
  have htokens : tokensAfter [] (t.lexeme :: ns) = ⟨[], t.lexeme⟩ :: (ts ++ behind) := by
    rw [tokensAfter, if_neg ht, hns]
  obtain ⟨us, u, hlast⟩ : ∃ us u, (⟨[], t.lexeme⟩ :: ts : List Token) = us ++ [u] :=
    ⟨_, _, (List.dropLast_append_getLast (List.cons_ne_nil _ ts)).symm⟩
  rw [← List.cons_append, hlast, List.append_assoc, List.singleton_append] at htokens
  obtain ⟨ls, ms, hsplit, hu, hls, hms⟩ := tokensAfter_split htokens
  have hfirst : ∀ k ∈ (ls ++ [u.lexeme]).head?, k.kind ≠ .blank := by
    have hhead : (t.lexeme :: ns).head? = (ls ++ [u.lexeme]).head? := by
      rw [hsplit]
      cases ls <;> rfl
    intro k hk
    rw [← hhead] at hk
    obtain rfl : t.lexeme = k := by simpa using hk
    exact ht
  refine ⟨ls, u.lexeme, ms, by rw [← hsplit, (lexemes_drop hlexemes).2], ?_, hfirst, hu,
    fun g => ?_⟩
  · rintro rfl
    exact hbehind hms.symm
  · rw [tokensAfter_eq_regap hfirst, hls, ← hlast]
    rfl

namespace Captured.Lexemes

variable {ts : List Token} {ls : List Lexeme} {l : Lexeme} {ms : List Lexeme}

/-- The same, with the last lexeme in its row. -/
theorem eq_append (h : Lexemes ts ls l ms) :
    lexemes (textOf (ls ++ l :: ms)) = (ls ++ [l]) ++ ms := by
  rw [h.eq, List.append_assoc, List.singleton_append]

theorem textOf_eq (h : Lexemes ts ls l ms) (hne : ts ≠ []) :
    textOf (ls ++ [l]) = textFromFirst ts := by
  have hlast : ∀ k ∈ (ls ++ [l]).getLast?, k.kind ≠ .blank := by simpa using h.last
  have hsource := sourceText_tokensAfter [] (List.append_ne_nil_of_right_ne_nil ls (by simp)) hlast
  rw [h.tokens, sourceText_regap [] hne] at hsource
  exact hsource.symm

/-- A captured text starts with no blank. -/
theorem isBlank_head? (h : Lexemes ts ls l ms) :
    ∀ c ∈ (textOf (ls ++ [l])).head?, isBlank c = false := by
  have hsplit := h.eq_append
  have hfirst := h.first
  cases hrow : ls ++ [l] with
  | nil => simp
  | cons k ks =>
    rw [hrow] at hsplit hfirst
    obtain ⟨c, u, -, hstart, -, htext⟩ := lexemes_eq_cons hsplit
    intro d hd
    rw [textOf_cons, htext] at hd
    obtain rfl : c = d := by simpa using hd
    have hblank := Lexeme.kind_startingWith_eq_blank_iff (c := c) (s := u)
    rw [hstart] at hblank
    exact Bool.eq_false_iff.2 fun hc => hfirst k rfl (hblank.2 hc)

/-- A captured text ends with no blank, since it ends in front of something. -/
theorem tight (h : Lexemes ts ls l ms) : Tight (textOf (ls ++ [l])) := by
  obtain ⟨c, u, -, hstart, -, htext⟩ := lexemes_eq_cons (lexemes_drop h.eq).2
  have htight := Lexeme.tight_startingWith (c := c) (s := u) (by rw [hstart]; exact h.last)
    (by rw [hstart]; exact textOf_ne_nil h.eq_append h.behind)
  rw [hstart] at htight
  rw [textOf_append, textOf_cons, textOf_nil, List.append_nil]
  exact htight.append_left (by rw [htext]; exact List.cons_ne_nil _ _) _

end Captured.Lexemes

/-- What is captured starts and ends with no blank. -/
theorem Captured.tight {ts : List Token} (h : Captured ts) :
    (∀ c ∈ (textFromFirst ts).head?, isBlank c = false) ∧ Tight (textFromFirst ts) := by
  by_cases hne : ts = []
  · subst hne
    exact ⟨by simp [textFromFirst], by simp [Tight, textFromFirst]⟩
  · obtain ⟨ls, l, ms, hlexemes⟩ := h.exists_lexemes hne
    rw [← hlexemes.textOf_eq hne]
    exact ⟨hlexemes.isBlank_head?, hlexemes.tight⟩

/-- **Captured tokens are the same wherever their text stands**, if the character behind it stops
them. -/
theorem Captured.tokens_append {ts : List Token} (h : Captured ts) {g : List Char}
    (hg : ∀ c ∈ g, isBlank c = true) (hgap : ts = [] → g = []) {d : Char} (hd : isStop d = true)
    (s : List Char) :
    tokens (g ++ (textFromFirst ts ++ d :: s)) = regap g ts ++ tokens (d :: s) := by
  by_cases hne : ts = []
  · subst hne
    rw [hgap rfl]
    rfl
  · obtain ⟨ls, l, ms, hlexemes⟩ := h.exists_lexemes hne
    have hhead : ∀ c ∈ (textFromFirst ts ++ d :: s).head?, isBlank c = false := by
      intro c hc
      cases htext : textFromFirst ts with
      | nil =>
        obtain rfl : d = c := by simpa [htext] using hc
        exact (isStop_iff.1 hd).1
      | cons e u => exact h.tight.1 c (by simpa [htext] using hc)
    rw [tokens_gap hg hhead, ← hlexemes.textOf_eq hne,
      lexemes_cut hlexemes.eq_append hlexemes.behind hd,
      tokensAfter_append (by simp) (by simpa using hlexemes.last), hlexemes.tokens, Source.tokens]

theorem isBlank_gap_tokensAfter {gap : List Char} {ls : List Lexeme}
    (hls : ∀ l ∈ ls, l.kind = .blank → ∀ c ∈ l.text, isBlank c = true)
    (hgap : ∀ c ∈ gap, isBlank c = true) :
    ∀ t ∈ tokensAfter gap ls, ∀ c ∈ t.gap, isBlank c = true := by
  induction ls generalizing gap with
  | nil => simp [tokensAfter]
  | cons l ls ih =>
    rw [List.forall_mem_cons] at hls
    by_cases hl : l.kind = .blank
    · rw [tokensAfter, if_pos hl]
      refine ih hls.2 fun c hc => ?_
      exact (List.mem_append.1 hc).elim (hgap c) (hls.1 hl c)
    · rw [tokensAfter, if_neg hl, List.forall_mem_cons]
      exact ⟨hgap, ih hls.2 (by simp)⟩

/-- The blank lexemes of a text are made of blanks. -/
theorem isBlank_of_mem_lexemes {s : List Char} :
    ∀ l ∈ lexemes s, l.kind = .blank → ∀ c ∈ l.text, isBlank c = true := by
  intro l hl hkind
  obtain ⟨c, u, v, hstart, -⟩ := exists_startingWith hl
  have hblank := isBlank_of_kind (c := c) (s := u) (by rw [hstart]; exact hkind)
  rwa [hstart] at hblank

/-- Every token of a text is one of its lexemes, and not blank. -/
theorem lexeme_mem_of_mem_tokens {s : List Char} {t : Token} (ht : t ∈ tokens s) :
    t.lexeme ∈ lexemes s ∧ t.kind ≠ .blank := by
  obtain ⟨before, behind, hsplit⟩ := List.append_of_mem ht
  obtain ⟨ls, ms, hlexemes, hkind, -, -⟩ := tokensAfter_split hsplit
  exact ⟨by simp [hlexemes], hkind⟩

/-- Only blanks stand in the gaps of tokens. -/
theorem isBlank_gap {s : List Char} : ∀ t ∈ tokens s, ∀ c ∈ t.gap, isBlank c = true :=
  isBlank_gap_tokensAfter isBlank_of_mem_lexemes (by simp)

/-- Tokens leave out the blanks at the end of a row, and nothing else. -/
theorem exists_sourceText_append {gap : List Char} {ls : List Lexeme}
    (hls : ∀ l ∈ ls, l.kind = .blank → ∀ c ∈ l.text, isBlank c = true)
    (hgap : ∀ c ∈ gap, isBlank c = true) :
    ∃ g, (∀ c ∈ g, isBlank c = true) ∧ sourceText (tokensAfter gap ls) ++ g = gap ++ textOf ls := by
  induction ls generalizing gap with
  | nil => exact ⟨gap, hgap, by simp [tokensAfter, sourceText]⟩
  | cons l ls ih =>
    rw [List.forall_mem_cons] at hls
    by_cases hl : l.kind = .blank
    · have hgap' : ∀ c ∈ gap ++ l.text, isBlank c = true := fun c hc =>
        (List.mem_append.1 hc).elim (hgap c) (hls.1 hl c)
      obtain ⟨g, hg, htext⟩ := ih hls.2 hgap'
      exact ⟨g, hg, by rw [tokensAfter, if_pos hl, htext, textOf_cons, List.append_assoc]⟩
    · obtain ⟨g, hg, htext⟩ := ih hls.2 (List.forall_mem_nil _)
      refine ⟨g, hg, ?_⟩
      rw [tokensAfter, if_neg hl, sourceText, List.flatMap_cons, ← sourceText, List.append_assoc,
        htext, textOf_cons, List.nil_append, List.append_assoc, Token.text]

/-- A line is the text of its tokens, and the blanks behind them. -/
theorem exists_sourceText_tokens (s : List Char) :
    ∃ g, (∀ c ∈ g, isBlank c = true) ∧ sourceText (tokens s) ++ g = s := by
  have h := exists_sourceText_append (isBlank_of_mem_lexemes (s := s)) (List.forall_mem_nil _)
  rwa [textOf_lexemes, List.nil_append] at h

/-- Trimming takes away the gap of the first token that is captured, and nothing else. -/
theorem Captured.trim_sourceText {ts : List Token} (h : Captured ts) :
    trim (sourceText ts) = textFromFirst ts := by
  obtain ⟨hfirst, hlast⟩ := h.tight
  cases ts with
  | nil => rfl
  | cons t ts =>
    obtain ⟨s, before, behind, hs, -⟩ := h
    have hgap := isBlank_gap (s := s) t (by simp [hs])
    have htext : sourceText (t :: ts) = t.gap ++ textFromFirst (t :: ts) := by
      simp [sourceText, textFromFirst]
    rw [htext, trim_append hgap, trim_of_tight hfirst hlast]

/-! ### Brackets -/

/-- Whether a parenthesis among tokens closes at depth zero. -/
def closesParen : Nat → List Token → Bool
  | _, [] => false
  | depth, t :: rest =>
    (t.kind == .closeParen && depth == 0) || closesParen (depthAfter depth t.kind) rest

/-- **What stands before the parenthesis that closes is inside it.** -/
theorem exists_of_closesParen {d : Nat} {ts : List Token} (h : closesParen d ts = true) :
    ∃ p, p.kind = .closeParen ∧ ts = (untilCloseParen d ts).1 ++ p :: (untilCloseParen d ts).2 ∧
      Inside d ((untilCloseParen d ts).1.map Token.kind) := by
  induction ts generalizing d with
  | nil => exact absurd h (by simp [closesParen])
  | cons t ts ih =>
    by_cases ht : t.kind = .closeParen ∧ d = 0
    · rw [untilCloseParen, if_pos ht]
      exact ⟨t, ht.1, rfl, ht.2⟩
    · have hrest : closesParen (depthAfter d t.kind) ts = true := by
        rw [closesParen, Bool.or_eq_true] at h
        exact h.resolve_left (by simpa using ht)
      obtain ⟨p, hp, hts, hinside⟩ := ih hrest
      rw [untilCloseParen, if_neg ht]
      exact ⟨p, hp, congrArg (t :: ·) hts, ht, hinside⟩

/-- What follows a comma at depth zero is inside the same parenthesis. -/
theorem Inside.afterComma? {d : Nat} {ts us : List Token} (h : Inside d (ts.map Token.kind))
    (hus : afterComma? d ts = some us) : Inside 0 (us.map Token.kind) := by
  induction ts generalizing d with
  | nil => exact absurd hus (by simp [Source.afterComma?])
  | cons t ts ih =>
    rw [Source.afterComma?] at hus
    split at hus
    · rename_i hcomma
      obtain rfl := Option.some.inj hus
      have hdepth : depthAfter d t.kind = 0 := by rw [hcomma.1, hcomma.2]; rfl
      exact hdepth ▸ h.2
    · exact ih h.2 hus

/-! ### Arguments -/

theorem afterComma?_regap (d : Nat) (g : List Char) (ts : List Token) :
    afterComma? d (regap g ts) = afterComma? d ts := by
  cases ts <;> rfl

theorem pieces_regap (d : Nat) (g : List Char) (ts : List Token) :
    pieces d (regap g ts) = (pieces d ts).modifyHead (regap g) := by
  cases ts with
  | nil => rfl
  | cons t ts =>
    have hkind : (⟨g, t.lexeme⟩ : Token).kind = t.kind := rfl
    rw [regap_cons, pieces, pieces, hkind]
    split
    · rfl
    · split <;> rfl

/-- The first comma at depth zero ends the first piece. -/
theorem exists_pieces_of_afterComma? {d : Nat} {ts us : List Token}
    (h : afterComma? d ts = some us) : ∃ p, pieces d ts = p :: pieces 0 us := by
  induction ts generalizing d with
  | nil => exact absurd h (by simp [afterComma?])
  | cons t ts ih =>
    rw [afterComma?] at h
    rw [pieces]
    split at h
    · rename_i hcomma
      obtain rfl := Option.some.inj h
      exact ⟨[], by rw [if_pos hcomma]⟩
    · rename_i hcomma
      obtain ⟨p, hp⟩ := ih h
      exact ⟨t :: p, by rw [if_neg hcomma, hp]⟩

end Source

namespace Argument

/-- An argument does not depend on the blanks before it. -/
theorem ofTokens_regap (g : List Char) (ts : List Token) : ofTokens (regap g ts) = ofTokens ts := by
  match ts with
  | [] => rfl
  | [t] => rw [regap_cons, ofTokens, ofTokens]; rfl
  | t :: u :: rest => rw [regap_cons, ofTokens, ofTokens]; rfl

theorem map_ofTokens_modifyHead (g : List Char) (ps : List (List Token)) :
    (ps.modifyHead (regap g)).map ofTokens = ps.map ofTokens := by
  cases ps with
  | nil => rfl
  | cons p ps => rw [List.modifyHead_cons, List.map_cons, ofTokens_regap, List.map_cons]

theorem listOfTokens_regap (g : List Char) (ts : List Token) :
    listOfTokens (regap g ts) = listOfTokens ts := by
  rw [listOfTokens, listOfTokens, pieces_regap]
  cases pieces 0 ts with
  | nil => rfl
  | cons p ps =>
    rw [List.modifyHead_cons]
    cases ps with
    | nil =>
      cases p with
      | nil => rfl
      | cons t p => exact congrArg (fun a => [a]) (ofTokens_regap g (t :: p))
    | cons q ps =>
      have hne : q :: ps ≠ [] := List.cons_ne_nil q ps
      rw [List.getLast?_cons_of_ne_nil hne, List.getLast?_cons_of_ne_nil hne,
        List.dropLast_cons_of_ne_nil hne, List.dropLast_cons_of_ne_nil hne]
      split <;> simp only [List.map_cons, ofTokens_regap]

/-- The first argument ends at the first comma. -/
theorem listOfTokens_eq_cons {ts us p : List Token} (h : pieces 0 ts = p :: pieces 0 us) :
    listOfTokens ts = ofTokens p :: listOfTokens us := by
  have hne : pieces 0 us ≠ [] := pieces_ne_nil 0 us
  rw [listOfTokens, listOfTokens, h, List.getLast?_cons_of_ne_nil hne,
    List.dropLast_cons_of_ne_nil hne]
  split <;> rfl

end Argument

/-! ### Calls -/

namespace Call

/-- The calls that follow a receiver, each with whether its closing parenthesis is there. -/
def marked : List Token → List (Call × Bool)
  | link :: name :: paren :: rest =>
    if isLink link.kind ∧ name.kind = .word ∧ paren.kind = .openParen then
      (Call.ofTokens (String.ofList name.text) (untilCloseParen 0 rest).1, closesParen 0 rest) ::
        marked (untilCloseParen 0 rest).2
    else []
  | _ => []
termination_by ts => ts.length
decreasing_by
  have := length_untilCloseParen 0 rest
  simp only [List.length_cons]
  omega

theorem map_fst_marked (ts : List Token) : (marked ts).map Prod.fst = sequence ts := by
  fun_induction marked ts with
  | case1 link name paren rest hcall ih => rw [sequence, if_pos hcall, List.map_cons, ih]
  | case2 link name paren rest hcall => rw [sequence, if_neg hcall, List.map_nil]
  | case3 ts hts => rw [sequence, List.map_nil]; exact hts

/-- **A call that is closed stands in front of its parenthesis**, and inside of it. -/
theorem exists_of_mem_marked {c : Call} {ts : List Token} (h : (c, true) ∈ marked ts) :
    ∃ name inside before p behind, c = ofTokens name inside ∧
      ts = before ++ (inside ++ p :: behind) ∧ Inside 0 (inside.map Token.kind) := by
  fun_induction marked ts with
  | case1 link name paren rest hcall ih =>
    rcases List.mem_cons.1 h with h | h
    · obtain ⟨hc, hcloses⟩ := Prod.mk.inj h
      obtain ⟨p, -, hrest, hinside⟩ := exists_of_closesParen hcloses.symm
      exact ⟨_, _, [link, name, paren], p, _, hc, congrArg ([link, name, paren] ++ ·) hrest, hinside⟩
    · obtain ⟨n, inside, before, p, behind, hc, hrest, hinside⟩ := ih h
      obtain ⟨us, hus⟩ := untilCloseParen_suffix 0 rest
      refine ⟨n, inside, [link, name, paren] ++ us ++ before, p, behind, hc, ?_, hinside⟩
      rw [← hus, hrest]
      simp
  | case2 => exact absurd h (by simp)
  | case3 => exact absurd h (by simp)

/-- Whether the text that is captured from a call **survives** being written into another one. -/
structure Survives (c : Call) : Prop where
  /-- Between the parentheses of a default, all arguments are the same. -/
  default : Chained.ofVariable? (tokens ("$t->default(" ++ c.rawArgs ++ ")").toList) =
    some (.calls ⟨"$t", [⟨"default", c.args, c.rawArgs, c.trailingArgs⟩]⟩)
  /-- Behind the name of a column, all arguments but the first one are the same. -/
  parameters : ∀ t, c.trailingArgs = some t →
    Chained.ofVariable? (tokens ("$t->string('c', " ++ t ++ ")").toList) =
      some (.calls ⟨"$t", [⟨"string", .string "c" :: c.args.tail, "'c', " ++ t, some t⟩]⟩)

/-- A call depends on its name and on the tokens between its parentheses without the first gap. -/
theorem ofTokens_regap {inside : List Token} (h : Captured inside) (name name' : String) :
    ofTokens name' (regap [] inside) = ⟨name', (ofTokens name inside).args,
      (ofTokens name inside).rawArgs, (ofTokens name inside).trailingArgs⟩ := by
  have htext : trim (sourceText (regap [] inside)) = trim (sourceText inside) := by
    by_cases hne : inside = []
    · rw [hne, regap_nil]
    · rw [sourceText_regap [] hne, h.trim_sourceText, List.nil_append,
        trim_of_tight h.tight.1 h.tight.2]
  rw [ofTokens, Argument.listOfTokens_regap, htext, afterComma?_regap]
  rfl

/-- What follows the first argument of a call. -/
theorem exists_of_trailingArgs {name t : String} {inside : List Token} (h : Captured inside)
    (ht : (ofTokens name inside).trailingArgs = some t) :
    ∃ us, afterComma? 0 inside = some us ∧ Captured us ∧ textFromFirst us ≠ [] ∧
      t = String.ofList (textFromFirst us) := by
  obtain ⟨s, hs, hsome⟩ := Option.bind_eq_some_iff.1 ht
  obtain ⟨us, hus, rfl⟩ := Option.map_eq_some_iff.1 hs
  have hcaptured := h.suffix (afterComma?_suffix hus)
  rw [hcaptured.trim_sourceText] at hsome
  split at hsome
  · exact absurd hsome (by simp)
  · rename_i hne
    exact ⟨us, hus, hcaptured, by simpa using hne, (Option.some.inj hsome).symm⟩

/-- The chain of one call on a variable, up to its closing parenthesis. -/
theorem ofVariable?_single {v name : List Char} (hv : ∀ c ∈ v, isVariablePart c = true)
    (hname : isName name = true) {s : List Char} {inside : List Token}
    (hs : tokens s = inside ++ [⟨[], ⟨.closeParen, [')']⟩⟩])
    (h : Inside 0 (inside.map Token.kind)) :
    Chained.ofVariable? (tokens ('$' :: (v ++ '-' :: '>' :: (name ++ '(' :: s)))) =
      some (.calls ⟨String.ofList ('$' :: v), [ofTokens (String.ofList name) inside]⟩) := by
  have hend : sequence [] = [] := by simp [sequence]
  have hsequence : sequence (callHead name ++ (inside ++ [⟨[], ⟨.closeParen, [')']⟩⟩])) =
      [ofTokens (String.ofList name) inside] := by
    rw [sequence_of_inside h rfl, hend]
  rw [tokens_variable hv, tokens_callHead hname, hs, ofVariable?_of_sequence hsequence]

/-- The call with the parameters behind the name of a column. -/
theorem ofTokens_parameters {us : List Token} (h : Captured us) (hne : textFromFirst us ≠ []) :
    ofTokens "string" (literalToken "c" :: ⟨[], ⟨.comma, [',']⟩⟩ :: regap [' '] us) =
      ⟨"string", .string "c" :: Argument.listOfTokens us,
        String.ofList ("'c', ".toList ++ textFromFirst us),
        some (String.ofList (textFromFirst us))⟩ := by
  have hus : us ≠ [] := by
    rintro rfl
    exact hne rfl
  obtain ⟨hfirst, hlast⟩ := h.tight
  have hargs : Argument.listOfTokens (literalToken "c" :: ⟨[], ⟨.comma, [',']⟩⟩ :: regap [' '] us) =
      .string "c" :: Argument.listOfTokens us := by
    have hpieces : pieces 0 (literalToken "c" :: ⟨[], ⟨.comma, [',']⟩⟩ :: regap [' '] us) =
        [literalToken "c"] :: pieces 0 (regap [' '] us) :=
      (noComma_literalToken "c").pieces_comma rfl rfl _
    rw [Argument.listOfTokens_eq_cons hpieces, Argument.listOfTokens_regap, ofTokens_literalToken,
      contentOf_eq (by decide)]
  have hraw : trim (sourceText (literalToken "c" :: ⟨[], ⟨.comma, [',']⟩⟩ :: regap [' '] us)) =
      "'c', ".toList ++ textFromFirst us := by
    have hsource : sourceText (literalToken "c" :: ⟨[], ⟨.comma, [',']⟩⟩ :: regap [' '] us) =
        "'c', ".toList ++ textFromFirst us := by
      have hrest := sourceText_regap [' '] hus
      rw [sourceText] at hrest ⊢
      rw [List.flatMap_cons, List.flatMap_cons, hrest]
      rfl
    rw [hsource, trim_of_tight]
    · intro c hc
      obtain rfl : '\'' = c := by simpa using hc
      decide
    · exact hlast.append_left hne _
  have htrailing : trim (sourceText (regap [' '] us)) = textFromFirst us := by
    rw [sourceText_regap _ hus, trim_append (by decide), trim_of_tight hfirst hlast]
  have hcomma : afterComma? 0 (literalToken "c" :: ⟨[], ⟨.comma, [',']⟩⟩ :: regap [' '] us) =
      some (regap [' '] us) := rfl
  have hempty : (textFromFirst us).isEmpty = false := by simpa using hne
  rw [ofTokens, hargs, hraw, hcomma, Option.map_some, htrailing, Option.bind_some, hempty]
  rfl

theorem tokens_closeParen : tokens [')'] = [⟨[], ⟨.closeParen, [')']⟩⟩] := by
  rw [tokens_cons (l := ⟨.closeParen, [')']⟩) (t := []) rfl (by decide), tokens_nil]

/-- What is captured is read in a default as it was. -/
theorem ofVariable?_default {inside : List Token} (h : Captured inside)
    (hinside : Inside 0 (inside.map Token.kind)) (name : String) :
    Chained.ofVariable? (tokens ("$t->default(" ++ (ofTokens name inside).rawArgs ++ ")").toList) =
      some (.calls ⟨"$t", [⟨"default", (ofTokens name inside).args, (ofTokens name inside).rawArgs,
        (ofTokens name inside).trailingArgs⟩]⟩) := by
  have hraw : (ofTokens name inside).rawArgs = String.ofList (textFromFirst inside) := by
    rw [← h.trim_sourceText]
    rfl
  have htext : ("$t->default(" ++ (ofTokens name inside).rawArgs ++ ")").toList =
      '$' :: (['t'] ++ '-' :: '>' :: ("default".toList ++
        '(' :: (textFromFirst inside ++ [')']))) := by
    simp [hraw]
  have htokens : tokens (textFromFirst inside ++ [')']) =
      regap [] inside ++ [⟨[], ⟨.closeParen, [')']⟩⟩] := by
    have happend := h.tokens_append (g := []) (by simp) (fun _ => rfl) (d := ')') (by decide) []
    rwa [tokens_closeParen, List.nil_append] at happend
  rw [htext, ofVariable?_single (by decide) (by decide) htokens (by rwa [map_kind_regap]),
    ofTokens_regap h name]
  rfl

/-- What follows a first argument is read behind the name of a column as it was. -/
theorem ofVariable?_parameters {us : List Token} (h : Captured us)
    (hus : Inside 0 (us.map Token.kind)) (hne : textFromFirst us ≠ []) :
    Chained.ofVariable?
        (tokens ("$t->string('c', " ++ String.ofList (textFromFirst us) ++ ")").toList) =
      some (.calls ⟨"$t", [⟨"string", .string "c" :: Argument.listOfTokens us,
        "'c', " ++ String.ofList (textFromFirst us),
        some (String.ofList (textFromFirst us))⟩]⟩) := by
  have htext : ("$t->string('c', " ++ String.ofList (textFromFirst us) ++ ")").toList =
      '$' :: (['t'] ++ '-' :: '>' :: ("string".toList ++ '(' :: ((literal "c").toList ++
        ',' :: ([' '] ++ (textFromFirst us ++ [')']))))) := by
    simp [toList_literal]
  have htokens : tokens ((literal "c").toList ++ ',' :: ([' '] ++ (textFromFirst us ++ [')']))) =
      (literalToken "c" :: ⟨[], ⟨.comma, [',']⟩⟩ :: regap [' '] us) ++
        [⟨[], ⟨.closeParen, [')']⟩⟩] := by
    have hcomma : tokens (',' :: ([' '] ++ (textFromFirst us ++ [')']))) =
        ⟨[], ⟨.comma, [',']⟩⟩ :: tokens ([' '] ++ (textFromFirst us ++ [')'])) :=
      tokens_cons rfl (by decide)
    have hrest := h.tokens_append (g := [' ']) (by decide) (fun h => absurd (h ▸ rfl) hne)
      (d := ')') (by decide) []
    rw [tokens_literal_append ⟨by decide, by decide⟩, hcomma, hrest, tokens_closeParen]
    rfl
  have hinside : Inside 0 ((literalToken "c" :: ⟨[], ⟨.comma, [',']⟩⟩ :: regap [' '] us).map
      Token.kind) := by
    rw [List.map_cons, List.map_cons, map_kind_regap]
    exact ⟨by decide, by decide, hus⟩
  rw [htext, ofVariable?_single (by decide) (by decide) htokens hinside, String.ofList_toList,
    ofTokens_parameters h hne, String.ofList_append, String.ofList_toList]

/-- **The text that is captured from a closed call survives.** -/
theorem survives_ofTokens {inside : List Token} (h : Captured inside)
    (hinside : Inside 0 (inside.map Token.kind)) (name : String) :
    (ofTokens name inside).Survives := by
  refine ⟨ofVariable?_default h hinside name, fun t ht => ?_⟩
  obtain ⟨us, hus, hcaptured, hne, rfl⟩ := exists_of_trailingArgs h ht
  have htail : (ofTokens name inside).args.tail = Argument.listOfTokens us := by
    have hargs : (ofTokens name inside).args = Argument.listOfTokens inside := rfl
    obtain ⟨p, hp⟩ := exists_pieces_of_afterComma? hus
    rw [hargs, Argument.listOfTokens_eq_cons hp, List.tail_cons]
  rw [htail]
  exact ofVariable?_parameters hcaptured (hinside.afterComma? hus) hne

/-! ### The calls of a line -/

/-- The calls behind the first receiver on a line, each with whether its closing parenthesis is on
the line. -/
def onReceiver (p : Token → Token → Bool) (line : List Char) : List (Call × Bool) :=
  ((findReceiver? p (tokens line)).map fun r => marked r.2).getD []

/-- The calls behind the first variable that an arrow follows. -/
def onVariable (line : List Char) : List (Call × Bool) :=
  onReceiver (fun t u => t.kind == .variable && u.kind == .arrow) line

/-- The calls behind the first mention of a class that a double colon follows. -/
def onClass (name : String) (line : List Char) : List (Call × Bool) :=
  onReceiver (fun t u => t.kind == .word && namesClass name.toList t.text && u.kind == .doubleColon)
    line

/-- Every closed call of a line stands in front of its parenthesis. -/
theorem survives_of_mem_onReceiver {p : Token → Token → Bool} {line : List Char} {c : Call}
    (h : (c, true) ∈ onReceiver p line) : c.Survives := by
  cases hr : findReceiver? p (tokens line) with
  | none => exact absurd h (by simp [onReceiver, hr])
  | some r =>
    have hmem : (c, true) ∈ marked r.2 := by simpa [onReceiver, hr] using h
    obtain ⟨name, inside, before, close, behind, rfl, hts, hinside⟩ := exists_of_mem_marked hmem
    obtain ⟨us, hus⟩ := findReceiver?_suffix hr
    have hcaptured : Captured inside := by
      refine ⟨line, us ++ before, close :: behind, ?_, List.cons_ne_nil _ _⟩
      rw [← hus, hts, List.append_assoc]
    exact survives_ofTokens hcaptured hinside name

end Call

/-- The chain of calls, if calls are chained. -/
def Chained.chain? : Chained → Option Chain
  | .calls chain => some chain
  | .assignment _ _ _ => none

theorem Chained.chain?_eq_some_iff {c : Chained} {chain : Chain} :
    c.chain? = some chain ↔ c = .calls chain := by
  cases c <;> simp [chain?]

/-- The calls that are chained to a receiver are those that follow it. -/
theorem Chained.calls_of_ofReceiver? {receiver : String} {ts : List Token} {chain : Chain}
    (h : ofReceiver? receiver ts = some (.calls chain)) : chain.calls = Call.sequence ts := by
  unfold ofReceiver? at h
  split at h
  · exact absurd h (by simp)
  · split at h
    · exact absurd h (by simp)
    · rename_i call rest hsequence
      obtain rfl : (⟨receiver, call :: rest⟩ : Chain) = chain := by simpa using h
      exact hsequence.symm

/-- **Captured text survives.** For every line, the calls of the chain that is found on it, be it on
a variable or on a class, and for each of them that is closed: the text between its parentheses is
read in a default as the same arguments, with the same text, and the text behind its first argument
is read behind the name of a column as the same arguments but the first one, with the same text. -/
theorem captured_text_survives (line : List Char) :
    (∀ chain, Chained.ofVariable? (tokens line) = some (.calls chain) →
      chain.calls = (Call.onVariable line).map Prod.fst) ∧
    (∀ name chain, Chain.ofClass? name (tokens line) = some chain →
      chain.calls = (Call.onClass name line).map Prod.fst) ∧
    (∀ c, (c, true) ∈ Call.onVariable line → c.Survives) ∧
    ∀ name c, (c, true) ∈ Call.onClass name line → c.Survives := by
  refine ⟨fun chain h => ?_, fun name chain h => ?_, fun c => Call.survives_of_mem_onReceiver,
    fun name c => Call.survives_of_mem_onReceiver⟩
  · obtain ⟨r, hr, hcalls⟩ := Option.bind_eq_some_iff.1 h
    rw [Chained.calls_of_ofReceiver? hcalls, Call.onVariable, Call.onReceiver, hr, Option.map_some,
      Option.getD_some, Call.map_fst_marked]
  · obtain ⟨r, hr, hclass⟩ := Option.bind_eq_some_iff.1 h
    split at hclass
    · rename_i chain' hcalls
      obtain rfl := Option.some.inj hclass
      rw [Chained.calls_of_ofReceiver? hcalls, Call.onClass, Call.onReceiver, hr, Option.map_some,
        Option.getD_some, Call.map_fst_marked]
    · exact absurd hclass (by simp)

/-- A line with a closed call, in which brackets of one shape close those of another, and a call that
is left open. -/
def mixedBrackets : List Char :=
  "f($t->enum('a', [1, 2), 'k' => ')' ] )->b('x, y)".toList

/-- The text of the closed call on this line is read in other calls as it is read here. -/
theorem captured_text_survives_mixedBrackets :
    (Call.onVariable mixedBrackets).map (fun r => (r.1.name, r.2)) =
        [("enum", true), ("b", false)] ∧
      ∃ chain c, Chained.ofVariable? (tokens mixedBrackets) = some (.calls chain) ∧
        c ∈ chain.calls ∧ (c, true) ∈ Call.onVariable mixedBrackets ∧
        c.rawArgs = "'a', [1, 2), 'k' => ')' ]" ∧
        c.trailingArgs = some "[1, 2), 'k' => ')' ]" ∧
        Chained.ofVariable? (tokens "$t->default('a', [1, 2), 'k' => ')' ])".toList) =
          some (.calls ⟨"$t", [⟨"default", c.args, c.rawArgs, c.trailingArgs⟩]⟩) ∧
        Chained.ofVariable? (tokens "$t->string('c', [1, 2), 'k' => ')' ])".toList) =
          some (.calls ⟨"$t", [⟨"string", .string "c" :: c.args.tail,
            "'c', [1, 2), 'k' => ')' ]", c.trailingArgs⟩]⟩) := by
  refine ⟨by decide +kernel, ?_⟩
  obtain ⟨hchain, -, hsurvives, -⟩ := captured_text_survives mixedBrackets
  obtain ⟨chain, hcalls⟩ : ∃ chain,
      (Chained.ofVariable? (tokens mixedBrackets)).bind Chained.chain? = some chain :=
    Option.isSome_iff_exists.1 (by decide +kernel)
  obtain ⟨chained, hchained, hcalls⟩ := Option.bind_eq_some_iff.1 hcalls
  obtain rfl := Chained.chain?_eq_some_iff.1 hcalls
  have hclosed : ("'a', [1, 2), 'k' => ')' ]", some "[1, 2), 'k' => ')' ]", true) ∈
      (Call.onVariable mixedBrackets).map fun r => (r.1.rawArgs, r.1.trailingArgs, r.2) := by
    decide +kernel
  obtain ⟨⟨c, closed⟩, hc, hdata⟩ := List.mem_map.1 hclosed
  obtain ⟨hraw, hdata⟩ := Prod.mk.inj hdata
  obtain ⟨htrailing, rfl⟩ := Prod.mk.inj hdata
  have hmem : c ∈ chain.calls := by
    rw [hchain chain hchained]
    exact List.mem_map_of_mem hc
  -- The statements that are read again, with the captured text in its place.
  have hdefaultText : "$t->default(" ++ "'a', [1, 2), 'k' => ')' ]" ++ ")" =
    "$t->default('a', [1, 2), 'k' => ')' ])" := by decide
  have hrawText : "'c', " ++ "[1, 2), 'k' => ')' ]" = "'c', [1, 2), 'k' => ')' ]" := by decide
  have hcolumnText : "$t->string('c', " ++ "[1, 2), 'k' => ')' ]" ++ ")" =
    "$t->string('c', [1, 2), 'k' => ')' ])" := by decide
  have hdefault := (hsurvives c hc).default
  have hparameters := (hsurvives c hc).parameters _ htrailing
  rw [hraw, hdefaultText] at hdefault
  rw [hcolumnText, hrawText, ← htrailing] at hparameters
  refine ⟨chain, c, hchained, hmem, hc, hraw, htrailing, ?_, hparameters⟩
  rw [hraw]
  exact hdefault

end SchemaHistory

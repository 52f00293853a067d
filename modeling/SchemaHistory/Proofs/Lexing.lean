import SchemaHistory.Proofs.ScannerMoves
import SchemaHistory.Source.Token

/-!
# Reading text that was put together

A statement is written piece by piece, and it is read piece by piece only if no piece reaches into
the next one. Strings and comments are what can reach further than one would like, so a text is
called **sealed** (`SchemaHistory.Source.Sealed`) if every string that starts in it ends in it and
no comment starts in it outside of strings.

A sealed text in front of a character that **stops** every lexeme (`SchemaHistory.Source.isStop`),
such as a closing parenthesis, is read as if it stood alone: its lexemes are its own
(`SchemaHistory.Source.Sealed.lexemes_append`), and so are its tokens
(`SchemaHistory.Source.Sealed.tokens_append`). Removing comments leaves it as it is
(`SchemaHistory.Source.Sealed.stripFrom_eq`).
-/

namespace SchemaHistory.Source

open Text

/-- A property of all characters of a text is decided by going through the text. -/
instance (priority := high) decidableForallMem {p : Char → Prop} [DecidablePred p]
    (s : List Char) : Decidable (∀ c ∈ s, p c) :=
  List.decidableBAll p s

/-! ### Sealed texts -/

/-- The region at the end of a text that starts in a given one; nothing if a comment starts on the
way. -/
def regionAfter : Region → List Char → Option Region
  | .comment, _ => none
  | r, [] => some r
  | .quoted q, '\\' :: _ :: rest => regionAfter (.quoted q) rest
  | .quoted q, c :: rest => regionAfter (if c = q then .code else .quoted q) rest
  | .code, '#' :: _ => none
  | .code, '/' :: '/' :: _ => none
  | .code, '/' :: '*' :: _ => none
  | .code, c :: rest => regionAfter (if isQuote c then .quoted c else .code) rest

/-- A text is **sealed** if its strings are closed and it has no comments. -/
def Sealed (s : List Char) : Prop :=
  regionAfter .code s = some .code

instance (s : List Char) : Decidable (Sealed s) :=
  inferInstanceAs (Decidable (regionAfter .code s = some .code))

/-- Whether a text is **quotable**: between two single quotes it makes up one whole string, since
a backslash stands before each of its single quotes and none is left over at its end. -/
def isQuotable : List Char → Bool
  | [] => true
  | ['\\'] => false
  | '\\' :: _ :: rest => isQuotable rest
  | c :: rest => c != '\'' && isQuotable rest

/-- Whether a character neither delimits a string nor takes part in opening a comment. -/
def isInert (c : Char) : Bool :=
  !isQuote c && c != '#' && c != '/'

theorem isInert_iff {c : Char} :
    isInert c = true ↔ c ≠ '\'' ∧ c ≠ '"' ∧ c ≠ '\x60' ∧ c ≠ '#' ∧ c ≠ '/' := by
  simp [isInert, isQuote, and_assoc]

/-- A class of characters without quotes, `#` and `/` is inert. -/
theorem isInert_of_class {p : Char → Bool} (hp : ∀ c ∈ ['\'', '"', '\x60', '#', '/'], p c = false)
    {c : Char} (h : p c = true) : isInert c = true := by
  rw [isInert_iff]
  refine ⟨?_, ?_, ?_, ?_, ?_⟩ <;> rintro rfl <;> rw [hp _ (by simp)] at h <;> exact absurd h (by simp)

theorem regionAfter_code_cons {c : Char} (s : List Char) (h : isInert c = true) :
    regionAfter .code (c :: s) = regionAfter .code s := by
  obtain ⟨h1, h2, h3, h4, h5⟩ := isInert_iff.1 h
  have hq : isQuote c = false := by simp [isQuote, h1, h2, h3]
  rw [regionAfter]
  · simp [hq]
  · exact h4
  · exact fun _ hc => absurd hc h5
  · exact fun _ hc => absurd hc h5

theorem regionAfter_code_append {u : List Char} (s : List Char) (h : ∀ c ∈ u, isInert c = true) :
    regionAfter .code (u ++ s) = regionAfter .code s := by
  induction u with
  | nil => rfl
  | cons c u ih =>
    rw [List.cons_append, regionAfter_code_cons _ (h c List.mem_cons_self)]
    exact ih fun d hd => h d (List.mem_cons_of_mem c hd)

theorem regionAfter_quote {q : Char} (s : List Char) (h : isQuote q = true) :
    regionAfter .code (q :: s) = regionAfter (.quoted q) s := by
  have hq : q = '\'' ∨ q = '"' ∨ q = '\x60' := by simpa [isQuote, or_assoc] using h
  rcases hq with rfl | rfl | rfl <;> rfl

theorem untilClosed_self {q : Char} (hq : isQuote q = true) (s : List Char) :
    untilClosed q (q :: s) = ([q], s) := by
  rw [untilClosed]
  · exact if_pos rfl
  · rintro d rest rfl
    exact absurd hq (by decide)

/-- Behind its delimiter a string goes on to the closing delimiter, if it has one. -/
theorem regionAfter_quoted {q : Char} (hq : isQuote q = true) {s : List Char}
    (h : regionAfter (.quoted q) s = some .code) (t : List Char) :
    untilClosed q (s ++ t) = ((untilClosed q s).1, (untilClosed q s).2 ++ t) ∧
      regionAfter .code (untilClosed q s).2 = some .code := by
  fun_induction untilClosed q s with
  | case1 => simp [regionAfter] at h
  | case2 c rest ih =>
    rw [regionAfter] at h
    obtain ⟨h1, h2⟩ := ih h
    refine ⟨?_, h2⟩
    rw [List.cons_append, List.cons_append, untilClosed, h1]
  | case3 rest hnot =>
    rw [regionAfter, if_pos rfl] at h
    · exact ⟨by rw [List.cons_append, untilClosed_self hq], h⟩
    · exact fun d r hd => hnot d r hd
  | case4 c rest hnot hc ih =>
    rw [regionAfter, if_neg hc] at h
    · obtain ⟨h1, h2⟩ := ih h
      refine ⟨?_, h2⟩
      rw [List.cons_append, untilClosed, if_neg hc, h1]
      -- A backslash at the very end would leave the string open.
      rintro d r rfl hr
      cases rest with
      | nil => simp [regionAfter] at h
      | cons d' r' => exact hnot d' r' rfl rfl
    · exact fun d r hd => hnot d r hd

/-- The closing quote of a quotable text is the first that closes. -/
theorem untilClosed_of_isQuotable {s : List Char} (h : isQuotable s = true) (t : List Char) :
    untilClosed '\'' (s ++ '\'' :: t) = (s ++ ['\''], t) := by
  fun_induction isQuotable s with
  | case1 => rfl
  | case2 => exact absurd h (by simp)
  | case3 c rest ih =>
    rw [List.cons_append, List.cons_append, untilClosed, ih h]
    rfl
  | case4 c rest hlast hnot ih =>
    simp only [Bool.and_eq_true, bne_iff_ne] at h
    rw [List.cons_append, untilClosed, if_neg h.1, ih h.2]
    · rfl
    · rintro d r rfl hr
      cases rest with
      | nil => exact hlast rfl rfl
      | cons d' r' => exact hnot d' r' rfl rfl

theorem regionAfter_of_isQuotable {s : List Char} (h : isQuotable s = true) (t : List Char) :
    regionAfter (.quoted '\'') (s ++ '\'' :: t) = regionAfter .code t := by
  fun_induction isQuotable s with
  | case1 => rfl
  | case2 => exact absurd h (by simp)
  | case3 c rest ih =>
    rw [List.cons_append, List.cons_append, regionAfter]
    exact ih h
  | case4 c rest hlast hnot ih =>
    simp only [Bool.and_eq_true, bne_iff_ne] at h
    rw [List.cons_append, regionAfter, if_neg h.1]
    · exact ih h.2
    · rintro d r rfl hr
      cases rest with
      | nil => exact hlast rfl rfl
      | cons d' r' => exact hnot d' r' rfl rfl

/-! ### Lexemes -/

theorem lexemes_cons {c : Char} {s t : List Char} {l : Lexeme}
    (h : Lexeme.startingWith c s = (l, t)) : lexemes (c :: s) = l :: lexemes t := by
  rw [lexemes, h]

/-- A run of one kind ends where its class does. -/
theorem run_append {kind : Kind} {p : Char → Bool} {c : Char} {u t : List Char}
    (hu : ∀ d ∈ u, p d = true) (ht : ∀ d ∈ t.head?, p d = false) :
    run kind p c (u ++ t) = (⟨kind, c :: u⟩, t) := by
  obtain ⟨htake, hdrop⟩ := takeWhile_dropWhile_append hu ht
  rw [run, htake, hdrop]

/-- A run that is followed by more text either ends before it or takes it along. -/
theorem run_append_stop {kind : Kind} {p : Char → Bool} {c d : Char} (s t : List Char)
    (hd : p d = false) :
    run kind p c (s ++ d :: t) = ((run kind p c s).1, (run kind p c s).2 ++ d :: t) := by
  obtain ⟨htake, hdrop⟩ := takeWhile_dropWhile_append_cons hd s t
  rw [run, htake, hdrop, run]

theorem isInert_of_isBlank {c : Char} (h : isBlank c = true) : isInert c = true :=
  isInert_of_class (p := isBlank) (by decide) h

theorem isInert_of_isNumberPart {c : Char} (h : isNumberPart c = true) : isInert c = true :=
  isInert_of_class (p := isNumberPart) (by decide) h

theorem isInert_of_isVariablePart {c : Char} (h : isVariablePart c = true) : isInert c = true :=
  isInert_of_class (p := isVariablePart) (by decide) h

theorem isInert_of_isWordPart {c : Char} (h : isWordPart c = true) : isInert c = true :=
  isInert_of_class (p := isWordPart) (by decide) h

/-- Whether a character **stops** every lexeme outside of strings: it goes on with no run, and it is
not the second half of a mark. -/
def isStop (c : Char) : Bool :=
  !isBlank c && !isNumberPart c && !isVariablePart c && !isWordPart c && c != '>' && c != ':'

theorem isStop_iff {c : Char} :
    isStop c = true ↔ isBlank c = false ∧ isNumberPart c = false ∧ isVariablePart c = false ∧
      isWordPart c = false ∧ c ≠ '>' ∧ c ≠ ':' := by
  simp [isStop, and_assoc]

/-- A text in which no comment starts is passed in moves that start and end outside of comments. -/
theorem Move.regionAfter_append {r r' : Region} {u s : List Char} (h : Move r u s.head? r') :
    regionAfter r (u ++ s) = if r = .comment then none else regionAfter r' s := by
  cases h with
  | @alone r c _ h =>
    cases r with
    | code =>
      obtain ⟨h1, h2, h3⟩ := Region.alone_code.1 h
      rw [List.singleton_append, regionAfter]
      · rfl
      · exact h1
      · exact h2
      · exact h3
    | quoted q =>
      rw [List.singleton_append, regionAfter]
      · rfl
      · exact Region.alone_quoted.1 h
    | comment => rfl
  | escape => rfl
  | opens => cases s <;> rfl
  | closes => rfl

theorem regionAfter_of_isLineComment {s : List Char} (h : IsLineComment s) :
    regionAfter .code s = none := by
  rcases h with ⟨u, rfl⟩ | ⟨u, rfl⟩ <;> rfl

theorem eq_code_of_regionAfter_nil {r : Region} (h : regionAfter r [] = some .code) :
    r = .code := by
  cases r <;> simp_all [regionAfter]

theorem regionBehind_of_regionAfter {r r' : Region} {s : List Char}
    (h : regionAfter r s = some r') : regionBehind r s = some r' := by
  induction r, s using scan_induction with
  | nil r => cases r <;> simp_all [regionAfter, regionBehind]
  | lineComment s hs => simp [regionAfter_of_isLineComment hs] at h
  | move r u s r₁ hm ih =>
    rw [hm.regionAfter_append] at h
    split at h
    · exact absurd h (by simp)
    · rw [hm.regionBehind_append, ih h]

/-- A text behind a sealed one starts in code, unless a comment starts at the seam. -/
theorem regionAfter_append {r : Region} {s t : List Char} (hr : r.Opened)
    (hs : regionAfter r s = some .code) (ht : ∀ c ∈ t.head?, c ≠ '/' ∧ c ≠ '*') :
    regionAfter r (s ++ t) = regionAfter .code t := by
  induction r, s using scan_induction with
  | nil r => rw [eq_code_of_regionAfter_nil hs, List.nil_append]
  | lineComment s h => simp [regionAfter_of_isLineComment h] at hs
  | move r u s r' h ih =>
    rw [h.regionAfter_append] at hs
    split at hs
    · exact absurd hs (by simp)
    · have hlonger : Move r u (s ++ t).head? r' := by
        refine h.append fun c hnil hu hr' halone => ?_
        subst hnil hu hr'
        exact halone.of_after_eq_code hr (eq_code_of_regionAfter_nil hs) fun _ => ht
      rw [List.append_assoc, hlonger.regionAfter_append, if_neg ‹_›]
      exact ih (h.opened hr) hs

namespace Sealed

theorem nil : Sealed [] := rfl

theorem append_iff {u : List Char} (hu : ∀ c ∈ u, isInert c = true) {s : List Char} :
    Sealed (u ++ s) ↔ Sealed s := by
  rw [Sealed, regionAfter_code_append s hu, Sealed]

/-- Sealed texts stay sealed in a row, unless a comment starts at a seam. -/
theorem append {s t : List Char} (hs : Sealed s) (ht : Sealed t)
    (hseam : ∀ c ∈ t.head?, c ≠ '/' ∧ c ≠ '*') : Sealed (s ++ t) := by
  rw [Sealed, regionAfter_append (fun _ h => absurd h (by simp)) hs hseam]
  exact ht

theorem cons_iff {c : Char} (hc : isInert c = true) {s : List Char} :
    Sealed (c :: s) ↔ Sealed s := by
  rw [Sealed, regionAfter_code_cons s hc, Sealed]

theorem dropWhile {p : Char → Bool} (hp : ∀ c, p c = true → isInert c = true) {s : List Char}
    (h : Sealed s) : Sealed (s.dropWhile p) := by
  rw [← List.takeWhile_append_dropWhile (p := p) (l := s)] at h
  exact (append_iff fun c hc => hp c (List.all_eq_true.1 List.all_takeWhile c hc)).1 h

/-- A run at the start of a sealed text ends before a character that does not go on with it. -/
theorem run_append {kind : Kind} {p : Char → Bool} (hp : ∀ c, p c = true → isInert c = true)
    {c d : Char} (hd : p d = false) {s : List Char} (h : Sealed s) (t : List Char) :
    run kind p c (s ++ d :: t) = ((run kind p c s).1, (run kind p c s).2 ++ d :: t) ∧
      Sealed (run kind p c s).2 :=
  ⟨run_append_stop s t hd, h.dropWhile hp⟩

/-- Outside of strings a sealed text stays sealed without its first character. -/
theorem tail {c : Char} (hc : isQuote c = false) {s : List Char} (h : Sealed (c :: s)) :
    Sealed s := by
  rw [Sealed] at h ⊢
  unfold regionAfter at h
  split at h <;> simp_all

/-- The first lexeme of a sealed text does not reach behind it, and what follows it is sealed. -/
theorem startingWith_append {c : Char} {s : List Char} (h : Sealed (c :: s)) {d : Char}
    (hd : isStop d = true) (t : List Char) :
    Lexeme.startingWith c (s ++ d :: t) =
        ((Lexeme.startingWith c s).1, (Lexeme.startingWith c s).2 ++ d :: t) ∧
      Sealed (Lexeme.startingWith c s).2 := by
  obtain ⟨dblank, dnumber, dvariable, dword, dmark⟩ := isStop_iff.1 hd
  unfold Lexeme.startingWith
  by_cases hblank : isBlank c = true
  · rw [if_pos hblank, if_pos hblank]
    exact run_append (fun _ => isInert_of_isBlank) dblank
      ((cons_iff (isInert_of_isBlank hblank)).1 h) t
  rw [if_neg hblank, if_neg hblank]
  by_cases hdigit : isDigit c = true
  · rw [if_pos hdigit, if_pos hdigit]
    refine run_append (fun _ => isInert_of_isNumberPart) dnumber ((cons_iff ?_).1 h) t
    exact isInert_of_isNumberPart (by simp [isNumberPart, hdigit])
  rw [if_neg hdigit, if_neg hdigit]
  by_cases hvar : c = '$'
  · rw [if_pos hvar, if_pos hvar]
    refine run_append (fun _ => isInert_of_isVariablePart) dvariable ((cons_iff ?_).1 h) t
    rw [hvar]
    decide
  rw [if_neg hvar, if_neg hvar]
  by_cases hword : isWordStart c = true
  · rw [if_pos hword, if_pos hword]
    refine run_append (fun _ => isInert_of_isWordPart) dword ((cons_iff ?_).1 h) t
    exact isInert_of_class (p := isWordStart) (by decide) hword
  rw [if_neg hword, if_neg hword]
  by_cases hquote : isQuote c = true
  · rw [if_pos hquote, if_pos hquote]
    rw [Sealed, regionAfter_quote s hquote] at h
    obtain ⟨h1, h2⟩ := regionAfter_quoted hquote h (d :: t)
    exact ⟨by rw [h1], h2⟩
  -- What is left are the marks, which look one character ahead.
  rw [if_neg hquote, if_neg hquote]
  have htail : Sealed s := h.tail (by simpa using hquote)
  cases s with
  | nil => exact ⟨by split <;> simp_all, by split <;> simp_all⟩
  | cons e s =>
    rw [List.cons_append]
    by_cases hpair : c = '-' ∧ e = '>' ∨ c = '=' ∧ e = '>' ∨ c = ':' ∧ e = ':'
    · rcases hpair with ⟨rfl, rfl⟩ | ⟨rfl, rfl⟩ | ⟨rfl, rfl⟩ <;>
        exact ⟨rfl, htail.tail rfl⟩
    · split <;> simp_all

/-- **The lexemes of a sealed text are its own** if a character behind it stops them. -/
theorem lexemes_append {s : List Char} (h : Sealed s) {d : Char} (hd : isStop d = true)
    (t : List Char) : lexemes (s ++ d :: t) = lexemes s ++ lexemes (d :: t) := by
  induction s using lexemes.induct with
  | case1 =>
    have hnil : lexemes [] = [] := lexemes.eq_1
    rw [hnil, List.nil_append, List.nil_append]
  | case2 c s ih =>
    obtain ⟨h1, h2⟩ := h.startingWith_append hd t
    rw [List.cons_append, lexemes_cons h1, lexemes.eq_2 c s, ih h2, List.cons_append]

/-- What stands in front of a closing parenthesis has its own lexemes. -/
theorem lexemes_append_paren {s : List Char} (h : Sealed s) (t : List Char) :
    lexemes (s ++ ')' :: t) = lexemes s ++ ⟨.closeParen, [')']⟩ :: lexemes t := by
  rw [h.lexemes_append (by decide), lexemes_cons rfl]
  rfl

end Sealed

/-! ### Tokens -/

theorem tokensAfter_append_cons (gap : List Char) (ls : List Lexeme) {l : Lexeme}
    (hl : l.kind ≠ .blank) (rest : List Lexeme) :
    tokensAfter gap (ls ++ l :: rest) = tokensAfter gap (ls ++ [l]) ++ tokensAfter [] rest := by
  induction ls generalizing gap with
  | nil => simp [tokensAfter, hl]
  | cons k ls ih =>
    by_cases hk : k.kind = .blank
    · simp only [List.cons_append, tokensAfter, hk, if_true]
      exact ih _
    · simp only [List.cons_append, tokensAfter, hk, if_false]
      rw [ih]

/-- Tokens end where a lexeme does that is not blank. -/
theorem tokensAfter_append {gap : List Char} {ls : List Lexeme} (hgap : ls = [] → gap = [])
    (h : ∀ l ∈ ls.getLast?, l.kind ≠ .blank) (rest : List Lexeme) :
    tokensAfter gap (ls ++ rest) = tokensAfter gap ls ++ tokensAfter [] rest := by
  rcases List.eq_nil_or_concat ls with rfl | ⟨ls, l, rfl⟩
  · rw [hgap rfl]
    rfl
  · rw [List.concat_eq_append] at h ⊢
    have hl : l.kind ≠ .blank := h l (by simp)
    rw [List.append_assoc, List.singleton_append, tokensAfter_append_cons _ _ hl]

/-- Blanks in front of a text become the gap of its first token. -/
theorem tokens_gap {g s : List Char} (hg : ∀ c ∈ g, isBlank c = true)
    (hs : ∀ c ∈ s.head?, isBlank c = false) : tokens (g ++ s) = tokensAfter g (lexemes s) := by
  cases g with
  | nil => rfl
  | cons c g =>
    have hfirst : Lexeme.startingWith c (g ++ s) = (⟨.blank, c :: g⟩, s) := by
      unfold Lexeme.startingWith
      rw [if_pos (hg c List.mem_cons_self)]
      exact run_append (fun d hd => hg d (List.mem_cons_of_mem c hd)) hs
    rw [List.cons_append, tokens, lexemes_cons hfirst]
    rfl

theorem tokens_nil : tokens [] = [] := by
  rw [tokens, lexemes]
  rfl

theorem tokens_of_lexemes {s t : List Char} {l : Lexeme} (h : lexemes s = l :: lexemes t)
    (hl : l.kind ≠ .blank) : tokens s = ⟨[], l⟩ :: tokens t := by
  rw [tokens, h, tokensAfter, if_neg hl, tokens]

theorem tokens_cons {c : Char} {s t : List Char} {l : Lexeme}
    (h : Lexeme.startingWith c s = (l, t)) (hl : l.kind ≠ .blank) :
    tokens (c :: s) = ⟨[], l⟩ :: tokens t :=
  tokens_of_lexemes (lexemes_cons h) hl

/-- **The tokens of a sealed text end with the parenthesis behind it.** -/
theorem Sealed.tokens_append {s : List Char} (h : Sealed s) (t : List Char) :
    tokens (s ++ ')' :: t) = tokens (s ++ [')']) ++ tokens t := by
  have hone : lexemes (s ++ [')']) = lexemes s ++ [⟨.closeParen, [')']⟩] := by
    rw [h.lexemes_append_paren, lexemes]
  rw [tokens, h.lexemes_append_paren, tokensAfter_append_cons _ _ (by decide), tokens, hone, tokens]

/-! ### Texts that end in no blank -/

/-- A text is **tight** if no blank stands at its end. -/
def Tight (s : List Char) : Prop :=
  ∀ c ∈ s.getLast?, isBlank c = false

/-- What a text ends with, it ends with behind other texts. -/
theorem Tight.append_left {t : List Char} (h : Tight t) (hne : t ≠ []) (s : List Char) :
    Tight (s ++ t) := by
  have hlast : t.getLast? = some (t.getLast hne) := List.getLast?_eq_some_getLast hne
  intro c hc
  rw [List.getLast?_append, hlast, Option.some_or, ← hlast] at hc
  exact h c hc

theorem markKind_ne_blank (c : Char) : markKind c ≠ .blank := by
  unfold markKind
  split <;> decide

/-- Only blanks make up a blank lexeme. -/
theorem isBlank_of_kind {c : Char} {s : List Char}
    (h : (Lexeme.startingWith c s).1.kind = .blank) :
    ∀ d ∈ (Lexeme.startingWith c s).1.text, isBlank d = true := by
  unfold Lexeme.startingWith run at h ⊢
  split at h
  case isTrue hc =>
    rw [if_pos hc]
    intro d hd
    rcases List.mem_cons.1 hd with rfl | hd
    · exact hc
    · exact List.all_eq_true.1 List.all_takeWhile d hd
  case isFalse =>
    repeat' split at h
    all_goals first
      | exact absurd h (markKind_ne_blank _)
      | exact absurd h (by simp)

theorem kind_getLast_ne_blank {s : List Char} (h : Tight s) :
    ∀ l ∈ (lexemes s).getLast?, l.kind ≠ .blank := by
  induction s using lexemes.induct with
  | case1 => simp [lexemes]
  | case2 c s ih =>
    have happend := Lexeme.startingWith_append c s
    rw [lexemes]
    cases ht : (Lexeme.startingWith c s).2 with
    | nil =>
      intro l hl hblank
      obtain rfl : (Lexeme.startingWith c s).1 = l := by simpa [lexemes] using hl
      rw [ht, List.append_nil] at happend
      obtain ⟨d, hlast⟩ : ∃ d, (c :: s).getLast? = some d :=
        ⟨_, List.getLast?_eq_some_getLast (List.cons_ne_nil c s)⟩
      have hmem := List.mem_of_getLast? hlast
      rw [← happend] at hmem
      exact absurd (isBlank_of_kind hblank _ hmem) (by simpa using h _ hlast)
    | cons d t =>
      rw [ht] at ih
      have hne : lexemes (d :: t) ≠ [] := by rw [lexemes]; simp
      rw [List.getLast?_cons_of_ne_nil hne]
      refine ih fun e he => h e ?_
      rw [← happend, ht, List.getLast?_append, Option.mem_def.1 he]
      rfl

theorem flatMap_text_lexemes (s : List Char) : (lexemes s).flatMap (·.text) = s := by
  induction s using lexemes.induct with
  | case1 => simp [lexemes]
  | case2 c s ih => rw [lexemes, List.flatMap_cons, ih, Lexeme.startingWith_append]

/-- The tokens of a row lose nothing if it ends in no blank. -/
theorem sourceText_tokensAfter (gap : List Char) {ls : List Lexeme} (hne : ls ≠ [])
    (h : ∀ l ∈ ls.getLast?, l.kind ≠ .blank) :
    sourceText (tokensAfter gap ls) = gap ++ ls.flatMap (·.text) := by
  induction ls generalizing gap with
  | nil => exact absurd rfl hne
  | cons l ls ih =>
    cases ls with
    | nil =>
      have hl : l.kind ≠ .blank := h l rfl
      simp [tokensAfter, hl, sourceText, Token.text]
    | cons k ls =>
      have hlast : ∀ m ∈ (k :: ls).getLast?, m.kind ≠ .blank := fun m hm =>
        h m (by rw [List.getLast?_cons_of_ne_nil (by simp)]; exact hm)
      by_cases hl : l.kind = .blank
      · rw [tokensAfter, if_pos hl, ih _ (by simp) hlast]
        simp
      · rw [tokensAfter, if_neg hl, sourceText, List.flatMap_cons, ← sourceText,
          ih _ (by simp) hlast]
        simp [Token.text]

/-- The source text of the tokens of a tight text is the text. -/
theorem Tight.sourceText_tokens {s : List Char} (h : Tight s) : sourceText (tokens s) = s := by
  cases s with
  | nil => rw [tokens_nil]; rfl
  | cons c s =>
    have hne : lexemes (c :: s) ≠ [] := by rw [lexemes]; simp
    rw [tokens, sourceText_tokensAfter [] hne (kind_getLast_ne_blank h), flatMap_text_lexemes]
    rfl

/-- **The tokens of a sealed and tight text are its own** if a character behind it stops its
lexemes. -/
theorem Sealed.tokens_append_stop {s : List Char} (h : Sealed s) (ht : Tight s) {d : Char}
    (hd : isStop d = true) (t : List Char) : tokens (s ++ d :: t) = tokens s ++ tokens (d :: t) := by
  rw [tokens, h.lexemes_append hd, tokensAfter_append (fun _ => rfl) (kind_getLast_ne_blank ht),
    tokens, tokens]

/-- A closing parenthesis behind a sealed and tight text has no gap. -/
theorem Sealed.tokens_append_of_tight {s : List Char} (h : Sealed s) (ht : Tight s)
    (t : List Char) :
    tokens (s ++ ')' :: t) = tokens s ++ ⟨[], ⟨.closeParen, [')']⟩⟩ :: tokens t := by
  have hparen : tokens (')' :: t) = ⟨[], ⟨.closeParen, [')']⟩⟩ :: tokens t :=
    tokens_cons rfl (by decide)
  rw [h.tokens_append_stop ht (by decide), hparen]

/-! ### Removing comments -/

/-- **A text without comments keeps all its characters**, and no comment is open behind it. -/
theorem stripFrom_of_regionAfter {r r' : Region} {s : List Char}
    (h : regionAfter r s = some r') (blank : Bool) : stripFrom r blank s = (s, false) := by
  induction r, s using scan_induction generalizing blank with
  | nil r =>
    cases r with
    | code => rfl
    | quoted q => rfl
    | comment => simp [regionAfter] at h
  | lineComment s hs => simp [regionAfter_of_isLineComment hs] at h
  | move r u s r₁ hm ih =>
    rw [hm.regionAfter_append] at h
    split at h
    · exact absurd h (by simp)
    · rename_i hr
      have hr₁ : r₁ ≠ .comment := by
        rintro rfl
        simp [regionAfter] at h
      rw [hm.stripFrom_append, Region.kept_of_ne_comment hr hr₁, ih h]

end SchemaHistory.Source

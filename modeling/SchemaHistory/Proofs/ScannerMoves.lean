import SchemaHistory.Source.Lines

/-!
# The moves of the scanner

Comments are removed by a scanner that goes through a physical line and knows whether it is inside
of code, of a string or of a block comment. It looks one character ahead at most, and so it passes
a line in **moves** (`SchemaHistory.Source.Move`): most characters alone, and together with its
neighbour what is escaped in a string and what opens or closes a block comment. The only other
thing it does is to leave out the rest of a line behind what opens a line comment.

Every line is made of moves, which gives an induction principle
(`SchemaHistory.Source.scan_induction`), and two lemmas say all about a move that other modules
use: what is left of it (`SchemaHistory.Source.Move.stripFrom_append`) and where the scanner is
behind it (`SchemaHistory.Source.Move.regionBehind_append`). A move at the end of a line is one in a
longer line as well if what follows does not go together with it
(`SchemaHistory.Source.Move.append`).

With them the line can be taken apart where the scanner is in code: what is left of the text
behind such a place depends on the text in front of it only in whether a blank stands at the end of
that (`SchemaHistory.Source.stripFrom_append_of_code`). Two things have to be looked after at the
seam.

* A slash at the end of the text in front opens a comment together with what follows it, so the two
  texts have to be **apart** (`SchemaHistory.Source.Apart`).
* A character in front of the place is only known to be left where the scanner did not come out of
  a block comment with it (`SchemaHistory.Source.getLast?_stripFrom`).
-/

namespace SchemaHistory.Source

open Text

/-! ### Moves -/

/-- The region behind a character that the scanner passes alone. -/
def Region.after : Region → Char → Region
  | .code, c => if isQuote c then .quoted c else .code
  | .quoted q, c => if c = q then .code else .quoted q
  | .comment, _ => .comment

/-- A character is passed **alone**, given the one behind it, if it neither opens a comment nor
takes its neighbour along. -/
def Region.Alone : Region → Char → Option Char → Prop
  | .code, c, d => c ≠ '#' ∧ (c = '/' → d ≠ some '/' ∧ d ≠ some '*')
  | .quoted _, c, d => c = '\\' → d = none
  | .comment, c, d => c = '*' → d ≠ some '/'

theorem Region.alone_code {c : Char} {s : List Char} :
    code.Alone c s.head? ↔ c ≠ '#' ∧ (∀ t, c = '/' → s = '/' :: t → False) ∧
      ∀ t, c = '/' → s = '*' :: t → False := by
  cases s <;> simp [Alone, imp_and]

theorem Region.alone_quoted {q c : Char} {s : List Char} :
    (quoted q).Alone c s.head? ↔ ∀ d t, c = '\\' → s = d :: t → False := by
  cases s <;> simp [Alone]

theorem Region.alone_comment {c : Char} {s : List Char} :
    comment.Alone c s.head? ↔ ∀ t, c = '*' → s = '/' :: t → False := by
  cases s <;> simp [Alone]

/-- A **move** of the scanner: the region in front of it, the characters that it passes, the one
behind them, and the region that it comes to. -/
inductive Move : Region → List Char → Option Char → Region → Prop
  | alone {r : Region} {c : Char} {d : Option Char} (h : r.Alone c d) : Move r [c] d (r.after c)
  | escape (q c : Char) (d : Option Char) : Move (.quoted q) ['\\', c] d (.quoted q)
  | opens (d : Option Char) : Move .code ['/', '*'] d .comment
  | closes (d : Option Char) : Move .comment ['*', '/'] d .code

/-- Whether the rest of a line is a **line comment**. -/
def IsLineComment (s : List Char) : Prop :=
  ['#'] <+: s ∨ ['/', '/'] <+: s

theorem IsLineComment.append {s : List Char} (h : IsLineComment s) (t : List Char) :
    IsLineComment (s ++ t) :=
  h.imp (·.trans (List.prefix_append s t)) (·.trans (List.prefix_append s t))

/-- The **region** behind the beginning of a physical line that starts in a given region; nothing
behind what opens a line comment, which goes on to the end of the line. -/
def regionBehind : Region → List Char → Option Region
  | r, [] => some r
  | .comment, '*' :: '/' :: rest => regionBehind .code rest
  | .comment, _ :: rest => regionBehind .comment rest
  | .quoted q, '\\' :: _ :: rest => regionBehind (.quoted q) rest
  | .quoted q, c :: rest => regionBehind (if c = q then .code else .quoted q) rest
  | .code, '#' :: _ => none
  | .code, '/' :: '/' :: _ => none
  | .code, '/' :: '*' :: rest => regionBehind .comment rest
  | .code, c :: rest => regionBehind (if isQuote c then .quoted c else .code) rest

/-- **Every line is made of moves**, up to its end or to a line comment. -/
@[elab_as_elim]
theorem scan_induction {motive : Region → List Char → Prop} (nil : ∀ r, motive r [])
    (lineComment : ∀ s, IsLineComment s → motive .code s)
    (move : ∀ r u s r', Move r u s.head? r' → motive r' s → motive r (u ++ s))
    (r : Region) (s : List Char) : motive r s := by
  fun_induction regionBehind r s with
  | case1 r => exact nil r
  | case2 rest ih => exact move _ _ rest _ (.closes _) ih
  | case3 c rest hnot ih =>
    exact move _ [c] rest _ (.alone (Region.alone_comment.2 hnot)) ih
  | case4 q c rest ih => exact move _ _ rest _ (.escape q c _) ih
  | case5 q c rest hnot ih =>
    exact move _ [c] rest _ (.alone (Region.alone_quoted.2 hnot)) ih
  | case6 rest => exact lineComment _ (.inl ⟨rest, rfl⟩)
  | case7 rest => exact lineComment _ (.inr ⟨rest, rfl⟩)
  | case8 rest ih => exact move _ _ rest _ (.opens _) ih
  | case9 c rest h1 h2 h3 ih =>
    exact move _ [c] rest _ (.alone (Region.alone_code.2 ⟨h1, h2, h3⟩)) ih

/-! ### What a move does -/

/-- Whether a blank stands behind a text, given whether one stands in front of it. -/
def blankAfter (blank : Bool) (s : List Char) : Bool :=
  (s.getLast?.map isBlank).getD blank

theorem blankAfter_append (blank : Bool) (s t : List Char) :
    blankAfter blank (s ++ t) = blankAfter (blankAfter blank s) t := by
  rw [blankAfter, blankAfter, blankAfter, List.getLast?_append]
  cases t.getLast? <;> rfl

/-- What is **kept** of the characters of a move: all outside of comments, and the space that a
closed comment counts as. -/
def Region.kept : Region → Bool → List Char → Region → List Char
  | .comment, blank, _, .code => if blank then [] else [' ']
  | .comment, _, _, _ => []
  | _, _, _, .comment => []
  | _, _, u, _ => u

theorem Region.kept_cases (blank : Bool) (r : Region) (u : List Char) (r' : Region) :
    r.kept blank u r' = u ∨ r.kept blank u r' = [] ∨ r.kept blank u r' = [' '] := by
  unfold kept
  split <;> simp

theorem Region.kept_of_ne_comment {r r' : Region} (hr : r ≠ .comment) (hr' : r' ≠ .comment)
    (blank : Bool) (u : List Char) : r.kept blank u r' = u := by
  unfold kept
  split <;> simp_all

theorem stripFrom_of_isLineComment {s : List Char} (h : IsLineComment s) (blank : Bool) :
    stripFrom .code blank s = ([], false) := by
  rcases h with ⟨u, rfl⟩ | ⟨u, rfl⟩ <;> rfl

theorem regionBehind_of_isLineComment {s : List Char} (h : IsLineComment s) :
    regionBehind .code s = none := by
  rcases h with ⟨u, rfl⟩ | ⟨u, rfl⟩ <;> rfl

theorem Region.after_ne_comment {r : Region} (h : r ≠ .comment) (c : Char) :
    r.after c ≠ .comment := by
  unfold after
  split
  · split <;> simp
  · split <;> simp
  · exact absurd rfl h

namespace Move

variable {r r' : Region} {u s : List Char} {d : Option Char}

/-- **What is left of a line is what its first move keeps**, and what is left behind that. -/
theorem stripFrom_append (h : Move r u s.head? r') (blank : Bool) :
    stripFrom r blank (u ++ s) =
      (r.kept blank u r' ++ (stripFrom r' (blankAfter blank (r.kept blank u r')) s).1,
        (stripFrom r' (blankAfter blank (r.kept blank u r')) s).2) := by
  cases h with
  | @alone _ c _ h =>
    cases r with
    | code =>
      obtain ⟨h1, h2, h3⟩ := Region.alone_code.1 h
      rw [Region.kept_of_ne_comment (by simp) (Region.after_ne_comment (by simp) c),
        List.singleton_append, stripFrom]
      · rfl
      · exact h1
      · exact h2
      · exact h3
    | quoted q =>
      rw [Region.kept_of_ne_comment (by simp) (Region.after_ne_comment (by simp) c),
        List.singleton_append, stripFrom]
      · rfl
      · exact Region.alone_quoted.1 h
    | comment =>
      rw [List.singleton_append, stripFrom]
      · rfl
      · exact Region.alone_comment.1 h
  | escape => rfl
  | opens => rfl
  | closes => cases blank <;> rfl

/-- The scanner comes to the same region as behind what follows the first move. -/
theorem regionBehind_append (h : Move r u s.head? r') :
    regionBehind r (u ++ s) = regionBehind r' s := by
  cases h with
  | alone h =>
    cases r with
    | code =>
      obtain ⟨h1, h2, h3⟩ := Region.alone_code.1 h
      rw [List.singleton_append, regionBehind]
      · rfl
      · exact h1
      · exact h2
      · exact h3
    | quoted q =>
      rw [List.singleton_append, regionBehind]
      · rfl
      · exact Region.alone_quoted.1 h
    | comment =>
      rw [List.singleton_append, regionBehind]
      · rfl
      · exact Region.alone_comment.1 h
  | escape => rfl
  | opens => rfl
  | closes => rfl

/-- A move of a text is one in a longer text, or it is its last and its only character goes together
with what follows. -/
theorem append_or (h : Move r u s.head? r') (t : List Char) :
    Move r u (s ++ t).head? r' ∨
      ∃ c, s = [] ∧ u = [c] ∧ r' = r.after c ∧ r.Alone c none ∧ ¬r.Alone c t.head? := by
  cases s with
  | nil =>
    cases h with
    | @alone r c _ h =>
      by_cases hnext : r.Alone c t.head?
      · exact .inl (alone hnext)
      · exact .inr ⟨c, rfl, rfl, rfl, h, hnext⟩
    | escape q c => exact .inl (escape q c _)
    | opens => exact .inl (opens _)
    | closes => exact .inl (closes _)
  | cons c s => exact .inl h

/-- **A move of a text is one in a longer text** unless its only character is not passed alone
there. -/
theorem append (h : Move r u s.head? r') {t : List Char}
    (hseam : ∀ c, s = [] → u = [c] → r' = r.after c → r.Alone c none → r.Alone c t.head?) :
    Move r u (s ++ t).head? r' := by
  rcases h.append_or t with h | ⟨c, hs, hu, hr', halone, hpair⟩
  · exact h
  · exact absurd (hseam c hs hu hr' halone) hpair

end Move

/-- A comment is open at the end of a line exactly if the scanner is inside of one there. -/
theorem snd_stripFrom (r : Region) (blank : Bool) (s : List Char) :
    (stripFrom r blank s).2 = decide (regionBehind r s = some .comment) := by
  induction r, s using scan_induction generalizing blank with
  | nil r => cases r <;> rfl
  | lineComment s h => rw [stripFrom_of_isLineComment h, regionBehind_of_isLineComment h]; rfl
  | move r u s r' h ih => rw [h.stripFrom_append, h.regionBehind_append, ih]

/-! ### Behind code -/

/-- A region that the scanner can come into: only delimiters **open** strings. -/
def Region.Opened (r : Region) : Prop :=
  ∀ q, r = .quoted q → isQuote q = true

namespace Region

theorem opened_code : code.Opened := by simp [Opened]

theorem opened_comment : comment.Opened := by simp [Opened]

theorem Opened.after {r : Region} (h : r.Opened) (c : Char) : (r.after c).Opened := by
  unfold Region.after
  split
  · split
    · rintro q hq
      exact quoted.inj hq ▸ ‹_›
    · exact opened_code
  · split
    · exact opened_code
    · exact h
  · exact h

end Region

theorem Move.opened {r r' : Region} {u : List Char} {d : Option Char} (h : Move r u d r')
    (hr : r.Opened) : r'.Opened := by
  cases h with
  | alone => exact hr.after _
  | escape => exact hr
  | opens => exact Region.opened_comment
  | closes => exact Region.opened_code

/-- Two texts are **apart** if no comment is opened by the end of one and the start of the other. -/
def Apart (s t : List Char) : Prop :=
  s.getLast? = some '/' → ∀ c ∈ t.head?, c ≠ '/' ∧ c ≠ '*'

theorem Apart.of_append {s t u : List Char} (h : Apart (u ++ s) t) : Apart s t := by
  intro hs
  refine h ?_
  rw [List.getLast?_append, hs]
  rfl

/-- Nothing that starts with another character than a slash or a star takes part in opening a
comment. -/
theorem Apart.of_head {c : Char} (hc : c ≠ '/' ∧ c ≠ '*') (s t : List Char) : Apart s (c :: t) := by
  intro _ d hd
  obtain rfl : c = d := by simpa using hd
  exact hc

/-- A character that the scanner is in code behind is passed alone in front of a text as well, if
it is apart from that. -/
theorem Region.Alone.of_after_eq_code {r : Region} {c : Char} {t : List Char} (hr : r.Opened)
    (h : r.Alone c none) (hcode : r.after c = .code) (hapart : Apart [c] t) :
    r.Alone c t.head? := by
  cases r with
  | code =>
    refine ⟨h.1, ?_⟩
    rintro rfl
    exact ⟨fun hd => (hapart rfl _ hd).1 rfl, fun hd => (hapart rfl _ hd).2 rfl⟩
  | quoted q =>
    -- A backslash delimits no string, so behind it the string would still be open.
    rintro rfl
    obtain rfl : '\\' = q := by simpa [after] using hcode
    exact absurd (hr _ rfl) (by decide)
  | comment => exact absurd hcode (by simp [after])

/-- **Behind a place in code the scanner goes on as at the start of a line**, but for whether a
blank stands in front of it. -/
theorem stripFrom_append_of_code {r : Region} {s t : List Char} (hr : r.Opened)
    (hs : regionBehind r s = some .code) (hapart : Apart s t) (blank : Bool) :
    stripFrom r blank (s ++ t) =
      ((stripFrom r blank s).1 ++
          (stripFrom .code (blankAfter blank (stripFrom r blank s).1) t).1,
        (stripFrom .code (blankAfter blank (stripFrom r blank s).1) t).2) := by
  induction r, s using scan_induction generalizing blank with
  | nil r =>
    rw [regionBehind] at hs
    obtain rfl := Option.some.inj hs
    rfl
  | lineComment s h => simp [regionBehind_of_isLineComment h] at hs
  | move r u s r' h ih =>
    rw [h.regionBehind_append] at hs
    have hlonger : Move r u (s ++ t).head? r' := by
      refine h.append fun c hnil hu hr' halone => ?_
      subst hnil hu
      rw [regionBehind, hr'] at hs
      exact halone.of_after_eq_code hr (Option.some.inj hs) hapart
    rw [List.append_assoc, hlonger.stripFrom_append, h.stripFrom_append,
      ih (h.opened hr) hs hapart.of_append, List.append_assoc, blankAfter_append]

/-- A character in front of a place in code does not go together with the one before it, unless it
closes a block comment. -/
theorem Region.Alone.of_regionBehind {r : Region} {b c : Char} (h : r.Alone b none)
    (hs : regionBehind r [b, c] = some .code)
    (hc : regionBehind r [b] = some .comment → c ≠ '/') : r.Alone b (some c) := by
  cases r with
  | code =>
    refine ⟨h.1, ?_⟩
    rintro rfl
    refine ⟨?_, ?_⟩ <;> rintro ⟨rfl⟩ <;> simp [regionBehind] at hs
  | quoted q =>
    rintro rfl
    simp [regionBehind] at hs
  | comment =>
    rintro rfl ⟨rfl⟩
    exact hc rfl rfl

/-- **A character in front of a place in code is left**, unless it closes a block comment. -/
theorem getLast?_stripFrom {r : Region} {s : List Char} {c : Char}
    (hs : regionBehind r (s ++ [c]) = some .code)
    (hc : regionBehind r s = some .comment → c ≠ '/') (blank : Bool) :
    (stripFrom r blank (s ++ [c])).1.getLast? = some c := by
  induction r, s using scan_induction generalizing blank with
  | nil r =>
    cases r with
    | code =>
      rw [List.nil_append, stripFrom]
      · split <;> rfl
      · rintro rfl
        simp [regionBehind] at hs
      · simp
      · simp
    | quoted q =>
      rw [List.nil_append, stripFrom]
      · split <;> rfl
      · simp
    | comment => simp [regionBehind] at hs
  | lineComment s h => simp [regionBehind_of_isLineComment (h.append [c])] at hs
  | move r u s r' h ih =>
    have hlonger : Move r u (s ++ [c]).head? r' := by
      refine h.append fun b hnil hu _ halone => ?_
      subst hnil hu
      exact halone.of_regionBehind hs hc
    rw [List.append_assoc, hlonger.regionBehind_append] at hs
    rw [h.regionBehind_append] at hc
    rw [List.append_assoc, hlonger.stripFrom_append, List.getLast?_append, ih hs hc]
    rfl

end SchemaHistory.Source

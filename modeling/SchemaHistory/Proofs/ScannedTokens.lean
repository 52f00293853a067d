import SchemaHistory.Proofs.ByteSlices
import SchemaHistory.Proofs.CapturedText

/-!
# Scanning by bytes

`SchemaHistory.Source.lexemes` takes a text apart into lexemes with their texts. A scanner that
keeps its place as a number of bytes goes about it in another way: it steps from character to
character, adding up how many bytes each takes, decides on nothing but the kind of the lexeme, and
cuts its text out of the line between the places where it started and stopped.

The two give the same tokens, and no cut fails (`SchemaHistory.ByPlace.scan_eq`). What has to be
known about the scanner is one equation for each of its loops, which says where it stops and that it
has counted every byte on the way.
-/

namespace SchemaHistory.ByPlace

open Source Text

/-! ### Steps of a scanner -/

/-- The cursor behind the next character. -/
def step : Cursor → Cursor
  | ⟨[], n⟩ => ⟨[], n⟩
  | ⟨c :: s, n⟩ => ⟨s, n + c.utf8Size⟩

/-- The cursor behind all characters that satisfy a test. -/
def stepWhile (p : Char → Bool) : List Char → Nat → Cursor
  | [], n => ⟨[], n⟩
  | c :: s, n => if p c then stepWhile p s (n + c.utf8Size) else ⟨c :: s, n⟩

/-- The cursor behind a string, of which the opening delimiter is already read. A backslash takes
the next character along. -/
def stepString (q : Char) : List Char → Nat → Cursor
  | [], n => ⟨[], n⟩
  | [c], n => ⟨[], n + c.utf8Size⟩
  | c :: d :: s, n =>
    if c = q then ⟨d :: s, n + c.utf8Size⟩
    else if c = '\\' then stepString q s (n + c.utf8Size + d.utf8Size)
    else stepString q (d :: s) (n + c.utf8Size)

theorem stepWhile_eq (p : Char → Bool) (s : List Char) (n : Nat) :
    stepWhile p s n = ⟨s.dropWhile p, n + byteLength (s.takeWhile p)⟩ := by
  induction s generalizing n with
  | nil => rfl
  | cons c s ih =>
    by_cases hc : p c = true
    · rw [stepWhile, if_pos hc, ih, List.dropWhile_cons_of_pos hc, List.takeWhile_cons_of_pos hc,
        byteLength, Nat.add_assoc]
    · rw [stepWhile, if_neg hc, List.dropWhile_cons_of_neg hc, List.takeWhile_cons_of_neg hc]
      rfl

theorem stepString_eq {q : Char} (hq : isQuote q = true) (s : List Char) (n : Nat) :
    stepString q s n = ⟨(untilClosed q s).2, n + byteLength (untilClosed q s).1⟩ := by
  have hne : q ≠ '\\' := by
    rintro rfl
    exact absurd hq (by decide)
  fun_induction stepString q s n with
  | case1 => rfl
  | case2 c n => by_cases hc : c = q <;> simp [untilClosed, hc, byteLength]
  | case3 d s n =>
    rw [untilClosed_self hq]
    rfl
  | case4 d s n hc ih =>
    rw [ih, untilClosed, byteLength, byteLength, Nat.add_assoc, Nat.add_assoc]
  | case5 c d s n hc hslash ih =>
    rw [untilClosed, if_neg hc, ih, byteLength, Nat.add_assoc]
    exact fun _ _ h => absurd h hslash

/-! ### Lexemes -/

/-- The kind of the next lexeme, and the cursor behind it. -/
def next (c : Cursor) : Kind × Cursor :=
  match c.rest with
  | [] => (.finish, c)
  | d :: s =>
    let n := c.offset + d.utf8Size
    if isBlank d then (.blank, stepWhile isBlank s n)
    else if isDigit d then (.number, stepWhile isNumberPart s n)
    else if d = '$' then (.variable, stepWhile isVariablePart s n)
    else if isWordStart d then (.word, stepWhile isWordPart s n)
    else if isQuote d then (.quoted, stepString d s n)
    else if d = '-' ∧ s.head? = some '>' then (.arrow, step ⟨s, n⟩)
    else if d = '=' ∧ s.head? = some '>' then (.doubleArrow, step ⟨s, n⟩)
    else if d = ':' ∧ s.head? = some ':' then (.doubleColon, step ⟨s, n⟩)
    else (markKind d, ⟨s, n⟩)

/-- **The scanner stops where the lexeme does**, and has counted its bytes. -/
theorem next_eq (d : Char) (s : List Char) (n : Nat) :
    next ⟨d :: s, n⟩ = ((Lexeme.startingWith d s).1.kind,
      ⟨(Lexeme.startingWith d s).2, n + byteLength (Lexeme.startingWith d s).1.text⟩) := by
  unfold next Lexeme.startingWith
  simp only [stepWhile_eq]
  split
  · simp [run, byteLength, Nat.add_assoc]
  split
  · simp [run, byteLength, Nat.add_assoc]
  split
  · simp [run, byteLength, Nat.add_assoc]
  split
  · simp [run, byteLength, Nat.add_assoc]
  split
  · rename_i hq
    rw [stepString_eq hq, byteLength, Nat.add_assoc]
  · split
    · rename_i h
      obtain ⟨rfl, h⟩ := h
      obtain ⟨r, rfl⟩ := List.head?_eq_some_iff.1 h
      rfl
    split
    · rename_i h
      obtain ⟨rfl, h⟩ := h
      obtain ⟨r, rfl⟩ := List.head?_eq_some_iff.1 h
      rfl
    split
    · rename_i h
      obtain ⟨rfl, h⟩ := h
      obtain ⟨r, rfl⟩ := List.head?_eq_some_iff.1 h
      rfl
    split <;> simp_all [byteLength]

/-- The next lexeme at its place, with the text that is cut out of the line there. -/
def read (line : List Char) (c : Cursor) : Except Fault PlacedLexeme :=
  (slice line c.offset (next c).2.offset).map fun text =>
    ⟨⟨(next c).1, text⟩, c.offset, (next c).2.offset⟩

/-- **What the scanner cuts out of the line is the lexeme.** -/
theorem read_eq (a s : List Char) :
    read (a ++ s) ⟨s, byteLength a⟩ = .ok (Cursor.next ⟨s, byteLength a⟩).1 := by
  cases s with
  | nil =>
    have hslice := slice_to_end a []
    rw [List.append_nil a] at hslice
    have hread : read (a ++ []) ⟨[], byteLength a⟩ =
        (slice (a ++ []) (byteLength a) (byteLength a)).map fun text =>
          ⟨⟨.finish, text⟩, byteLength a, byteLength a⟩ := rfl
    rw [hread, List.append_nil, hslice]
    rfl
  | cons d s =>
    have hslice := slice_append a (Lexeme.startingWith d s).1.text (Lexeme.startingWith d s).2
    rw [Lexeme.startingWith_append, byteLength_append] at hslice
    rw [read, next_eq, hslice]
    rfl

/-- Behind a lexeme there is less to scan. -/
theorem length_rest_next {c : Cursor} (h : (next c).1 ≠ .finish) :
    (next c).2.rest.length < c.rest.length := by
  obtain ⟨s, n⟩ := c
  cases s with
  | nil => exact absurd rfl h
  | cons d s =>
    rw [next_eq]
    exact Nat.lt_succ_of_le (Lexeme.length_startingWith d s)

/-- All lexemes from a cursor on that are not blank, at their places, and the `finish`. -/
def scan (line : List Char) (c : Cursor) : Except Fault (List PlacedLexeme) :=
  match read line c with
  | .error f => .error f
  | .ok l =>
    if _ : (next c).1 = .finish then .ok [l]
    else if (next c).1 = .blank then scan line (next c).2
    else (scan line (next c).2).map (l :: ·)
termination_by c.rest.length
decreasing_by all_goals exact length_rest_next ‹_›

theorem scan_append (a s : List Char) :
    scan (a ++ s) ⟨s, byteLength a⟩ =
      .ok ((place (byteLength a) (lexemes s)).filter (·.lexeme.kind != .blank)) := by
  induction s using lexemes.induct generalizing a with
  | case1 =>
    have hnext : next ⟨[], byteLength a⟩ = (.finish, ⟨[], byteLength a⟩) := rfl
    rw [scan, read_eq, lexemes]
    rfl
  | case2 d s ih =>
    have hline : a ++ d :: s =
        (a ++ (Lexeme.startingWith d s).1.text) ++ (Lexeme.startingWith d s).2 := by
      rw [List.append_assoc, Lexeme.startingWith_append]
    have hrest := ih (a ++ (Lexeme.startingWith d s).1.text)
    rw [byteLength_append, ← hline] at hrest
    rw [scan, read_eq, lexemes, place]
    simp only [next_eq]
    rw [dif_neg (Lexeme.kind_startingWith_ne_finish d s), hrest]
    by_cases hblank : (Lexeme.startingWith d s).1.kind = .blank
    · rw [if_pos hblank, List.filter_cons_of_neg (by simp [hblank])]
    · rw [if_neg hblank, List.filter_cons_of_pos (by simp [hblank])]
      rfl

/-- **Scanning a line by bytes gives its tokens at their places.** -/
theorem scan_eq (line : List Char) : scan line (.ofText line) = .ok (placedTokens line) := by
  rw [placedTokens_eq, placedLexemes]
  exact scan_append [] line

/-! ### The content of a string -/

/-- The content of a string, cut out of its text between the delimiters. -/
def content (text : List Char) : Except Fault (List Char) :=
  match slice text 1 (byteLength text) with
  | .error f => .error f
  | .ok inner =>
    match inner.getLast? with
    | some c =>
      if 1 < byteLength text ∧ text.head? = some c then
        if c.utf8Size ≤ byteLength inner then
          (slice inner 0 (byteLength inner - c.utf8Size)).map unescape
        else .error (.difference (byteLength inner) c.utf8Size)
      else .ok (unescape inner)
    | none => .ok (unescape inner)

/-- A string starts with its delimiter. -/
theorem isQuote_of_kind {c : Char} {s : List Char}
    (h : (Lexeme.startingWith c s).1.kind = .quoted) : isQuote c = true := by
  rcases Lexeme.manner c with ⟨kind, p, hrun, hstart⟩ | ⟨hquote, -⟩ | hstart
  · rw [hstart] at h
    cases hrun <;> exact Kind.noConfusion h
  · exact hquote
  · rw [hstart] at h
    unfold mark markKind at h
    repeat' split at h
    all_goals exact Kind.noConfusion h

/-- **The content is that of the lexeme** if the text starts with a delimiter. -/
theorem content_eq {q : Char} (hq : isQuote q = true) (kind : Kind) (inner : List Char) :
    content (q :: inner) = .ok (Lexeme.content ⟨kind, q :: inner⟩) := by
  have hascii : q.utf8Size = 1 ∧ ¬0x80 ≤ q.toNat := by
    have hcases : q = '\'' ∨ q = '"' ∨ q = '\x60' := by simpa [isQuote, or_assoc] using hq
    rcases hcases with rfl | rfl | rfl <;> decide
  have hslice : slice (q :: inner) 1 (byteLength (q :: inner)) = .ok inner := by
    have hend := slice_to_end [q] inner
    rwa [byteLength, hascii.1] at hend
  have hlexeme : Lexeme.content ⟨kind, q :: inner⟩ =
      unescape (if inner.getLast? = some q then inner.dropLast else inner) := if_neg hascii.2
  rw [content, hslice, hlexeme]
  dsimp only
  rcases List.eq_nil_or_concat inner with rfl | ⟨u, c, rfl⟩
  · rfl
  · rw [List.concat_eq_append] at *
    rw [List.getLast?_concat, List.dropLast_concat]
    dsimp only
    have hlength : byteLength (u ++ [c]) = byteLength u + c.utf8Size := byteLength_append u [c]
    have hcut : slice (u ++ [c]) 0 (byteLength (u ++ [c]) - c.utf8Size) = .ok u := by
      rw [hlength, Nat.add_sub_cancel]
      exact slice_zero u [c]
    have hpos := byteLength_pos (s := u ++ [c]) (by simp)
    by_cases hc : c = q
    · have hclosed : 1 < byteLength (q :: (u ++ [c])) ∧ (q :: (u ++ [c])).head? = some c := by
        rw [byteLength, hascii.1]
        exact ⟨by omega, by rw [hc, List.head?_cons]⟩
      rw [if_pos hclosed, if_pos (by omega), hcut, if_pos (by rw [hc])]
      rfl
    · rw [if_neg (by simp [Ne.symm hc]), if_neg (by simp [hc])]

theorem content_of_mem_tokens {line : List Char} {t : Token} (ht : t ∈ tokens line)
    (hkind : t.kind = .quoted) : content t.text = .ok t.lexeme.content := by
  obtain ⟨c, u, v, hstart, htext⟩ := exists_startingWith (lexeme_mem_of_mem_tokens ht).1
  have hquote : isQuote c = true := isQuote_of_kind (s := u) (by rw [hstart]; exact hkind)
  rw [Token.text, htext, content_eq hquote t.lexeme.kind, ← htext]

end SchemaHistory.ByPlace

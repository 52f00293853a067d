import SchemaHistory.Chain.Reader
import SchemaHistory.Proofs.AsciiWords

/-!
# Chains as text

Nearly every statement of a creation script is a **chain**: the variable of the table, followed by
links of the form arrow, name and arguments in parentheses, and a semicolon. A chain is one logical
line (`SchemaHistory.isLine_chainText`) and its tokens are those of its links one after the other
(`SchemaHistory.tokens_chainText`), provided that the arguments are sealed, so that no link reaches
into the next one.
-/

namespace SchemaHistory

open Source Text

/-- A variable ends where an arrow begins. -/
theorem tokens_variable {v : List Char} (hv : ∀ c ∈ v, isVariablePart c = true) (s : List Char) :
    tokens ('$' :: (v ++ '-' :: s)) = ⟨[], ⟨.variable, '$' :: v⟩⟩ :: tokens ('-' :: s) := by
  have hstop : ∀ e ∈ ('-' :: s).head?, isVariablePart e = false := by
    intro e he
    obtain rfl : '-' = e := by simpa using he
    decide
  exact tokens_of_lexemes (lexemes_variable hv hstop) (by simp)

/-- The tokens of a call up to its parenthesis. -/
def callHead (name : List Char) : List Token :=
  [⟨[], ⟨.arrow, ['-', '>']⟩⟩, ⟨[], ⟨.word, name⟩⟩, ⟨[], ⟨.openParen, ['(']⟩⟩]

/-- A call has the same tokens up to its parenthesis, whatever its arguments are. -/
theorem tokens_callHead {name : List Char} (h : isName name = true) (s : List Char) :
    tokens ('-' :: '>' :: (name ++ '(' :: s)) = callHead name ++ tokens s := by
  have harrow : tokens ('-' :: '>' :: (name ++ '(' :: s)) =
      ⟨[], ⟨.arrow, ['-', '>']⟩⟩ :: tokens (name ++ '(' :: s) := tokens_cons rfl (by decide)
  have hstop : ∀ e ∈ ('(' :: s).head?, isWordPart e = false := by
    intro e he
    obtain rfl : '(' = e := by simpa using he
    decide
  have hparen : tokens ('(' :: s) = ⟨[], ⟨.openParen, ['(']⟩⟩ :: tokens s :=
    tokens_cons rfl (by decide)
  rw [harrow, tokens_of_lexemes (lexemes_name h hstop) (by simp), hparen, callHead]
  rfl

/-- A **link** of a chain as it is written. -/
structure Link where
  name : String
  /-- What stands between the parentheses. -/
  inside : String
  deriving DecidableEq

namespace Link

/-- The text of a link. -/
def text (l : Link) : List Char :=
  '-' :: '>' :: (l.name.toList ++ '(' :: (l.inside.toList ++ [')']))

/-- The tokens of a link. -/
def tokens (l : Link) : List Token :=
  ⟨[], ⟨.arrow, ['-', '>']⟩⟩ :: ⟨[], ⟨.word, l.name.toList⟩⟩ :: ⟨[], ⟨.openParen, ['(']⟩⟩ ::
    Source.tokens (l.inside.toList ++ [')'])

theorem tokens_append (l : Link) (ts : List Token) :
    l.tokens ++ ts = callHead l.name.toList ++ (Source.tokens (l.inside.toList ++ [')']) ++ ts) :=
  rfl

/-- A link is **proper** if its name is a word and its arguments are sealed. -/
structure Proper (l : Link) : Prop where
  name : isWord l.name.toList = true
  inside : Sealed l.inside.toList

/-- The characters of a link neither end a line nor break it, if those of its arguments do not. -/
theorem Proper.isInline {l : Link} (h : l.Proper)
    (hinside : ∀ c ∈ l.inside.toList, isInline c = true) : ∀ c ∈ l.text, isInline c = true := by
  intro c hc
  simp only [text, List.mem_cons, List.mem_append, List.not_mem_nil, or_false] at hc
  rcases hc with rfl | rfl | hc | rfl | hc | rfl
  · decide
  · decide
  · exact isInline_of_isAsciiWordPart (isAsciiWordPart_of_isWord h.name c hc)
  · decide
  · exact hinside c hc
  · decide

/-- The tokens of a link are its own, whatever follows it. -/
theorem Proper.tokens_append {l : Link} (h : l.Proper) (s : List Char) :
    Source.tokens (l.text ++ s) = l.tokens ++ Source.tokens s := by
  have htext : l.text ++ s =
      '-' :: '>' :: (l.name.toList ++ '(' :: (l.inside.toList ++ ')' :: s)) := by
    simp [text]
  rw [htext, tokens_callHead (isName_of_isWord h.name), h.inside.tokens_append s]
  rfl

/-- A link in a row is sealed, and no comment starts at its seams. -/
theorem Proper.sealed_append {l : Link} (h : l.Proper) {s : List Char} (hs : Sealed s) :
    Sealed (l.text ++ s) := by
  have hname : ∀ c ∈ l.name.toList, isInert c = true := fun c hc =>
    (class_of_isAsciiWordPart (isAsciiWordPart_of_isWord h.name c hc)).2.2.2.1
  have hend : Sealed (')' :: s) := (Sealed.cons_iff (by decide)).2 hs
  have hinside : Sealed (l.inside.toList ++ ')' :: s) := by
    refine h.inside.append hend fun c hc => ?_
    obtain rfl : ')' = c := by simpa using hc
    decide
  have htext : l.text ++ s =
      '-' :: '>' :: (l.name.toList ++ '(' :: (l.inside.toList ++ ')' :: s)) := by
    simp [text]
  rw [htext, Sealed.cons_iff (by decide), Sealed.cons_iff (by decide), Sealed.append_iff hname,
    Sealed.cons_iff (by decide)]
  exact hinside

end Link

/-- The variable of the table. -/
def tableVariable : List Char :=
  ['$', 't', 'a', 'b', 'l', 'e']

/-- The text of a **chain** on the variable of the table. -/
def chainText (ls : List Link) : List Char :=
  tableVariable ++ (ls.flatMap Link.text ++ [';'])

section

variable {ls : List Link} (h : ∀ l ∈ ls, l.Proper)
include h

theorem tokens_flatMap_text (s : List Char) :
    Source.tokens (ls.flatMap Link.text ++ s) = ls.flatMap Link.tokens ++ Source.tokens s := by
  induction ls with
  | nil => rfl
  | cons l ls ih =>
    have hl := (h l List.mem_cons_self).tokens_append (ls.flatMap Link.text ++ s)
    rw [List.flatMap_cons, List.flatMap_cons, List.append_assoc, hl,
      ih fun k hk => h k (List.mem_cons_of_mem l hk), List.append_assoc]

/-- **The tokens of a chain** are the variable, those of its links, and the semicolon. -/
theorem tokens_chainText :
    Source.tokens (chainText ls) = ⟨[], ⟨.variable, tableVariable⟩⟩ ::
      (ls.flatMap Link.tokens ++ [⟨[], ⟨.semicolon, [';']⟩⟩]) := by
  have hend : Source.tokens [';'] = [⟨[], ⟨.semicolon, [';']⟩⟩] := by
    rw [tokens_cons (t := []) rfl (by decide), tokens_nil]
    rfl
  -- The variable ends before the arrow of the first link, or before the semicolon.
  have hstop : ∀ c ∈ (ls.flatMap Link.text ++ [';']).head?, isVariablePart c = false := by
    intro c hc
    cases ls with
    | nil =>
      obtain rfl : ';' = c := by simpa using hc
      decide
    | cons l ls =>
      obtain rfl : '-' = c := by simpa [Link.text] using hc
      decide
  have hvar : lexemes (chainText ls) =
      ⟨.variable, tableVariable⟩ :: lexemes (ls.flatMap Link.text ++ [';']) :=
    lexemes_variable (v := tableVariable.tail) (by decide) hstop
  rw [tokens_of_lexemes hvar (by decide), tokens_flatMap_text h, hend]

theorem sealed_flatMap_text {s : List Char} (hs : Sealed s) : Sealed (ls.flatMap Link.text ++ s) := by
  induction ls with
  | nil => exact hs
  | cons l ls ih =>
    rw [List.flatMap_cons, List.append_assoc]
    exact (h l List.mem_cons_self).sealed_append (ih fun k hk => h k (List.mem_cons_of_mem l hk))

/-- **A chain is one line** if its arguments neither end lines nor break them. -/
theorem isLine_chainText (hinside : ∀ l ∈ ls, ∀ c ∈ l.inside.toList, isInline c = true) :
    IsLine (chainText ls) := by
  have htext : chainText ls = (tableVariable ++ ls.flatMap Link.text) ++ [';'] :=
    (List.append_assoc _ _ _).symm
  rw [htext]
  refine .of_inline ?_ ?_ (by decide) ?_
  · intro c hc
    obtain rfl : '$' = c := by simpa [tableVariable] using hc
    decide
  · intro c hc
    rcases List.mem_append.1 hc with hc | hc
    · exact (by decide : ∀ c ∈ tableVariable, isInline c = true) c hc
    · obtain ⟨l, hl, hc⟩ := List.mem_flatMap.1 hc
      exact (h l hl).isInline (hinside l hl) c hc
  · rw [← htext]
    exact (Sealed.append_iff (by decide)).2 (sealed_flatMap_text h (by decide))

end

end SchemaHistory

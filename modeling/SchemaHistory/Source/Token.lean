import SchemaHistory.Source.Lexeme

/-!
# Tokens

Statements are read from **tokens**: the lexemes that are not blank, each with the blanks that
stand before it. Keeping the blanks with the tokens makes the source text of any stretch of tokens
a plain concatenation (`sourceText`), so no positions have to be carried along and no slice can be
out of range.
-/

namespace SchemaHistory.Source

open Text

/-- A **token**: a lexeme and the blanks before it. -/
structure Token where
  gap : List Char
  lexeme : Lexeme
  deriving DecidableEq, Inhabited

namespace Token

/-- The kind of the lexeme. -/
def kind (t : Token) : Kind :=
  t.lexeme.kind

/-- The text of the lexeme. -/
def text (t : Token) : List Char :=
  t.lexeme.text

end Token

/-- The tokens of a row of lexemes, given the blanks already read. -/
def tokensAfter (gap : List Char) : List Lexeme → List Token
  | [] => []
  | l :: rest =>
    if l.kind = .blank then tokensAfter (gap ++ l.text) rest
    else ⟨gap, l⟩ :: tokensAfter [] rest

/-- The **tokens** of a text. Blanks at its end belong to no token. -/
def tokens (s : List Char) : List Token :=
  tokensAfter [] (lexemes s)

/-- The **source text** of a stretch of tokens, with the blanks before each of them. -/
def sourceText (ts : List Token) : List Char :=
  ts.flatMap fun t => t.gap ++ t.text

/-- The source text of a stretch of tokens, from the start of the first one. -/
def textFromFirst : List Token → List Char
  | [] => []
  | t :: rest => t.text ++ sourceText rest

/-! ### Brackets -/

/-- Whether a kind opens a bracket of any shape. -/
def Kind.opens : Kind → Bool
  | openBrace | openParen | openBracket => true
  | _ => false

/-- Whether a kind closes a bracket of any shape. -/
def Kind.closes : Kind → Bool
  | closeBrace | closeParen | closeBracket => true
  | _ => false

/-- The bracket **depth** after a token. Shapes are not matched, and a bracket that closes nothing
leaves the depth at zero. -/
def depthAfter (depth : Nat) (k : Kind) : Nat :=
  if k.opens then depth + 1 else if k.closes then depth - 1 else depth

/-- The tokens up to the parenthesis that closes at depth zero, and those behind it. If there is
none, all tokens stand before it. -/
def untilCloseParen : Nat → List Token → List Token × List Token
  | _, [] => ([], [])
  | depth, t :: rest =>
    if t.kind = .closeParen ∧ depth = 0 then ([], rest)
    else
      let r := untilCloseParen (depthAfter depth t.kind) rest
      (t :: r.1, r.2)

/-- The pieces between the commas at depth zero; there is always one. -/
def pieces : Nat → List Token → List (List Token)
  | _, [] => [[]]
  | depth, t :: rest =>
    if t.kind = .comma ∧ depth = 0 then [] :: pieces 0 rest
    else
      match pieces (depthAfter depth t.kind) rest with
      | [] => [[t]]
      | piece :: others => (t :: piece) :: others

/-- The tokens behind the first comma at depth zero, if there is one. -/
def afterComma? : Nat → List Token → Option (List Token)
  | _, [] => none
  | depth, t :: rest =>
    if t.kind = .comma ∧ depth = 0 then some rest
    else afterComma? (depthAfter depth t.kind) rest

theorem length_untilCloseParen (depth : Nat) (ts : List Token) :
    (untilCloseParen depth ts).2.length ≤ ts.length := by
  induction ts generalizing depth with
  | nil => simp [untilCloseParen]
  | cons t rest ih =>
    rw [untilCloseParen]
    split
    · simp
    · exact Nat.le_succ_of_le (ih _)

/-- A piece is not longer than the whole. -/
theorem length_le_of_mem_pieces {depth : Nat} {ts p : List Token} (h : p ∈ pieces depth ts) :
    p.length ≤ ts.length := by
  induction ts generalizing depth p with
  | nil => simp_all [pieces]
  | cons t rest ih =>
    rw [pieces] at h
    split at h
    · rcases List.mem_cons.1 h with rfl | h
      · simp
      · exact Nat.le_succ_of_le (ih h)
    · split at h
      · simp_all
      · rename_i piece others heq
        rcases List.mem_cons.1 h with rfl | h
        · exact Nat.succ_le_succ (ih (heq ▸ List.mem_cons_self))
        · exact Nat.le_succ_of_le (ih (heq ▸ List.mem_cons_of_mem _ h))

end SchemaHistory.Source

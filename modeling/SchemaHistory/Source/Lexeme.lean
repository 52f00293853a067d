import SchemaHistory.Text.Letter
import SchemaHistory.Text.Blank
import SchemaHistory.Text.Search
import SchemaHistory.Source.Quote

/-!
# Lexemes

A logical line is made of **lexemes**: names, variables, numbers, quoted strings, the few marks
that matter to statements, runs of blanks, and any other character by itself. Every text splits
into lexemes without a rest: the splitting consumes at least one character each time
(`Lexeme.first?`), so nothing is skipped and nothing can fail.
-/

namespace SchemaHistory.Source

open Text

/-- The **kind** of a lexeme. -/
inductive Kind
  | openBrace
  | closeBrace
  | openParen
  | closeParen
  | openBracket
  | closeBracket
  | comma
  | semicolon
  | equals
  | arrow
  | doubleArrow
  | doubleColon
  | variable
  | word
  | quoted
  | number
  | blank
  | other
  | finish
  deriving DecidableEq, Inhabited

/-- A **lexeme**: its kind and its text. -/
structure Lexeme where
  kind : Kind
  text : List Char
  deriving DecidableEq, Inhabited

/-- Whether a character goes on with a variable. -/
def isVariablePart (c : Char) : Bool :=
  isLetterOrNumeral c || c == '_'

/-- Whether a character can begin a word. -/
def isWordStart (c : Char) : Bool :=
  isLetter c || c == '_' || c == '\\'

/-- Whether a character goes on with a word. -/
def isWordPart (c : Char) : Bool :=
  isLetterOrNumeral c || c == '_' || c == '\\'

/-- Whether a character goes on with a number. -/
def isNumberPart (c : Char) : Bool :=
  isDigit c || c == '.'

/-- The kind of a mark that is one character long. -/
def markKind : Char → Kind
  | '\x7b' => .openBrace
  | '\x7d' => .closeBrace
  | '(' => .openParen
  | ')' => .closeParen
  | '[' => .openBracket
  | ']' => .closeBracket
  | ',' => .comma
  | ';' => .semicolon
  | '=' => .equals
  | _ => .other

/-- The lexeme that takes a first character and all that follow and satisfy a test, and the
rest. -/
def run (kind : Kind) (p : Char → Bool) (c : Char) (s : List Char) : Lexeme × List Char :=
  (⟨kind, c :: s.takeWhile p⟩, s.dropWhile p)

/-- The lexeme that begins with a character, and what follows it. -/
def Lexeme.startingWith (c : Char) (s : List Char) : Lexeme × List Char :=
  if isBlank c then run .blank isBlank c s
  else if isDigit c then run .number isNumberPart c s
  else if c = '$' then run .variable isVariablePart c s
  else if isWordStart c then run .word isWordPart c s
  else if isQuote c then (⟨.quoted, c :: (untilClosed c s).1⟩, (untilClosed c s).2)
  else
    match c, s with
    | '-', '>' :: rest => (⟨.arrow, ['-', '>']⟩, rest)
    | '=', '>' :: rest => (⟨.doubleArrow, ['=', '>']⟩, rest)
    | ':', ':' :: rest => (⟨.doubleColon, [':', ':']⟩, rest)
    | c, rest => (⟨markKind c, [c]⟩, rest)

/-- The first lexeme of a text and the rest, if there is any text. -/
def Lexeme.first? : List Char → Option (Lexeme × List Char)
  | [] => none
  | c :: s => some (startingWith c s)

/-- A lexeme and what follows it make up the text. -/
theorem Lexeme.startingWith_append (c : Char) (s : List Char) :
    (startingWith c s).1.text ++ (startingWith c s).2 = c :: s := by
  unfold startingWith run
  split
  · simp
  split
  · simp
  split
  · simp
  split
  · simp
  split
  · simp [untilClosed_append]
  split <;> simp

/-- A lexeme has at least the character it starts with. -/
theorem Lexeme.text_startingWith (c : Char) (s : List Char) :
    (startingWith c s).1.text.head? = some c := by
  unfold startingWith run
  split
  · rfl
  split
  · rfl
  split
  · rfl
  split
  · rfl
  split
  · rfl
  split <;> rfl

theorem Lexeme.length_startingWith (c : Char) (s : List Char) :
    (startingWith c s).2.length ≤ s.length := by
  have h := congrArg List.length (startingWith_append c s)
  have h' := text_startingWith c s
  cases ht : (startingWith c s).1.text with
  | nil => simp [ht] at h'
  | cons a t =>
    simp only [ht, List.cons_append, List.length_cons, List.length_append] at h
    omega

/-- The **lexemes** of a text. -/
def lexemes : List Char → List Lexeme
  | [] => []
  | c :: s => (Lexeme.startingWith c s).1 :: lexemes (Lexeme.startingWith c s).2
termination_by s => s.length
decreasing_by
  have := Lexeme.length_startingWith c s
  simp only [List.length_cons]
  omega

/-! ### The content of a string -/

/-- The **content** of a quoted lexeme, without delimiters and escapes. The closing delimiter is
taken away only if it is there. A lexeme that starts with a character of several bytes has no
content. -/
def Lexeme.content (l : Lexeme) : List Char :=
  match l.text with
  | [] => []
  | c :: inner =>
    if 0x80 ≤ c.toNat then []
    else unescape (if inner.getLast? = some c then inner.dropLast else inner)

/-! ### Reading lexeme by lexeme -/

/-- A lexeme at its **place**, counted in bytes. -/
structure PlacedLexeme where
  lexeme : Lexeme
  start : Nat
  stop : Nat
  deriving DecidableEq

/-- A **cursor**: the text still to be read and the bytes already read. -/
structure Cursor where
  rest : List Char
  offset : Nat

/-- The cursor at the start of a text. -/
def Cursor.ofText (s : List Char) : Cursor :=
  ⟨s, 0⟩

/-- The next lexeme, and the cursor behind it. At the end of the text this is an empty lexeme of
the kind `finish`, as often as one asks. -/
def Cursor.next (c : Cursor) : PlacedLexeme × Cursor :=
  match Lexeme.first? c.rest with
  | none => (⟨⟨.finish, []⟩, c.offset, c.offset⟩, c)
  | some (l, rest) =>
    let stop := c.offset + byteLength l.text
    (⟨l, c.offset, stop⟩, ⟨rest, stop⟩)

/-- Lexemes in a row, each at its place, and the `finish` behind them. -/
def place (offset : Nat) : List Lexeme → List PlacedLexeme
  | [] => [⟨⟨.finish, []⟩, offset, offset⟩]
  | l :: rest =>
    ⟨l, offset, offset + byteLength l.text⟩ :: place (offset + byteLength l.text) rest

/-- All that a cursor gives from the start of a text up to the first `finish`. -/
def placedLexemes (s : List Char) : List PlacedLexeme :=
  place 0 (lexemes s)

end SchemaHistory.Source

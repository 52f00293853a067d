import SchemaHistory.Text.Digits

/-!
# How texts are spelled

A text is written in the plainest form that shows it well: between double quotes if nothing has to
be escaped, else between single quotes if nothing in it stands against that, else over several
lines between three double or three single quotes, and only then with escapes. Tabs decide nothing.
-/

namespace SchemaHistory.Toml

/-- What a text contains that matters to its spelling. -/
structure Traits where
  /-- The longest run of single quotes. -/
  singleRun : Nat
  /-- The longest run of double quotes. -/
  doubleRun : Nat
  backslash : Bool
  control : Bool
  newline : Bool

/-- The longest run of a character, given the length of the run that is going on. -/
def longestRun (q : Char) (current : Nat) : List Char → Nat
  | [] => current
  | c :: rest =>
    if c = q then longestRun q (current + 1) rest else max current (longestRun q 0 rest)

/-- Whether a character can only be written by an escape. -/
def isControl (c : Char) : Bool :=
  (decide (c.toNat < 0x20) && c != '\t' && c != '\n') || c.toNat == 0x7F

/-- The traits of a text. -/
def Traits.of (s : List Char) : Traits where
  singleRun := longestRun '\'' 0 s
  doubleRun := longestRun '"' 0 s
  backslash := s.contains '\\'
  control := s.any isControl
  newline := s.contains '\n'

/-- The **form** in which a text is written. -/
inductive Form
  | basic
  | literal
  | basicLines
  | literalLines
  deriving DecidableEq

/-- The form for a text of given traits. -/
def Traits.form (t : Traits) : Form :=
  if !t.control && !t.backslash && t.doubleRun == 0 && !t.newline then .basic
  else if !t.control && t.singleRun == 0 && !t.newline then .literal
  else if !t.control && !t.backslash && decide (t.doubleRun ≤ 2) then .basicLines
  else if !t.control && decide (t.singleRun ≤ 2) then .literalLines
  else if t.newline then .basicLines
  else .basic

/-- The quotes of a form. -/
def Form.quotes : Form → List Char
  | basic => ['"']
  | literal => ['\'']
  | basicLines => ['"', '"', '"']
  | literalLines => ['\'', '\'', '\'']

/-- Whether a form may run over several lines. -/
def Form.hasLines : Form → Bool
  | basicLines | literalLines => true
  | basic | literal => false

/-- Whether a form has escapes. -/
def Form.escapes : Form → Bool
  | basic | basicLines => true
  | literal | literalLines => false

/-- The escape of a character by its number, in four digits. -/
def numericEscape (c : Char) : List Char :=
  let n := c.toNat
  '\\' :: 'u' :: [n / 4096 % 16, n / 256 % 16, n / 16 % 16, n % 16].map fun d =>
    (Text.digit d).toUpper

/-- The text with escapes. Over several lines, newlines stand for themselves and so do up to two
double quotes in a row; the number counts those that were just written. -/
def escapeText (lines : Bool) (quotes : Nat) : List Char → List Char
  | [] => []
  | '"' :: rest =>
    if lines && decide (quotes < 2) then '"' :: escapeText lines (quotes + 1) rest
    else '\\' :: '"' :: escapeText lines 0 rest
  | '\x08' :: rest => '\\' :: 'b' :: escapeText lines 0 rest
  | '\t' :: rest => '\\' :: 't' :: escapeText lines 0 rest
  | '\n' :: rest =>
    if lines then '\n' :: escapeText lines 0 rest else '\\' :: 'n' :: escapeText lines 0 rest
  | '\x0c' :: rest => '\\' :: 'f' :: escapeText lines 0 rest
  | '\r' :: rest => '\\' :: 'r' :: escapeText lines 0 rest
  | '\\' :: rest => '\\' :: '\\' :: escapeText lines 0 rest
  | c :: rest =>
    (if c.toNat < 0x20 ∨ c.toNat = 0x7F then numericEscape c else [c]) ++ escapeText lines 0 rest

/-- A text in a form. A text with newlines starts on a line of its own. -/
def Form.write (f : Form) (newline : Bool) (s : List Char) : List Char :=
  f.quotes ++ (if newline && f.hasLines then ['\n'] else []) ++
    (if f.escapes then escapeText f.hasLines 0 s else s) ++ f.quotes

/-- The **spelling** of a text. -/
def spell (s : List Char) : List Char :=
  let t := Traits.of s
  t.form.write t.newline s

end SchemaHistory.Toml

import SchemaHistory.Text.Blank
import SchemaHistory.Text.Search
import SchemaHistory.Source.Quote

/-!
# Logical lines

A migration is read statement by statement, so its physical lines are turned into **logical
lines** first: comments are removed, what is left is joined, and a new line begins after every
`{`, `;` and `}`.

Comments are removed one physical line at a time, so a comment cannot swallow the statement after
it. Inside a quoted string nothing is a comment, and a string ends with its line; a block comment
goes on until it is closed, over as many lines as that takes.
-/

namespace SchemaHistory.Source

open Text

/-- What the scanner of a physical line is inside of. -/
inductive Region
  /-- Plain code. -/
  | code
  /-- A string that a delimiter has opened. -/
  | quoted (delimiter : Char)
  /-- A block comment. -/
  | comment
  deriving DecidableEq

/-- The code on the rest of a physical line, and whether a block comment is open at its end. The
flag says whether the code before ends in a blank; a closed comment counts as a blank. -/
def stripFrom : Region → Bool → List Char → List Char × Bool
  | .comment, _, [] => ([], true)
  | .comment, blank, '*' :: '/' :: rest =>
    let r := stripFrom .code true rest
    (if blank then r.1 else ' ' :: r.1, r.2)
  | .comment, blank, _ :: rest => stripFrom .comment blank rest
  | .quoted _, _, [] => ([], false)
  | .quoted q, _, '\\' :: c :: rest =>
    let r := stripFrom (.quoted q) (isBlank c) rest
    ('\\' :: c :: r.1, r.2)
  | .quoted q, _, c :: rest =>
    let r := stripFrom (if c = q then .code else .quoted q) (isBlank c) rest
    (c :: r.1, r.2)
  | .code, _, [] => ([], false)
  | .code, _, '#' :: _ => ([], false)
  | .code, _, '/' :: '/' :: _ => ([], false)
  | .code, blank, '/' :: '*' :: rest => stripFrom .comment blank rest
  | .code, _, c :: rest =>
    let r := stripFrom (if isQuote c then .quoted c else .code) (isBlank c) rest
    (c :: r.1, r.2)

/-- The code on a physical line and whether a block comment is open after it, given whether one
is open before. -/
def strip (inComment : Bool) (line : List Char) : List Char × Bool :=
  stripFrom (if inComment then .comment else .code) false (line.filter (· != '\r'))

/-- The code of all physical lines, without comments. -/
def codeLines (inComment : Bool) : List (List Char) → List (List Char)
  | [] => []
  | line :: rest =>
    let r := strip inComment line
    r.1 :: codeLines r.2 rest

/-- The physical lines of a text. -/
def physicalLines (s : List Char) : List (List Char) :=
  splitAt (· == '\n') s

/-- The code of a text as one line: each physical line is trimmed, and one space follows it. -/
def joined (lines : List (List Char)) : List Char :=
  ((lines.map trim).filter (!·.isEmpty)).flatMap (· ++ [' '])

/-- Whether a logical line ends after a character. -/
def endsLine (c : Char) : Bool :=
  c == '\x7b' || c == ';' || c == '\x7d'

/-- The text cut after every character that ends a logical line. -/
def cut : List Char → List (List Char)
  | [] => [[]]
  | c :: rest =>
    if endsLine c then [c] :: cut rest
    else
      match cut rest with
      | [] => [[c]]
      | piece :: pieces => (c :: piece) :: pieces

/-- The **logical lines** of a text, trimmed and none of them empty. -/
def lines (s : List Char) : List (List Char) :=
  ((cut (joined (codeLines false (physicalLines s)))).map trim).filter (!·.isEmpty)

/-- The logical lines of a migration text. -/
def normalize (text : String) : List String :=
  (lines text.toList).map String.ofList

end SchemaHistory.Source

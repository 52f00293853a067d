import SchemaHistory.Text.Digits
import SchemaHistory.Text.Search
import SchemaHistory.Toml.Spacing

/-!
# Reading quoted texts

A text stands between double quotes and may have escapes, or between single quotes and has none.
Between three quotes it may run over several lines: a line break right behind the opening quotes
does not count, every other one counts as a newline, and up to two quotes may stand in a row. A
backslash at the end of such a line takes all space up to the next visible character away.
-/

namespace SchemaHistory.Toml

/-- The character with a number, if there is one. -/
def character? (n : Nat) : Option Char :=
  if n.isValidChar then some (Char.ofNat n) else none

/-- The character that hexadecimal digits write. -/
def hexCharacter? (digits : List Char) : Option Char :=
  (Text.ofDigits? 16 digits).bind character?

/-- The character that a short escape stands for. -/
def escaped? : Char → Option Char
  | '"' => some '"'
  | '\\' => some '\\'
  | 'b' => some '\x08'
  | 'f' => some '\x0c'
  | 'n' => some '\n'
  | 'r' => some '\r'
  | 't' => some '\t'
  | _ => none

/-- The quotes of a text over several lines that come before its closing ones, and what follows
those, if the text ends here. -/
def closing? (q : Char) (s : List Char) : Option (List Char × List Char) :=
  let run := s.takeWhile (· == q)
  if run.length < 3 then none else some ((run.take 5).drop 3, s.drop (min run.length 5))

/-- Whether nothing but blanks stand before the next line break. -/
def endsLine (s : List Char) : Bool :=
  (afterBreak? (blanks s).2).isSome

/-- A piece of a text in front of the others. -/
def prepend (piece : List Char) (r : List Char × List Char) : List Char × List Char :=
  (piece ++ r.1, r.2)

/-- A text **with escapes** behind its opening quotes, and what follows the closing ones. The flags
say whether it may run over several lines, and whether space is being taken away. -/
def escapedBody? (lines skipping : Bool) : List Char → Option (List Char × List Char)
  | [] => none
  | '"' :: rest =>
    if !lines then some ([], rest)
    else
      match closing? '"' ('"' :: rest) with
      | some r => some r
      | none => (escapedBody? lines false rest).map (prepend ['"'])
  | '\\' :: 'u' :: a :: b :: c :: d :: rest =>
    (hexCharacter? [a, b, c, d]).bind fun x => (escapedBody? lines false rest).map (prepend [x])
  | '\\' :: 'U' :: a :: b :: c :: d :: e :: f :: g :: h :: rest =>
    (hexCharacter? [a, b, c, d, e, f, g, h]).bind fun x =>
      (escapedBody? lines false rest).map (prepend [x])
  | '\\' :: c :: rest =>
    match escaped? c with
    | some x => (escapedBody? lines false rest).map (prepend [x])
    | none => if lines && endsLine (c :: rest) then escapedBody? lines true (c :: rest) else none
  | '\n' :: rest =>
    if lines then (escapedBody? lines skipping rest).map (prepend (if skipping then [] else ['\n']))
    else none
  | '\r' :: '\n' :: rest =>
    if lines then (escapedBody? lines skipping rest).map (prepend (if skipping then [] else ['\n']))
    else none
  | c :: rest =>
    if c = '\\' ∨ isPlain c = false then none
    else if skipping && isBlank c then escapedBody? lines skipping rest
    else (escapedBody? lines false rest).map (prepend [c])

/-- A text **without escapes** behind its opening quotes, and what follows the closing ones. The
flag says whether it may run over several lines. -/
def literalBody? (lines : Bool) : List Char → Option (List Char × List Char)
  | [] => none
  | '\'' :: rest =>
    if !lines then some ([], rest)
    else
      match closing? '\'' ('\'' :: rest) with
      | some r => some r
      | none => (literalBody? lines rest).map (prepend ['\''])
  | '\n' :: rest => if lines then (literalBody? lines rest).map (prepend ['\n']) else none
  | '\r' :: '\n' :: rest => if lines then (literalBody? lines rest).map (prepend ['\n']) else none
  | c :: rest => if isPlain c then (literalBody? lines rest).map (prepend [c]) else none

/-- What follows a line break, or the whole text. -/
def skipBreak (s : List Char) : List Char :=
  (afterBreak? s).getD s

/-- A text on one line between quotes, and what follows. -/
def lineText? : List Char → Option (List Char × List Char)
  | '"' :: rest => escapedBody? false false rest
  | '\'' :: rest => literalBody? false rest
  | _ => none

/-- A **text** between quotes of any kind, and what follows. -/
def text? : List Char → Option (List Char × List Char)
  | '"' :: '"' :: '"' :: rest => escapedBody? true false (skipBreak rest)
  | '\'' :: '\'' :: '\'' :: rest => literalBody? true (skipBreak rest)
  | s => lineText? s

end SchemaHistory.Toml

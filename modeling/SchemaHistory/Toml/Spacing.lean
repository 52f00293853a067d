/-!
# Space, comments and line ends

What may stand around the parts of a document and says nothing. Inside a line these are blanks,
and a comment at its end; between the lines of a document, and between the items of an array, line
breaks and whole lines of comment as well. A control character stands nowhere, not even in a
comment, and a carriage return only before a newline.
-/

namespace SchemaHistory.Toml

/-- Whether a character may separate the parts of a line. -/
def isBlank (c : Char) : Bool :=
  c == ' ' || c == '\t'

/-- Whether a character may stand for itself in comments and texts: any but a control character,
among which the tab is an exception. -/
def isPlain (c : Char) : Bool :=
  c == '\t' || (decide (0x20 ≤ c.toNat) && c.toNat != 0x7F)

/-- The **blanks** at the start of a text, and what follows. -/
def blanks (s : List Char) : List Char × List Char :=
  (s.takeWhile isBlank, s.dropWhile isBlank)

/-- What follows a line break, if the text starts with one. -/
def afterBreak? : List Char → Option (List Char)
  | '\n' :: rest => some rest
  | '\r' :: '\n' :: rest => some rest
  | _ => none

/-- The comment at the start of a text, if there is one, and what follows. -/
def comment : List Char → List Char × List Char
  | '#' :: rest => ('#' :: rest.takeWhile isPlain, rest.dropWhile isPlain)
  | s => ([], s)

/-- The **end of a line**: blanks and perhaps a comment, and what follows the line break. The end
of the text ends a line too. -/
def lineEnd? (s : List Char) : Option (List Char × List Char) :=
  let space := blanks s
  let remark := comment space.2
  match remark.2 with
  | [] => some (space.1 ++ remark.1, [])
  | rest => (afterBreak? rest).map fun rest => (space.1 ++ remark.1, rest)

/-- The **spacing** at the start of a text, over any number of lines, and what follows. The flag
says whether a comment is going on. -/
def spacing (inComment : Bool) : List Char → List Char × List Char
  | '\n' :: rest =>
    let r := spacing false rest
    ('\n' :: r.1, r.2)
  | '\r' :: '\n' :: rest =>
    let r := spacing false rest
    ('\r' :: '\n' :: r.1, r.2)
  | c :: rest =>
    if (if inComment then isPlain c else isBlank c || c == '#') then
      let r := spacing (inComment || c == '#') rest
      (c :: r.1, r.2)
    else ([], c :: rest)
  | [] => ([], [])

end SchemaHistory.Toml

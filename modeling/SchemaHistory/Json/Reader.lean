import SchemaHistory.Json
import SchemaHistory.Text.Search

/-!
# Reading JSON

A text is read from left to right by the grammar of JSON. Each reader takes what belongs to it
and gives back the rest. The depth to which values may nest is bounded by the length of the text,
which no value can exceed, so the bound never decides an answer.
-/

namespace SchemaHistory.Json

/-- Whether a character may stand between the parts of a value. -/
def isSpace (c : Char) : Bool :=
  c == ' ' || c == '\n' || c == '\t' || c == '\r'

/-- The text behind the space at its start. -/
def skipSpace (s : List Char) : List Char :=
  s.dropWhile isSpace

/-! ### Strings -/

/-- The body of a string behind its opening quote, and what follows the closing one. -/
def body? : List Char → Option (List Char × List Char)
  | [] => none
  | '"' :: rest => some ([], rest)
  | '\\' :: 'u' :: a :: b :: c :: d :: rest =>
    if (codeUnit? a b c d).isSome then
      (body? rest).map fun r => ('\\' :: 'u' :: a :: b :: c :: d :: r.1, r.2)
    else none
  | '\\' :: c :: rest =>
    if (shortEscape? c).isSome then (body? rest).map fun r => ('\\' :: c :: r.1, r.2) else none
  | c :: rest =>
    if c = '\\' ∨ c.toNat < 0x20 then none else (body? rest).map fun r => (c :: r.1, r.2)

/-! ### Numbers -/

/-- Whether a character is a decimal digit. -/
def isDecimal (c : Char) : Bool :=
  decide ('0' ≤ c) && decide (c ≤ '9')

/-- At least one digit, and what follows. -/
def digits? (s : List Char) : Option (List Char × List Char) :=
  match s.takeWhile isDecimal with
  | [] => none
  | d :: ds => some (d :: ds, s.dropWhile isDecimal)

/-- The whole part of a number: a single zero, or digits that do not start with one. -/
def whole? : List Char → Option (List Char × List Char)
  | '0' :: rest => if (rest.head?.map isDecimal).getD false then none else some (['0'], rest)
  | s => digits? s

/-- The part of a number behind a point, if there is a point. -/
def fraction? : List Char → Option (List Char × List Char)
  | '.' :: rest => (digits? rest).map fun r => ('.' :: r.1, r.2)
  | s => some ([], s)

/-- The sign of an exponent, which may be missing. -/
def exponentSign : List Char → List Char × List Char
  | '+' :: rest => (['+'], rest)
  | '-' :: rest => (['-'], rest)
  | s => ([], s)

/-- The exponent of a number, if there is one. -/
def exponent? : List Char → Option (List Char × List Char)
  | c :: rest =>
    if c = 'e' ∨ c = 'E' then
      let sign := exponentSign rest
      (digits? sign.2).map fun r => (c :: sign.1 ++ r.1, r.2)
    else some ([], c :: rest)
  | [] => some ([], [])

/-- A number without its sign, and what follows. -/
def unsigned? (s : List Char) : Option (List Char × List Char) := do
  let (whole, s) ← whole? s
  let (fraction, s) ← fraction? s
  let (exponent, s) ← exponent? s
  return (whole ++ fraction ++ exponent, s)

/-- A number, and what follows. -/
def number? : List Char → Option (List Char × List Char)
  | '-' :: rest => (unsigned? rest).map fun r => ('-' :: r.1, r.2)
  | s => unsigned? s

/-! ### Values -/

/-- A value that is no container. -/
def scalar? (s : List Char) : Option (Json × List Char) :=
  match s with
  | '"' :: rest => (body? rest).map fun r => (string r.1, r.2)
  | 'n' :: _ => (Text.afterPrefix? "null".toList s).map fun r => (null, r)
  | 't' :: _ => (Text.afterPrefix? "true".toList s).map fun r => (bool true, r)
  | 'f' :: _ => (Text.afterPrefix? "false".toList s).map fun r => (bool false, r)
  | s => (number? s).map fun r => (number r.1, r.2)

/-- A key with its colon, and the space behind it. -/
def key? (s : List Char) : Option (List Char × List Char) :=
  match s with
  | '"' :: rest =>
    (body? rest).bind fun r =>
      match skipSpace r.2 with
      | ':' :: rest => some (r.1, skipSpace rest)
      | _ => none
  | _ => none

mutual

/-- A **value** at the start of a text that does not start with space, and what follows. -/
def value? : Nat → List Char → Option (Json × List Char)
  | 0, _ => none
  | depth + 1, s =>
    match s with
    | '[' :: rest =>
      match skipSpace rest with
      | ']' :: rest => some (list [], rest)
      | s => do
        let (j, s) ← value? depth s
        let (items, s) ← items? depth (skipSpace s)
        return (list (j :: items), s)
    | '\x7b' :: rest =>
      match skipSpace rest with
      | '\x7d' :: rest => some (object [], rest)
      | s => do
        let (key, s) ← key? s
        let (j, s) ← value? depth s
        let (entries, s) ← entries? depth (skipSpace s)
        return (object ((key, j) :: entries), s)
    | s => scalar? s

/-- The items of a list behind the first one, up to the closing bracket. -/
def items? : Nat → List Char → Option (List Json × List Char)
  | 0, _ => none
  | depth + 1, s =>
    match s with
    | ']' :: rest => some ([], rest)
    | ',' :: rest => do
      let (j, s) ← value? depth (skipSpace rest)
      let (items, s) ← items? depth (skipSpace s)
      return (j :: items, s)
    | _ => none

/-- The entries of an object behind the first one, up to the closing brace. -/
def entries? : Nat → List Char → Option (List (List Char × Json) × List Char)
  | 0, _ => none
  | depth + 1, s =>
    match s with
    | '\x7d' :: rest => some ([], rest)
    | ',' :: rest => do
      let (key, s) ← key? (skipSpace rest)
      let (j, s) ← value? depth s
      let (entries, s) ← entries? depth (skipSpace s)
      return ((key, j) :: entries, s)
    | _ => none

end

/-- The value that a whole text writes. -/
def parse? (s : List Char) : Option Json :=
  match value? (s.length + 1) (skipSpace s) with
  | some (j, rest) => if (skipSpace rest).isEmpty then some j else none
  | none => none

end SchemaHistory.Json

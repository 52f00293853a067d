import SchemaHistory.Text.Digits

/-!
# JSON values

A JSON value as a tree. Strings and numbers are kept **as they are written**: a string by the
characters between its quotes, a number by its digits. What a string says is a separate question
(`Json.textOf?`), because a string can be well formed and yet say nothing: an escape may name half
of a surrogate pair without the other half. Writing goes the other way (`Json.encode`).

An object is a list of entries in the order of the text, and a key may occur twice.
-/

namespace SchemaHistory

/-- A **JSON value**. -/
inductive Json
  | null
  | bool (value : Bool)
  | number (digits : List Char)
  | string (body : List Char)
  | list (items : List Json)
  | object (entries : List (List Char × Json))
  deriving Inhabited

namespace Json

/-- The code unit that four hexadecimal digits write. -/
def codeUnit? (a b c d : Char) : Option Nat :=
  Text.ofDigits? 16 [a, b, c, d]

/-! ### What a string says -/

/-- The character that a short escape stands for. -/
def shortEscape? : Char → Option Char
  | '"' => some '"'
  | '\\' => some '\\'
  | '/' => some '/'
  | 'b' => some '\x08'
  | 'f' => some '\x0c'
  | 'n' => some '\n'
  | 'r' => some '\r'
  | 't' => some '\t'
  | _ => none

/-- Whether a code unit is the first half of a surrogate pair. -/
def isHighSurrogate (n : Nat) : Bool :=
  decide (0xD800 ≤ n) && decide (n < 0xDC00)

/-- Whether a code unit is the second half of a surrogate pair. -/
def isLowSurrogate (n : Nat) : Bool :=
  decide (0xDC00 ≤ n) && decide (n < 0xE000)

/-- The text that the body of a string **says**, unless half of a surrogate pair stands alone. -/
def textOf? : List Char → Option (List Char)
  | [] => some []
  | '\\' :: 'u' :: a :: b :: c :: d :: rest =>
    match codeUnit? a b c d with
    | none => none
    | some n =>
      if isLowSurrogate n then none
      else if isHighSurrogate n then
        match rest with
        | '\\' :: 'u' :: e :: f :: g :: h :: rest =>
          match codeUnit? e f g h with
          | none => none
          | some m =>
            if isLowSurrogate m then
              (textOf? rest).map
                (Char.ofNat (0x10000 + (n - 0xD800) * 0x400 + (m - 0xDC00)) :: ·)
            else none
        | _ => none
      else (textOf? rest).map (Char.ofNat n :: ·)
  | '\\' :: c :: rest =>
    match shortEscape? c with
    | none => none
    | some c => (textOf? rest).map (c :: ·)
  | c :: rest => (textOf? rest).map (c :: ·)

/-! ### Writing strings -/

/-- One character in the body of a string. -/
def encodeChar (c : Char) : List Char :=
  match c with
  | '"' => ['\\', '"']
  | '\\' => ['\\', '\\']
  | '\x08' => ['\\', 'b']
  | '\x0c' => ['\\', 'f']
  | '\n' => ['\\', 'n']
  | '\r' => ['\\', 'r']
  | '\t' => ['\\', 't']
  | c =>
    if c.toNat < 0x20 then
      ['\\', 'u', '0', '0', Text.digit (c.toNat / 16), Text.digit (c.toNat % 16)]
    else [c]

/-- The body of the string that says a text. -/
def encode (s : List Char) : List Char :=
  s.flatMap encodeChar

/-- The string that says a text. -/
def ofString (s : String) : Json :=
  string (encode s.toList)

/-- The string that says a text, or null. -/
def ofString? : Option String → Json
  | some s => ofString s
  | none => null

/-- An object with given keys. -/
def ofEntries (entries : List (String × Json)) : Json :=
  object (entries.map fun e => (encode e.1.toList, e.2))

end Json

end SchemaHistory

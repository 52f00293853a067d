import SchemaHistory.Text.Table.Printable

/-!
# Quoted texts

A text shown between double quotes, as it appears inside messages. The quote, the backslash and
the common controls have short escapes; every other character without a visible form of its own
is written by its code point in braces.
-/

namespace SchemaHistory.Text

/-- Whether a character is shown as it is inside quotes. -/
def isVisible (c : Char) : Bool :=
  if c.toNat < 0x7F then decide (0x20 ≤ c.toNat)
  else !(extending.has c.toNat || invisible.has c.toNat)

/-- The code point in hexadecimal digits, as few as it takes. -/
def hexDigits (n : Nat) : List Char :=
  Nat.toDigits 16 n

/-- One character of a **quoted** text. -/
def quoteChar (c : Char) : List Char :=
  match c with
  | '\x00' => ['\\', '0']
  | '\t' => ['\\', 't']
  | '\r' => ['\\', 'r']
  | '\n' => ['\\', 'n']
  | '\\' => ['\\', '\\']
  | '"' => ['\\', '"']
  | c => if isVisible c then [c] else ['\\', 'u', '\x7b'] ++ hexDigits c.toNat ++ ['\x7d']

/-- The text between double quotes. -/
def quote (s : List Char) : List Char :=
  '"' :: s.flatMap quoteChar ++ ['"']

/-- A string between double quotes. -/
def quoted (s : String) : String :=
  String.ofList (quote s.toList)

end SchemaHistory.Text

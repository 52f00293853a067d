import SchemaHistory.Text.CodeSet

/-!
# Blanks and trimming

A **blank** is a character with the property *White_Space*: the ASCII controls from tab to
carriage return, the space, and the wider spaces and separators of other scripts. The scanner,
the statement patterns and every trimming use this one class.

The ASCII part is decided by comparison, so that a statement about an ASCII character never has
to look into the table.
-/

namespace SchemaHistory.Text

/-- The blanks above ASCII. -/
def blanksAboveAscii : CodeSet :=
  [(0x0085, 0x0085), (0x00A0, 0x00A0), (0x1680, 0x1680), (0x2000, 0x200A), (0x2028, 0x2029),
   (0x202F, 0x202F), (0x205F, 0x205F), (0x3000, 0x3000)]

/-- Whether a character is **blank**. -/
def isBlank (c : Char) : Bool :=
  c == ' ' || (decide (9 ≤ c.toNat) && decide (c.toNat ≤ 13)) ||
    (decide (0x80 ≤ c.toNat) && blanksAboveAscii.has c.toNat)

/-- The text without the blanks it starts with. -/
def trimStart (s : List Char) : List Char :=
  s.dropWhile isBlank

/-- The text without the blanks it ends with. -/
def trimEnd (s : List Char) : List Char :=
  (s.reverse.dropWhile isBlank).reverse

/-- The text without the blanks at both ends. -/
def trim (s : List Char) : List Char :=
  trimEnd (trimStart s)

end SchemaHistory.Text

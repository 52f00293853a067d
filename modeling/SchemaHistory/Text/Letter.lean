import SchemaHistory.Text.Table.Letter

/-!
# Letters, numerals and digits

The classes from which names are made. A **letter** has the property *Alphabetic*, a **numeral**
is a number of any script, and a **digit** is one of the ten ASCII digits. The ASCII part of each
class is decided by comparison.
-/

namespace SchemaHistory.Text

/-- Whether a character is an ASCII **digit**. -/
def isDigit (c : Char) : Bool :=
  decide ('0' ≤ c) && decide (c ≤ '9')

/-- Whether a character is an ASCII letter. -/
def isAsciiLetter (c : Char) : Bool :=
  (decide ('a' ≤ c) && decide (c ≤ 'z')) || (decide ('A' ≤ c) && decide (c ≤ 'Z'))

/-- Whether a character is a **letter** of any script. -/
def isLetter (c : Char) : Bool :=
  isAsciiLetter c || (decide (0x80 ≤ c.toNat) && lettersAboveAscii.has c.toNat)

/-- Whether a character is a **numeral** of any script. -/
def isNumeral (c : Char) : Bool :=
  isDigit c || (decide (0x80 ≤ c.toNat) && numeralsAboveAscii.has c.toNat)

/-- Whether a character is a letter or a numeral. -/
def isLetterOrNumeral (c : Char) : Bool :=
  isLetter c || isNumeral c

end SchemaHistory.Text

/-!
# Digits

The digits of the bases up to sixteen, as characters and as numbers. Letters count as digits in
both cases.
-/

namespace SchemaHistory.Text

/-- The value of a **digit**, up to fifteen. -/
def digitValue? (c : Char) : Option Nat :=
  let n := c.toNat
  if 0x30 ≤ n ∧ n ≤ 0x39 then some (n - 0x30)
  else if 0x41 ≤ n ∧ n ≤ 0x46 then some (n - 0x41 + 10)
  else if 0x61 ≤ n ∧ n ≤ 0x66 then some (n - 0x61 + 10)
  else none

/-- Whether a character is a digit of a base. -/
def isDigitOf (base : Nat) (c : Char) : Bool :=
  match digitValue? c with
  | some d => decide (d < base)
  | none => false

/-- The digit of a value below sixteen, in lower case. -/
def digit (n : Nat) : Char :=
  if n < 10 then Char.ofNat (0x30 + n) else Char.ofNat (0x61 + (n - 10))

/-- The number that a text writes in a base, if all its characters are digits of the base. The
empty text writes zero. -/
def ofDigits? (base : Nat) (s : List Char) : Option Nat :=
  if s.all (isDigitOf base) then
    some (s.foldl (fun n c => n * base + (digitValue? c).getD 0) 0)
  else none

end SchemaHistory.Text

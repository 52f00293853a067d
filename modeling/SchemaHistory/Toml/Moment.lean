import SchemaHistory.Calendar
import SchemaHistory.Text.Digits

/-!
# Reading moments

A moment is a date, a time of day, or a date with a time and perhaps its distance from universal
time. Dates have to exist; a minute may have a leap second.
-/

namespace SchemaHistory.Toml

/-- The number that two digits write, if it lies between two bounds, and what follows. -/
def twoDigits? (low high : Nat) : List Char → Option (Nat × List Char)
  | a :: b :: rest =>
    (Text.ofDigits? 10 [a, b]).bind fun n => if low ≤ n ∧ n ≤ high then some (n, rest) else none
  | _ => none

/-- What follows a given character. -/
def afterChar? (c : Char) : List Char → Option (List Char)
  | d :: rest => if d = c then some rest else none
  | [] => none

/-- What follows a **date**. -/
def date? : List Char → Option (List Char)
  | a :: b :: c :: d :: '-' :: rest => do
    let year ← Text.ofDigits? 10 [a, b, c, d]
    let (month, s) ← twoDigits? 1 12 rest
    let s ← afterChar? '-' s
    let (day, s) ← twoDigits? 1 31 s
    if day ≤ Calendar.daysInMonth year month then some s else none
  | _ => none

/-- What follows hours and minutes. -/
def hourMinute? (s : List Char) : Option (List Char) := do
  let (_, s) ← twoDigits? 0 23 s
  let s ← afterChar? ':' s
  let (_, s) ← twoDigits? 0 59 s
  return s

/-- What follows the fraction of a second, if there is one. -/
def skipFraction : List Char → List Char
  | '.' :: rest =>
    if (rest.takeWhile (Text.isDigitOf 10)).isEmpty then '.' :: rest
    else rest.dropWhile (Text.isDigitOf 10)
  | s => s

/-- What follows a **time of day**. -/
def time? (s : List Char) : Option (List Char) := do
  let s ← hourMinute? s
  let s ← afterChar? ':' s
  let (_, s) ← twoDigits? 0 60 s
  return skipFraction s

/-- What follows a distance from universal time, if there is one. -/
def skipOffset : List Char → List Char
  | 'Z' :: rest => rest
  | 'z' :: rest => rest
  | c :: rest => if c = '+' ∨ c = '-' then (hourMinute? rest).getD (c :: rest) else c :: rest
  | [] => []

/-- What follows a time of day behind a date, if there is one. -/
def skipTime : List Char → List Char
  | c :: rest =>
    if c = 'T' ∨ c = 't' ∨ c = ' ' then ((time? rest).map skipOffset).getD (c :: rest)
    else c :: rest
  | [] => []

/-- What follows a **moment**. -/
def moment? (s : List Char) : Option (List Char) :=
  match date? s with
  | some rest => some (skipTime rest)
  | none => time? s

end SchemaHistory.Toml

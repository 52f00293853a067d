/-!
# Dates

A date of the Gregorian calendar, extended to all years of the range that a calendar library
usually keeps. Only dates that exist can be written down, so a date needs no further check.
-/

namespace SchemaHistory

namespace Calendar

/-- Whether a year has a leap day. -/
def isLeapYear (year : Int) : Bool :=
  year % 4 == 0 && (year % 100 != 0 || year % 400 == 0)

/-- The number of days of a month; zero if there is no such month. -/
def daysInMonth (year : Int) : Nat → Nat
  | 1 | 3 | 5 | 7 | 8 | 10 | 12 => 31
  | 4 | 6 | 9 | 11 => 30
  | 2 => if isLeapYear year then 29 else 28
  | _ => 0

/-- Whether there is such a date. -/
def exists? (year : Int) (month day : Nat) : Bool :=
  decide (-262143 ≤ year) && decide (year ≤ 262142) && decide (1 ≤ day) &&
    decide (day ≤ daysInMonth year month)

end Calendar

/-- A **date** that exists. -/
structure Date where
  year : Int
  month : Nat
  day : Nat
  exists_date : Calendar.exists? year month day = true
  deriving DecidableEq

instance : Inhabited Date := ⟨⟨2000, 1, 1, by decide⟩⟩

namespace Date

/-- The date of three numbers, if there is one. -/
def of? (year : Int) (month day : Nat) : Option Date :=
  if h : Calendar.exists? year month day = true then some ⟨year, month, day, h⟩ else none

/-- A number in decimal digits, filled up with zeros on the left. -/
def zeroFilled (width n : Nat) : String :=
  let digits := toString n
  "".pushn '0' (width - digits.length) ++ digits

/-- A year in at least four digits. Years before year zero have a sign in front, and so have
years of more than four digits. -/
def yearText (year : Int) : String :=
  if year < 0 then "-" ++ zeroFilled 4 year.natAbs
  else if year > 9999 then "+" ++ zeroFilled 4 year.natAbs
  else zeroFilled 4 year.natAbs

/-- The date with underscores between year, month and day. -/
def underscored (d : Date) : String :=
  yearText d.year ++ "_" ++ zeroFilled 2 d.month ++ "_" ++ zeroFilled 2 d.day

end Date

end SchemaHistory

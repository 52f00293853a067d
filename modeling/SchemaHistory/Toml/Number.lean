import SchemaHistory.Text.Digits

/-!
# Reading numbers

Whole numbers in four bases and numbers with a fraction or an exponent. Underscores may stand
between digits. A whole number has to fit 64 bits with a sign, and a positive number with a
fraction or an exponent must not be rounded to infinity; nothing else about the value of a number
matters here.
-/

namespace SchemaHistory.Toml

/-- The digits behind a first one, without the underscores between them, and what follows. -/
def moreDigits (base : Nat) : List Char → List Char × List Char
  | '_' :: c :: rest =>
    if Text.isDigitOf base c then
      let r := moreDigits base rest
      (c :: r.1, r.2)
    else ([], '_' :: c :: rest)
  | c :: rest =>
    if Text.isDigitOf base c then
      let r := moreDigits base rest
      (c :: r.1, r.2)
    else ([], c :: rest)
  | [] => ([], [])

/-- At least one **digit**, without the underscores between digits, and what follows. -/
def digits? (base : Nat) : List Char → Option (List Char × List Char)
  | c :: rest =>
    if Text.isDigitOf base c then
      let r := moreDigits base rest
      some (c :: r.1, r.2)
    else none
  | [] => none

/-- Whether a text starts with a minus sign, and what follows the sign, if there is one. -/
def sign : List Char → Bool × List Char
  | '+' :: rest => (false, rest)
  | '-' :: rest => (true, rest)
  | s => (false, s)

/-- The whole part of a decimal number: a single zero, or digits that do not start with one. -/
def wholePart? : List Char → Option (List Char × List Char)
  | '0' :: rest => some (['0'], rest)
  | s => digits? 10 s

/-- The number that decimal digits write. -/
def decimal (digits : List Char) : Nat :=
  (Text.ofDigits? 10 digits).getD 0

/-! ### Whole numbers -/

/-- The number of whole numbers without a minus sign that fit 64 bits with a sign. -/
def integerBound : Nat :=
  Nat.pow 2 63

/-- The end of a whole number in a base other than ten, if it fits. -/
def based? (base : Nat) (s : List Char) : Option (List Char) :=
  (digits? base s).bind fun r =>
    match Text.ofDigits? base r.1 with
    | some n => if n < integerBound then some r.2 else none
    | none => none

/-- What follows a **whole number**, if the text starts with one that fits. -/
def integer? : List Char → Option (List Char)
  | '0' :: 'x' :: rest => based? 16 rest
  | '0' :: 'o' :: rest => based? 8 rest
  | '0' :: 'b' :: rest => based? 2 rest
  | s =>
    let signed := sign s
    (wholePart? signed.2).bind fun r =>
      if decimal r.1 < integerBound + (if signed.1 then 1 else 0) then some r.2 else none

/-! ### Fractions and exponents -/

/-- The least number that is rounded to infinity: half a step above the greatest finite one. -/
def infinityBound : Nat :=
  Nat.pow 2 1024 - Nat.pow 2 970

/-- Whether `m` times ten to the power `e` is rounded to infinity. The number of digits before the
point decides, unless it is just the critical one. -/
def isInfinite (m : Nat) (e : Int) : Bool :=
  let size := (toString m).length + e
  if m = 0 ∨ size < 309 then false
  else if 309 < size then true
  else if 0 ≤ e then decide (infinityBound ≤ m * Nat.pow 10 e.toNat)
  else decide (infinityBound * Nat.pow 10 (-e).toNat ≤ m)

/-- The digits behind a point, and what follows. -/
def fraction? : List Char → Option (List Char × List Char)
  | '.' :: rest => digits? 10 rest
  | _ => none

/-- The exponent, and what follows. -/
def exponent? : List Char → Option (Int × List Char)
  | c :: rest =>
    if c = 'e' ∨ c = 'E' then
      let signed := sign rest
      (digits? 10 signed.2).map fun r =>
        (if signed.1 then -(decimal r.1 : Int) else (decimal r.1 : Int), r.2)
    else none
  | [] => none

/-- What follows a number with a fraction or an exponent, if it is finite or negative. -/
def finiteFloat? (s : List Char) : Option (List Char) := do
  let signed := sign s
  let (whole, s) ← wholePart? signed.2
  let (fraction, s, isFraction) :=
    match fraction? s with
    | some (ds, s) => (ds, s, true)
    | none => ([], s, false)
  let (exponent, s) ←
    match exponent? s with
    | some (e, s) => some (e, s)
    | none => if isFraction then some (0, s) else none
  if !signed.1 && isInfinite (decimal (whole ++ fraction)) (exponent - fraction.length) then none
  else some s

/-- What follows a **number with a fraction or an exponent**, or one of the values that are no
numbers. -/
def float? (s : List Char) : Option (List Char) :=
  match finiteFloat? s with
  | some rest => some rest
  | none =>
    match (sign s).2 with
    | 'i' :: 'n' :: 'f' :: rest => some rest
    | 'n' :: 'a' :: 'n' :: rest => some rest
    | _ => none

end SchemaHistory.Toml

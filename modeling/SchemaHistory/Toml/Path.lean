import SchemaHistory.Toml.Document
import SchemaHistory.Toml.Quoted

/-!
# Reading paths

A path is one key, or several with dots between them. A key is written plainly or between quotes,
and blanks may stand around each. The blanks at both ends belong to the path as a whole, all
others to the key that they stand beside.
-/

namespace SchemaHistory.Toml

/-- The depth at which values, and the length at which paths, are refused. -/
def nestingLimit : Nat :=
  80

/-- The part of a text that comes before its rest. -/
def spelled (s rest : List Char) : List Char :=
  s.take (s.length - rest.length)

/-- One key of a **path** with the blanks around it. -/
structure Step where
  before : List Char
  name : List Char
  spelling : List Char
  after : List Char

/-- Whether a character may stand in a key without quotes. -/
def isKeyChar (c : Char) : Bool :=
  (decide ('a' ≤ c) && decide (c ≤ 'z')) || (decide ('A' ≤ c) && decide (c ≤ 'Z')) ||
    Text.isDigitOf 10 c || c == '_' || c == '-'

/-- The name of a key, and what follows. -/
def keyName? (s : List Char) : Option (List Char × List Char) :=
  match lineText? s with
  | some r => some r
  | none =>
    if (s.takeWhile isKeyChar).isEmpty then none
    else some (s.takeWhile isKeyChar, s.dropWhile isKeyChar)

/-- One key of a path, and what follows. -/
def step? (s : List Char) : Option (Step × List Char) := do
  let (before, s) := blanks s
  let (name, rest) ← keyName? s
  let (after, t) := blanks rest
  return (⟨before, name, spelled s rest, after⟩, t)

/-- The keys of a path, and what follows. -/
def steps? : Nat → List Char → Option (Step × List Step × List Char)
  | 0, _ => none
  | fuel + 1, s => do
    let (step, s) ← step? s
    match s with
    | '.' :: rest =>
      let (next, steps, s) ← steps? fuel rest
      return (step, next :: steps, s)
    | s => return (step, [], s)

/-- The keys that steps make: those that lead to a table, and the last one. What stands before the
first and behind the last is the decor of the whole path. -/
def Step.keys (start before : List Char) (step : Step) : List Step → List Key × Key
  | [] =>
    ([], { name := String.ofList step.name, spelling := some step.spelling
           leaf := ⟨some start, some step.after⟩, dotted := ⟨some before, some []⟩ })
  | next :: rest =>
    let r := next.keys start next.before rest
    ({ name := String.ofList step.name, spelling := some step.spelling
       dotted := ⟨some before, some step.after⟩ } :: r.1, r.2)

/-- A **path** at the start of a text, and what follows. -/
def path? (s : List Char) : Option (List Key × Key × List Char) := do
  let (step, steps, rest) ← steps? (s.length + 1) s
  if nestingLimit ≤ steps.length + 1 then none
  else
    let (tables, key) := step.keys step.before [] steps
    return (tables, key, rest)

end SchemaHistory.Toml

import SchemaHistory.Toml.Moment
import SchemaHistory.Toml.Number
import SchemaHistory.Toml.Path

/-!
# Reading values

A value is a scalar, an array or an inline table. Arrays may run over several lines and have a
comma behind their last item; inline tables may not. Every blank and comment is kept with the value
that it stands before or behind.

Values nest less than eighty deep. The other bound on the readers, which nest and repeat, is the
length of the text; no reading exhausts it.
-/

namespace SchemaHistory.Toml

/-- A value that contains no other, and what follows. -/
def scalar? (s : List Char) : Option (Scalar × List Char) :=
  match s with
  | 't' :: 'r' :: 'u' :: 'e' :: rest => some (.boolean true, rest)
  | 'f' :: 'a' :: 'l' :: 's' :: 'e' :: rest => some (.boolean false, rest)
  | s =>
    match text? s with
    | some r => some (.string (String.ofList r.1), r.2)
    | none =>
      match moment? s with
      | some rest => some (.moment, rest)
      | none =>
        match float? s with
        | some rest => some (.float, rest)
        | none => (integer? s).map fun rest => (.integer, rest)

/-- The entries of an inline table with one more value at the end of a path. -/
def addValue? (key : Key) (v : Value) :
    List Key → List (Key × Value) → Option (List (Key × Value))
  | [], entries => if (find? key.name entries).isSome then none else some (entries ++ [(key, v)])
  | k :: path, entries =>
    match find? k.name entries with
    | none => (addValue? key v path []).map fun es => entries ++ [(k, .table es true [] {})]
    | some (.table es true preamble d) =>
      (addValue? key v path es).map fun es => refill k.name (.table es true preamble d) entries
    | some _ => none

mutual

/-- A **value** at the start of a text, and what follows; `room` is how much deeper values may
still nest. -/
def value? (room : Nat) : Nat → List Char → Option (Value × List Char)
  | 0, _ => none
  | fuel + 1, s =>
    match s with
    | '[' :: rest =>
      match room with
      | 0 => none
      | room + 1 => do
        let (items, comma, trailing, rest) ← items? room fuel rest
        return (.array items comma trailing {}, rest)
    | '\x7b' :: rest =>
      match room with
      | 0 => none
      | room + 1 => do
        let (preamble, s) := blanks rest
        match s with
        | '\x7d' :: rest => return (.table [] false preamble {}, rest)
        | _ =>
          let (entries, rest) ← entries? room fuel [] rest
          return (.table entries false [] {}, rest)
    | s => (scalar? s).map fun r => (.scalar r.1 (spelled s r.2) {}, r.2)

/-- The items of an array up to the closing bracket, whether a comma stands behind the last one,
the spacing before the bracket, and what follows. -/
def items? (room : Nat) : Nat → List Char →
    Option (List Value × Bool × List Char × List Char)
  | 0, _ => none
  | fuel + 1, s =>
    let (before, s) := spacing false s
    match s with
    | ']' :: rest => some ([], false, before, rest)
    | s => do
      let (v, s) ← value? room fuel s
      let (after, s) := spacing false s
      let v := v.decorate ⟨some before, some after⟩
      match s with
      | ']' :: rest => return ([v], false, [], rest)
      | ',' :: rest =>
        let (items, comma, trailing, rest) ← items? room fuel rest
        return (v :: items, comma || items.isEmpty, trailing, rest)
      | _ => none

/-- The entries of an inline table up to the closing brace, given those that were read before, and
what follows. -/
def entries? (room : Nat) : Nat → List (Key × Value) → List Char →
    Option (List (Key × Value) × List Char)
  | 0, _, _ => none
  | fuel + 1, entries, s => do
    let (tables, key, s) ← path? s
    match s with
    | '=' :: rest =>
      let (before, s) := blanks rest
      let (v, s) ← value? room fuel s
      let (after, s) := blanks s
      let entries ← addValue? key (v.decorate ⟨some before, some after⟩) tables entries
      match s with
      | '\x7d' :: rest => return (entries, rest)
      | ',' :: rest => entries? room fuel entries rest
      | _ => none
    | _ => none

end

end SchemaHistory.Toml

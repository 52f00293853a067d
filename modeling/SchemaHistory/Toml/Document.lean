/-!
# TOML documents

A TOML document is kept together with its layout: the spelling of keys and values, and the blanks,
comments and empty lines around them. Printing a document that was read gives its text again, up
to carriage returns, and a change touches only what it replaces.

What stands around a part is its **decor**. A part that was never read has none, and is printed
with the decor that is usual for its kind.
-/

namespace SchemaHistory.Toml

/-- The text **around** a part of a document; nothing stands for what is usual. -/
structure Decor where
  before : Option (List Char) := none
  after : Option (List Char) := none
  deriving DecidableEq, Inhabited

/-- A **key**. Its leaf decor counts where it is the last of a dotted path, its dotted decor where
it is not. -/
structure Key where
  name : String
  /-- How the key is written, if not plainly. -/
  spelling : Option (List Char) := none
  leaf : Decor := {}
  dotted : Decor := {}
  deriving DecidableEq, Inhabited

/-- What a **scalar** is. Numbers and moments are only told apart from texts and truth values. -/
inductive Scalar
  | string (s : String)
  | integer
  | float
  | boolean (b : Bool)
  | moment
  deriving DecidableEq, Inhabited

/-- A **value**. A table that only stands for the first part of dotted keys is dotted itself. -/
inductive Value
  | scalar (value : Scalar) (spelling : List Char) (decor : Decor)
  | array (items : List Value) (comma : Bool) (trailing : List Char) (decor : Decor)
  | table (entries : List (Key × Value)) (dotted : Bool) (preamble : List Char) (decor : Decor)
  deriving Inhabited

/-- The **head** of a table. A table is implicit if it only exists because of what is in it, and
has a position if the document has a header for it. -/
structure Head where
  decor : Decor := {}
  implicit : Bool := false
  dotted : Bool := false
  position : Option Nat := none
  deriving DecidableEq, Inhabited

/-- What a key of a table leads to. -/
inductive Item
  | value (v : Value)
  | table (head : Head) (entries : List (Key × Item))
  | tables (ts : List (Head × List (Key × Item)))
  deriving Inhabited

/-- The entries of a table. -/
abbrev Entries := List (Key × Item)

/-- A **table** with its head. -/
abbrev Table := Head × Entries

/-- A **document**: its top table, and what stands behind its last part. -/
structure Document where
  root : Table := ({}, [])
  trailing : List Char := []
  deriving Inhabited

/-! ### Entries -/

/-- What a name leads to. -/
def find? {α : Type} (name : String) (entries : List (Key × α)) : Option α :=
  (entries.find? (·.1.name == name)).map (·.2)

/-- The key without its layout. -/
def Key.plain (k : Key) : Key where
  name := k.name

/-- The entries with a value stored under a name. A value that is there is replaced in place, and
its key loses its layout; a new name goes to the end. -/
def put {α : Type} (name : String) (a : α) : List (Key × α) → List (Key × α)
  | [] => [({ name }, a)]
  | (k, b) :: rest => if k.name = name then (k.plain, a) :: rest else (k, b) :: put name a rest

/-- The entries with something else under a name that they have. -/
def refill {α : Type} (name : String) (a : α) (entries : List (Key × α)) : List (Key × α) :=
  entries.map fun e => if e.1.name = name then (e.1, a) else e

/-- The items under some names, as a record reads them: by name from a table, in their order from
an array, and none at all from a moment. Other values are no records. -/
def Item.fields? (names : List String) : Item → Option (List (Option Item))
  | value (.table entries ..) => some (names.map fun n => (find? n entries).map value)
  | table _ entries => some (names.map fun n => find? n entries)
  | value (.array items ..) =>
    some ((List.range names.length).map fun i => items[i]?.map value)
  | tables ts =>
    some ((List.range names.length).map fun i => ts[i]?.map fun t => table t.1 t.2)
  | value (.scalar .moment ..) => some (names.map fun _ => none)
  | value (.scalar ..) => none

/-- The value with other decor. -/
def Value.decorate (d : Decor) : Value → Value
  | scalar s spelling _ => scalar s spelling d
  | array items comma trailing _ => array items comma trailing d
  | table entries dotted preamble _ => table entries dotted preamble d

end SchemaHistory.Toml

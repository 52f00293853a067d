/-!
# Call chains

The statements of a migration are chains of calls, such as
`$table->string('name', 100)->nullable()`. The first call says what is done and the others modify
it. A chain is kept with the arguments as far as they are literals, and with the source text of
the arguments, because expressions are carried through word for word.
-/

namespace SchemaHistory

/-- An **argument** of a call. -/
inductive Argument
  /-- A quoted string, by its content. -/
  | string (content : String)
  /-- An array literal. -/
  | array (items : List Argument)
  /-- Anything else, as it was written. -/
  | raw (text : String)
  deriving Inhabited, BEq

namespace Argument

/-- The content of a string. -/
def string? : Argument → Option String
  | string s => some s
  | _ => none

/-- The argument itself if it is a string, or the strings directly inside an array. -/
def strings : Argument → List String
  | string s => [s]
  | array items => items.filterMap string?
  | raw _ => []

end Argument

/-- A **call** in a chain. -/
structure Call where
  name : String
  args : List Argument
  /-- The source text between the parentheses. -/
  rawArgs : String
  /-- The source text of the arguments after the first one, if there is any. -/
  trailingArgs : Option String
  deriving Inhabited, BEq

namespace Call

/-- The first argument as a string, or the first string of an array. -/
def firstString? (c : Call) : Option String :=
  c.args.head?.bind fun a => a.strings.head?

/-- The argument at a place, if it is a string. -/
def stringAt? (c : Call) (i : Nat) : Option String :=
  c.args[i]?.bind Argument.string?

/-- All strings that the arguments name. -/
def strings (c : Call) : List String :=
  c.args.flatMap Argument.strings

end Call

/-- A **chain**: what the calls are made on, and the calls. -/
structure Chain where
  receiver : String
  calls : List Call
  deriving Inhabited, BEq

namespace Chain

/-- The first call, which says what is done. -/
def head? (c : Chain) : Option Call :=
  c.calls.head?

/-- The calls after the first one, which modify it. -/
def modifiers (c : Chain) : List Call :=
  c.calls.tail

/-- The first call of a name. -/
def find? (c : Chain) (name : String) : Option Call :=
  c.calls.find? (·.name == name)

end Chain

/-- What follows a receiver: calls, or a value for one of its properties. -/
inductive Chained
  | calls (chain : Chain)
  | assignment (receiver property value : String)
  deriving Inhabited, BEq

end SchemaHistory

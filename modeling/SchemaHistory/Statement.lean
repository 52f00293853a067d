import SchemaHistory.Alteration
import SchemaHistory.Chain.Reader
import SchemaHistory.Failure

/-!
# Statements

A logical line is recognised as one **statement**, or as nothing that matters to the schema. The
questions are asked in a fixed order, and the first one that is answered decides:

1. does the reverse migration begin here?
2. does a block end here?
3. is there a raw alteration?
4. is there a call on the schema class?
5. inside the block of a table: is there a call or an assignment on a variable?
-/

namespace SchemaHistory

open Source Text

/-- What a **table directive** does with its table. -/
inductive TableVerb
  | create
  | alter
  | drop
  deriving DecidableEq, Inhabited

/-- A **statement**. -/
inductive Statement
  /-- The reverse migration begins; nothing behind it is replayed. -/
  | downBoundary
  /-- A block ends, and with it the block of a table. -/
  | blockClose
  /-- SQL that changes a column. -/
  | alteration (a : Alteration)
  /-- A table gets another name. -/
  | renameTable (old new : String)
  /-- A table is opened or dropped. -/
  | directive (verb : TableVerb) (table : String)
  /-- A call on the schema class that changes nothing. -/
  | query (verb : String)
  /-- A property of the open table gets a value. -/
  | assignment (property value : String)
  /-- Calls on the open table. -/
  | calls (chain : Chain)
  deriving Inhabited

namespace Statement

/-- What follows the head of the reverse migration, at the start of a text. -/
def afterDownHead? (s : List Char) : Option (List Char) := do
  let s ← afterPrefix? "function".toList s
  let s ← Alteration.afterBlanks? s
  let s ← afterPrefix? "down".toList s
  afterPrefix? ['('] (trimStart s)

/-- Whether the head of the reverse migration stands on a line. -/
def opensDown (line : List Char) : Bool :=
  (firstMatch? afterDownHead? line).isSome

/-- The call of a chain on the schema class that counts: the first one that does not choose a
connection. -/
def directiveCall? (chain : Chain) : Option Call :=
  match chain.calls.find? (·.name != "connection") with
  | some call => some call
  | none => chain.calls.getLast?

/-- A directive about the table that the call names. -/
def tableDirective (verb : TableVerb) (call : Call) (location : Location) :
    Except Failure Statement :=
  match call.stringAt? 0 with
  | some table => .ok (directive verb table)
  | none => .error (.malformedStatement (.directiveNeedsTable call.name) location)

/-- The statement that a call on the schema class makes. -/
def ofDirectiveCall (call : Call) (location : Location) : Except Failure Statement :=
  match call.name with
  | "rename" =>
    match call.stringAt? 0, call.stringAt? 1 with
    | some old, some new => .ok (renameTable old new)
    | _, _ => .error (.malformedStatement .renameNeedsTables location)
  | "create" => tableDirective .create call location
  | "table" => tableDirective .alter call location
  | "drop" | "dropIfExists" => tableDirective .drop call location
  | verb => .ok (query verb)

/-- The statement that a chain on the schema class makes. -/
def ofSchemaChain (chain : Chain) (location : Location) : Except Failure Statement :=
  match directiveCall? chain with
  | some call => ofDirectiveCall call location
  | none => .ok (query "")

/-- The statement that a chain on the open table makes. -/
def ofChained : Chained → Statement
  | .calls chain => calls chain
  | .assignment _ property value => assignment property value

/-- **Recognises** a logical line. Calls and assignments count only inside the block of a
table. -/
def recognize (line : List Char) (inTable : Bool) (location : Location) :
    Except Failure (Option Statement) :=
  if opensDown line then .ok (some downBoundary)
  else if line.contains '\x7d' then .ok (some blockClose)
  else
    match Alteration.parse? line with
    | some a => .ok (some (alteration a))
    | none =>
      match Chain.ofClass? "Schema" (tokens line) with
      | some chain => (ofSchemaChain chain location).map some
      | none =>
        if inTable then .ok ((Chained.ofVariable? (tokens line)).map ofChained) else .ok none

end Statement

end SchemaHistory

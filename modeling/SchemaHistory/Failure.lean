import SchemaHistory.Text.Quoted

/-!
# Failures and diagnostics

Everything that can go wrong while a history of migrations is read, replayed, ordered or written.
A failure that is **recoverable** is reported as a diagnostic and the replay goes on; every other
one ends the run. Failures are causes: the sentence that a user sees is made in `Failure.message`
and nowhere else.
-/

namespace SchemaHistory

/-- A **location**: a source and the number of a logical line in it, counted from one. -/
structure Location where
  source : String
  line : Nat
  deriving DecidableEq, Inhabited

/-- A location as it stands in messages. -/
def Location.text (l : Location) : String :=
  l.source ++ ":" ++ toString l.line

/-- A table that no order can place, with the foreign tables that it waits for. -/
structure WaitingTable where
  table : String
  waitingOn : List String
  deriving DecidableEq

/-- What is missing in a statement that is known but cannot be used. -/
inductive Malformation
  /-- A table rename without two literal names. -/
  | renameNeedsTables
  /-- A table directive without a literal name. -/
  | directiveNeedsTable (verb : String)
  /-- A column rename without two literal names. -/
  | renameNeedsColumns
  /-- A column call without a literal name. -/
  | columnNeedsName (call : String)
  /-- A foreign key without its three literal arguments. -/
  | foreignKeyNeedsArguments
  /-- A chain that has no call. -/
  | emptyChain
  /-- Any other reason, in words. -/
  | other (reason : String)
  deriving DecidableEq

/-- The reason in words. -/
def Malformation.message : Malformation → String
  | renameNeedsTables => "Schema::rename needs two literal table names"
  | directiveNeedsTable verb => "Schema::" ++ verb ++ " needs a literal table name"
  | renameNeedsColumns => "renameColumn needs two literal column names"
  | columnNeedsName call => "\x60" ++ call ++ "\x60 needs a literal column name"
  | foreignKeyNeedsArguments =>
    "foreign key needs literal foreign(), references() and on() arguments"
  | emptyChain => "empty call chain"
  | other reason => reason

/-- A **failure**. -/
inductive Failure
  /-- Reading or writing a file failed. -/
  | io (reason : String)
  /-- The settings file could not be read. -/
  | settings (reason : String)
  /-- A command cannot be carried out as it was given. -/
  | usage (reason : String)
  /-- A call that is known but cannot be replayed. -/
  | unsupportedOperation (call table : String) (location : Location)
  /-- A statement about a table that the schema does not have. -/
  | unknownTable (table : String) (location : Location)
  /-- A statement about a column that its table does not have. -/
  | unknownColumn (table column : String) (location : Location)
  /-- A rename to a name that another table had. -/
  | tableReplaced (table : String) (location : Location)
  /-- A call on a table that is not known at all. -/
  | unrecognizedCall (call : String) (location : Location)
  /-- A statement whose literal arguments are missing. -/
  | malformedStatement (reason : Malformation) (location : Location)
  /-- Foreign keys that no order of the tables satisfies. -/
  | unresolvableOrder (waiting : List WaitingTable)
  deriving DecidableEq

namespace Failure

/-- Whether the replay goes on after this failure. -/
def isRecoverable : Failure → Bool
  | unsupportedOperation .. | unknownTable .. | unknownColumn .. | tableReplaced .. => true
  | _ => false

/-- A table that waits, as it stands in messages. -/
def waitingText (w : WaitingTable) : String :=
  w.table ++ " (depends on " ++ ", ".intercalate w.waitingOn ++ ")"

/-- The **message** of a failure. -/
def message : Failure → String
  | io reason => "I/O error: " ++ reason
  | settings reason => "Config error: " ++ reason
  | usage reason => "CLI error: " ++ reason
  | unsupportedOperation call table l =>
    "Cannot handle \x60" ++ call ++ "\x60 on table " ++ table ++ " at " ++ l.text ++ ", skipped"
  | unknownTable table l => "Statement at " ++ l.text ++ " references unknown table " ++ table
  | unknownColumn table column l =>
    "Statement at " ++ l.text ++ " references non-existent column " ++ table ++ "." ++ column
  | tableReplaced table l => "Rename at " ++ l.text ++ " replaced existing table " ++ table
  | unrecognizedCall call l => "Unknown table operation \x60" ++ call ++ "\x60 at " ++ l.text
  | malformedStatement reason l => "Malformed statement at " ++ l.text ++ ": " ++ reason.message
  | unresolvableOrder waiting =>
    "Cannot resolve foreign key order for: " ++ "; ".intercalate (waiting.map waitingText)

/-! ### The record of a failure -/

/-- The **kind** of a failure, which names it in records. -/
def kind : Failure → String
  | io _ => "IoError"
  | settings _ => "ConfigError"
  | usage _ => "CliError"
  | unsupportedOperation .. => "UnsupportedOperation"
  | unknownTable .. => "UnknownTable"
  | unknownColumn .. => "UnknownColumn"
  | tableReplaced .. => "TableReplaced"
  | unrecognizedCall .. => "UnrecognizedCall"
  | malformedStatement .. => "MalformedStatement"
  | unresolvableOrder _ => "UnresolvableDependencies"

/-- A record: its name and its fields between braces. -/
def recordText (name : String) (fields : List (String × String)) : String :=
  name ++ " \x7b " ++ ", ".intercalate (fields.map fun f => f.1 ++ ": " ++ f.2) ++ " \x7d"

/-- A list between brackets. -/
def listText (items : List String) : String :=
  "[" ++ ", ".intercalate items ++ "]"

/-- The record of a location. -/
def locationRecord (l : Location) : String :=
  recordText "SourceLocation" [("source", Text.quoted l.source), ("line", toString l.line)]

/-- The record of a table that waits. -/
def waitingRecord (w : WaitingTable) : String :=
  recordText "UnresolvedTable"
    [("table", Text.quoted w.table), ("waiting_on", listText (w.waitingOn.map Text.quoted))]

/-- The fields of a failure, each with its value as text. -/
def fields : Failure → List (String × String)
  | io reason | settings reason | usage reason => [("message", Text.quoted reason)]
  | unsupportedOperation call table l =>
    [("call", Text.quoted call), ("table", Text.quoted table), ("location", locationRecord l)]
  | unknownTable table l | tableReplaced table l =>
    [("table", Text.quoted table), ("location", locationRecord l)]
  | unknownColumn table column l =>
    [("table", Text.quoted table), ("column", Text.quoted column), ("location", locationRecord l)]
  | unrecognizedCall call l => [("call", Text.quoted call), ("location", locationRecord l)]
  | malformedStatement reason l =>
    [("message", Text.quoted reason.message), ("location", locationRecord l)]
  | unresolvableOrder waiting => [("unresolved", listText (waiting.map waitingRecord))]

/-- The **record** of a failure: its kind with all fields, for logs. -/
def record (f : Failure) : String :=
  recordText f.kind f.fields

end Failure

/-! ### Results -/

/-- A result that is computed in two steps comes from a result of the first one. -/
theorem exists_of_bind_eq_ok {ε α β : Type} {x : Except ε α} {f : α → Except ε β} {b : β}
    (h : (x >>= f) = .ok b) : ∃ a, x = .ok a ∧ f a = .ok b := by
  cases x with
  | error e => exact absurd h (by simp [Bind.bind, Except.bind])
  | ok a => exact ⟨a, rfl, h⟩

/-- A result that is mapped comes from a result. -/
theorem exists_of_map_eq_ok {ε α β : Type} {x : Except ε α} {f : α → β} {b : β}
    (h : x.map f = .ok b) : ∃ a, x = .ok a ∧ f a = b := by
  cases x with
  | error e => exact absurd h (by simp [Except.map])
  | ok a => exact ⟨a, rfl, Except.ok.inj h⟩

end SchemaHistory

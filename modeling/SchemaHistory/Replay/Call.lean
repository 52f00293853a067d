import SchemaHistory.Replay.Definition

/-!
# Calls on a table

What one chain of calls does to the open table. The effect depends on the table alone: it is a
changed table with the diagnostics that were reported on the way, or a failure that ends the run.
-/

namespace SchemaHistory

namespace Table

/-- The effect of a call: the changed table and what is reported. -/
abbrev Effect := Except Failure (Table × List Failure)

/-- An effect that reports nothing. -/
def quietly (t : Table) : Effect :=
  .ok (t, [])

/-- The table without some columns; those that it does not have are passed over. -/
def dropColumns (t : Table) (names : List String) : Table :=
  names.foldl dropColumn t

/-- The table without the relationships that some names mean. -/
def dropRelationships (t : Table) (names : List String) : Table :=
  names.foldl dropRelationship t

/-- One column becomes **unique**. A composite index cannot be expressed by a column. -/
def makeUnique (t : Table) (key : String) (head : Call) (location : Location) : Effect :=
  match head.args.head?.map Argument.strings with
  | some [name] =>
    if t.columns.contains name then
      quietly { t with columns := t.columns.modify name fun c => { c with unique := true } }
    else
      .ok (t, [.unknownColumn key name location])
  | _ => .ok (t, [.unsupportedOperation head.name key location])

/-- A column is renamed by a call. -/
def renameByCall (t : Table) (key : String) (head : Call) (location : Location) : Effect :=
  match head.stringAt? 0, head.stringAt? 1 with
  | some old, some new =>
    match t.renameColumn? old new with
    | some t' => quietly t'
    | none => .ok (t, [.unknownColumn key old location])
  | _, _ => .error (.malformedStatement .renameNeedsColumns location)

/-- A chain defines a column, and with it perhaps the primary key and a foreign key. -/
def define (t : Table) (type : ColumnType) (chain : Chain) (location : Location) : Effect :=
  (Column.ofChain type chain location).map fun c =>
    let t := if (chain.find? "primary").isSome then { t with primaryKey := some c.name } else t
    let t :=
      match Relationship.constrained? c chain with
      | some r => t.addRelationship r
      | none => t
    (t.addColumn c, [])

/-- The columns that a call of its own drops, if it is one of those calls. -/
def droppedColumns? : String → Option (List Builder)
  | "dropTimestamps" => some [.timestamps, .nullableTimestamps]
  | "dropTimestampsTz" => some [.timestampsTz]
  | "dropSoftDeletes" => some [.softDeletes]
  | "dropSoftDeletesTz" => some [.softDeletesTz]
  | "dropRememberToken" => some [.rememberToken]
  | _ => none

/-- A call that is named after a column type, or after columns to drop. -/
def applyBuilder (t : Table) (head : Call) (chain : Chain) (location : Location) : Effect :=
  match droppedColumns? head.name with
  | some builders => quietly (t.dropColumns (builders.map Builder.name))
  | none =>
    match ColumnType.ofCall? head.name with
    | some type => t.define type chain location
    | none => .error (.unrecognizedCall head.name location)

/-- The **effect** of a chain of calls on the table that is open under the name `key`. -/
def apply (t : Table) (key : String) (head : Call) (chain : Chain) (location : Location) :
    Effect :=
  match head.name with
  | "primary" => quietly { t with primaryKey := head.firstString? }
  | "dropPrimary" => quietly { t with primaryKey := none }
  | "unique" => t.makeUnique key head location
  | "renameColumn" => t.renameByCall key head location
  | "dropColumn" | "dropIfExists" => quietly (t.dropColumns head.strings)
  | "foreign" => (Relationship.ofChain chain location).map fun r => (t.addRelationship r, [])
  | "dropForeign" => quietly (t.dropRelationships head.strings)
  | "index" | "dropIndex" | "dropUnique" =>
    .ok (t, [.unsupportedOperation head.name key location])
  | _ => t.applyBuilder head chain location

/-- A property of the table gets a value. Properties that a schema does not keep are passed
over. -/
def assign (t : Table) (property value : String) : Table :=
  match property with
  | "engine" => { t with engine := some value }
  | "charset" => { t with charset := some value }
  | "collation" => { t with collation := some value }
  | _ => t

/-- A raw alteration of a column, whose table is in the schema. A new name is taken over first; a
column that exists under neither name is added and reported. -/
def alter (t : Table) (a : Alteration) (location : Location) : Table × List Failure :=
  let name := a.renamed.getD a.column
  let t :=
    match a.renamed with
    | some new => (t.renameColumn? a.column new).getD t
    | none => t
  let existing := t.columns.find? name
  (t.addColumn (Column.altered existing name a),
    if existing.isSome then [] else [.unknownColumn a.table name location])

end Table

end SchemaHistory

import SchemaHistory.Alteration
import SchemaHistory.Chain
import SchemaHistory.Failure
import SchemaHistory.Schema.Table

/-!
# Definitions

What a chain of calls on a table defines: a column, a foreign key written out, or a foreign key in
the short form behind a column; and what a raw alteration makes of a column.

The first call of a chain says what is defined, and each further call changes one property of it,
so a definition is a fold over the modifiers.
-/

namespace SchemaHistory

/-! ### Columns -/

/-- Whether a call has the constant `false` as its first argument, in any letter case. -/
def Call.saysFalse (c : Call) : Bool :=
  match c.args.head? with
  | some (.raw text) => text.toList.map Char.toLower == "false".toList
  | _ => false

namespace Column

/-- The column after one **modifier**. Modifiers of the table or of a foreign key leave it as it
is, and so do unknown ones. -/
def applyModifier (c : Column) (m : Call) : Column :=
  match m.name with
  | "unsigned" => { c with unsigned := true }
  | "unique" => { c with unique := true }
  | "nullable" => { c with nullable := !m.saysFalse }
  | "default" => { c with default := some m.rawArgs }
  | _ => c

/-- The name of a column whose call may leave it out. -/
def impliedName? (call : String) : Option String :=
  if call = "id" then some "id" else none

/-- The text, unless it is empty. -/
def nonempty? (s : String) : Option String :=
  if s.isEmpty then none else some s

/-- The column that the first call of a chain defines. -/
def ofHead (type : ColumnType) (head : Call) (location : Location) : Except Failure Column :=
  if type.isStructural then
    .ok { structural type with parameters := nonempty? head.rawArgs }
  else
    match (head.stringAt? 0).or (impliedName? head.name) with
    | some name => .ok { type, name, parameters := head.trailingArgs }
    | none => .error (.malformedStatement (.columnNeedsName head.name) location)

/-- The **column** that a chain defines: the one of its first call, changed by the modifiers. -/
def ofChain (type : ColumnType) (chain : Chain) (location : Location) : Except Failure Column :=
  match chain.head? with
  | none => .error (.malformedStatement .emptyChain location)
  | some head => (ofHead type head location).map (chain.modifiers.foldl applyModifier ·)

/-- The type that a raw alteration asks for. -/
def alteredType (a : Alteration) : ColumnType :=
  let type := ColumnType.ofSql a.sqlType
  if a.isAutoIncrement then type.autoIncremented else type

/-- The column after a **raw alteration**, which redefines the type, its parameters, the sign and
the nullability. Whether it is unique and its default are kept; a column that did not exist has
neither. -/
def altered (existing : Option Column) (name : String) (a : Alteration) : Column :=
  let type := alteredType a
  { existing.getD { type, name } with
    type := type
    parameters := if type.takesSqlParameters then a.parameters else none
    nullable := a.isNullable
    unsigned := a.isUnsigned }

end Column

/-! ### Foreign keys -/

namespace Relationship

/-- The relationship after one modifier that says what happens on deletion or update. -/
def applyModifier (r : Relationship) (m : Call) : Relationship :=
  match m.name with
  | "onDelete" => { r with onDelete := m.firstString? }
  | "onUpdate" => { r with onUpdate := m.firstString? }
  | "cascadeOnDelete" => { r with onDelete := some "cascade" }
  | "cascadeOnUpdate" => { r with onUpdate := some "cascade" }
  | "nullOnDelete" => { r with onDelete := some "set null" }
  | "restrictOnDelete" => { r with onDelete := some "restrict" }
  | _ => r

/-- The relationship with all that the modifiers of a chain say. -/
def applyModifiers (r : Relationship) (chain : Chain) : Relationship :=
  chain.modifiers.foldl applyModifier r

/-- The **foreign key** that a chain writes out: the local column in its first call, the foreign
column and table in the calls of their names, in any order. -/
def ofChain (chain : Chain) (location : Location) : Except Failure Relationship :=
  match chain.head?.bind Call.firstString?, (chain.find? "references").bind Call.firstString?,
    (chain.find? "on").bind Call.firstString? with
  | some localColumn, some foreignColumn, some foreignTable =>
    .ok (({ localColumn, foreignColumn, foreignTable } : Relationship).applyModifiers chain)
  | _, _, _ => .error (.malformedStatement .foreignKeyNeedsArguments location)

/-- The table that a column refers to by its name alone: the name without `_id`, in the
plural. -/
def conventionalTable (column : String) : String :=
  match Text.beforeSuffix? "_id".toList column.toList with
  | some stem => String.ofList stem ++ "s"
  | none => column ++ "s"

/-- The foreign key in **short form** behind a column, if the chain has one. -/
def constrained? (column : Column) (chain : Chain) : Option Relationship :=
  (chain.find? "constrained").map fun c =>
    ({ localColumn := column.name
       foreignColumn := (c.stringAt? 1).getD "id"
       foreignTable := (c.stringAt? 0).getD (conventionalTable column.name) } :
      Relationship).applyModifiers chain

end Relationship

end SchemaHistory

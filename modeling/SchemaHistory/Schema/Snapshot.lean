import SchemaHistory.Json.Reader
import SchemaHistory.Json.Writer
import SchemaHistory.Schema

/-!
# Snapshots

A schema is stored as JSON and read back. A record is written as an object with all its fields;
reading is more generous. A record may also be the list of its fields in order, an optional field
may be missing, and fields that the record does not have are ignored. A key that a dictionary
repeats keeps its first place and takes the last value, but a record that repeats a field is
refused.
-/

namespace SchemaHistory

/-! ### Writing -/

/-- The name of a builder call with its first letter in upper case. -/
def Builder.tag (b : Builder) : String :=
  b.name.capitalize

/-- A column type: the tag of its call, or the SQL name under a key of its own. -/
def ColumnType.toJson : ColumnType → Json
  | builder b => Json.ofString b.tag
  | other name => Json.ofEntries [("Other", Json.ofString name)]

/-- A column as an object. -/
def Column.toJson (c : Column) : Json :=
  Json.ofEntries
    [("ty", c.type.toJson), ("name", Json.ofString c.name), ("unsigned", .bool c.unsigned),
     ("nullable", .bool c.nullable), ("unique", .bool c.unique),
     ("default", Json.ofString? c.default), ("parameters", Json.ofString? c.parameters)]

/-- A relationship as an object. -/
def Relationship.toJson (r : Relationship) : Json :=
  Json.ofEntries
    [("local_column", Json.ofString r.localColumn),
     ("foreign_column", Json.ofString r.foreignColumn),
     ("foreign_table", Json.ofString r.foreignTable), ("on_delete", Json.ofString? r.onDelete),
     ("on_update", Json.ofString? r.onUpdate)]

/-- A dictionary as an object, in its order. -/
def Dict.toJson {α : Type} (write : α → Json) (d : Dict String α) : Json :=
  Json.ofEntries (d.entries.map fun e => (e.1, write e.2))

/-- A table as an object. -/
def Table.toJson (t : Table) : Json :=
  Json.ofEntries
    [("name", Json.ofString t.name), ("engine", Json.ofString? t.engine),
     ("charset", Json.ofString? t.charset), ("collation", Json.ofString? t.collation),
     ("primary_key", Json.ofString? t.primaryKey), ("columns", t.columns.toJson Column.toJson),
     ("relationships", .list (t.relationships.map Relationship.toJson))]

/-- A schema as an object. -/
def Schema.toJson (s : Schema) : Json :=
  Json.ofEntries [("tables", s.tables.toJson Table.toJson)]

/-- The **snapshot** of a schema. -/
def Schema.snapshot (s : Schema) : String :=
  s.toJson.toText

/-! ### Reading -/

namespace Json

/-- What a string says. -/
def asString? : Json → Option String
  | string body => (textOf? body).map String.ofList
  | _ => none

/-- A truth value. -/
def asBool? : Json → Option Bool
  | bool b => some b
  | _ => none

/-- The entries of an object whose keys all say something. -/
def asEntries? : Json → Option (List (String × Json))
  | object entries =>
    entries.mapM fun e => (textOf? e.1).map fun key => (String.ofList key, e.2)
  | _ => none

/-- The items of a list. -/
def asList? : Json → Option (List Json)
  | list items => some items
  | _ => none

/-- The value of a field that occurs at most once: nothing is an answer, twice is not. -/
def field? (entries : List (String × Json)) (name : String) : Option (Option Json) :=
  match entries.filter (·.1 == name) with
  | [] => some none
  | [e] => some (some e.2)
  | _ => none

/-- The fields of a **record**, in the order of their names, from an object or a list. -/
def asRecord? (names : List String) : Json → Option (List (Option Json))
  | list items => if items.length = names.length then some (items.map some) else none
  | j => (asEntries? j).bind fun entries => names.mapM (field? entries)

/-- A field that has to be there. -/
def required? {α : Type} (read : Json → Option α) (field : Option Json) : Option α :=
  field.bind read

/-- A text that may be missing or null. -/
def optionalString? : Option Json → Option (Option String)
  | none | some null => some none
  | some j => (asString? j).map some

/-- A dictionary, whose entries are stored one after the other. -/
def asDict? {α : Type} (read : Json → Option α) (j : Json) : Option (Dict String α) :=
  ((asEntries? j).bind fun entries =>
    entries.mapM fun e => (read e.2).map fun v => (e.1, v)).map Dict.ofList

end Json

/-- The builder call of a tag. -/
def Builder.ofTag? (s : String) : Option Builder :=
  all.find? fun b => b.tag == s

/-- A column type. -/
def ColumnType.ofJson? : Json → Option ColumnType
  | .object [(key, j)] =>
    (Json.textOf? key).bind fun key =>
      if String.ofList key = "Other" then (Json.asString? j).map other
      else
        match j with
        | .null => (Builder.ofTag? (String.ofList key)).map builder
        | _ => none
  | j => (Json.asString? j).bind fun s => (Builder.ofTag? s).map builder

/-- A column. -/
def Column.ofJson? (j : Json) : Option Column := do
  match ← Json.asRecord?
    ["ty", "name", "unsigned", "nullable", "unique", "default", "parameters"] j with
  | [type, name, unsigned, nullable, unique, default, parameters] =>
    return {
      type := ← Json.required? ColumnType.ofJson? type
      name := ← Json.required? Json.asString? name
      unsigned := ← Json.required? Json.asBool? unsigned
      nullable := ← Json.required? Json.asBool? nullable
      unique := ← Json.required? Json.asBool? unique
      default := ← Json.optionalString? default
      parameters := ← Json.optionalString? parameters }
  | _ => none

/-- A relationship. -/
def Relationship.ofJson? (j : Json) : Option Relationship := do
  match ← Json.asRecord?
    ["local_column", "foreign_column", "foreign_table", "on_delete", "on_update"] j with
  | [localColumn, foreignColumn, foreignTable, onDelete, onUpdate] =>
    return {
      localColumn := ← Json.required? Json.asString? localColumn
      foreignColumn := ← Json.required? Json.asString? foreignColumn
      foreignTable := ← Json.required? Json.asString? foreignTable
      onDelete := ← Json.optionalString? onDelete
      onUpdate := ← Json.optionalString? onUpdate }
  | _ => none

/-- A table. -/
def Table.ofJson? (j : Json) : Option Table := do
  match ← Json.asRecord?
    ["name", "engine", "charset", "collation", "primary_key", "columns", "relationships"] j with
  | [name, engine, charset, collation, primaryKey, columns, relationships] =>
    return {
      name := ← Json.required? Json.asString? name
      engine := ← Json.optionalString? engine
      charset := ← Json.optionalString? charset
      collation := ← Json.optionalString? collation
      primaryKey := ← Json.optionalString? primaryKey
      columns := ← Json.required? (Json.asDict? Column.ofJson?) columns
      relationships := ← Json.required?
        (fun j => (Json.asList? j).bind fun items => items.mapM Relationship.ofJson?)
        relationships }
  | _ => none

/-- A schema. -/
def Schema.ofJson? (j : Json) : Option Schema := do
  match ← Json.asRecord? ["tables"] j with
  | [tables] => return { tables := ← Json.required? (Json.asDict? Table.ofJson?) tables }
  | _ => none

/-- The schema of a **snapshot**. -/
def Schema.ofSnapshot? (text : String) : Option Schema :=
  (Json.parse? text.toList).bind ofJson?

end SchemaHistory

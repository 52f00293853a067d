import SchemaHistory.Dict
import SchemaHistory.Schema.Column
import SchemaHistory.Schema.Relationship

/-!
# Tables

A table has columns in the order in which they were added, relationships, and a few options. The
operations on it are the ones that migrations ask for: columns are added, replaced in place,
renamed in place and dropped; a relationship belongs to its local column, so adding one replaces
the one that was there.
-/

namespace SchemaHistory

/-- A **table**. -/
structure Table where
  name : String
  engine : Option String := none
  charset : Option String := none
  collation : Option String := none
  primaryKey : Option String := none
  columns : Dict String Column := ∅
  relationships : List Relationship := []
  deriving DecidableEq, Inhabited

namespace Table

/-- The table stores a column, in place of the one of its name if there is one. -/
def addColumn (t : Table) (c : Column) : Table :=
  { t with columns := t.columns.insert c.name c }

/-- The table without a column. -/
def dropColumn (t : Table) (name : String) : Table :=
  { t with columns := t.columns.erase name }

/-- A relationship whose local column is renamed along. -/
def relocate (old new : String) (r : Relationship) : Relationship :=
  if r.localColumn = old then { r with localColumn := new } else r

/-- The table with a column **renamed in place**, or nothing if it has no such column. A column
that had the new name is dropped; the primary key and the table's own relationships follow. -/
def renameColumn? (t : Table) (old new : String) : Option Table :=
  if t.columns.contains old then
    some { t with
      columns := t.columns.rekey old new fun c => { c with name := new }
      primaryKey := if t.primaryKey = some old then some new else t.primaryKey
      relationships := t.relationships.map (relocate old new) }
  else
    none

/-- The list with the first element that satisfies a test replaced, or with the new element at
its end. -/
def replaceFirst (p : Relationship → Bool) (r : Relationship) :
    List Relationship → List Relationship
  | [] => [r]
  | s :: rest => if p s then r :: rest else s :: replaceFirst p r rest

/-- The table with a relationship, in place of the first one of the same local column. -/
def addRelationship (t : Table) (r : Relationship) : Table :=
  { t with relationships := replaceFirst (·.localColumn == r.localColumn) r t.relationships }

/-- Whether a relationship of the table is meant by a name: its local column or its conventional
constraint name. -/
def answersTo (t : Table) (name : String) (r : Relationship) : Bool :=
  r.localColumn == name || r.constraintName t.name == name

/-- The relationship that a name means. -/
def relationship? (t : Table) (name : String) : Option Relationship :=
  t.relationships.find? (t.answersTo name)

/-- The table without the relationship that a name means. -/
def dropRelationship (t : Table) (name : String) : Table :=
  { t with relationships := t.relationships.eraseP (t.answersTo name) }

/-- The **dependencies** of a table: the foreign tables that have to be created before it, once
for each relationship. The table itself is none of them. -/
def dependencies (t : Table) : List String :=
  (t.relationships.map (·.foreignTable)).filter (· != t.name)

end Table

end SchemaHistory

import SchemaHistory.Schema.ColumnType

/-!
# Columns

A column as it is kept in the cumulative schema. What the migration wrote as default and as
further parameters is kept word for word, because it is written out again later.
-/

namespace SchemaHistory

/-- A **column** of a table. -/
structure Column where
  type : ColumnType
  name : String
  unsigned : Bool := false
  nullable : Bool := false
  unique : Bool := false
  /-- The default expression, as it was written. -/
  default : Option String := none
  /-- The arguments after the name, as they were written. -/
  parameters : Option String := none
  deriving DecidableEq, Inhabited

namespace Column

/-- The column of a **structural** type, which bears the name of the type. -/
def structural (type : ColumnType) : Column where
  type := type
  name := type.name

/-- Whether the column is written without a name of its own. -/
def isStructural (c : Column) : Bool :=
  c.type.isStructural

end Column

end SchemaHistory

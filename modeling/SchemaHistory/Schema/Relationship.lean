/-!
# Relationships

A relationship is a foreign key: a column of the table that owns it refers to a column of another
table, or of the same one.
-/

namespace SchemaHistory

/-- A **relationship** of the table that owns `localColumn`. -/
structure Relationship where
  localColumn : String
  foreignColumn : String
  foreignTable : String
  onDelete : Option String := none
  onUpdate : Option String := none
  deriving DecidableEq, Inhabited

/-- The conventional name of the constraint, given the table that owns it. -/
def Relationship.constraintName (r : Relationship) (table : String) : String :=
  table ++ "_" ++ r.localColumn ++ "_foreign"

end SchemaHistory

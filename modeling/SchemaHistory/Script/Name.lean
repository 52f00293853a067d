import SchemaHistory.Calendar
import SchemaHistory.Text.Words

/-!
# Names of scripts

The script of a table holds a class named after the table, and its file name starts with the date
and the place of the table in the creation order, so that sorting by name restores the order.
-/

namespace SchemaHistory

/-- The name of the **class** that creates a table. -/
def className (table : String) : String :=
  Text.pascalCase ("squashed_" ++ table ++ "_table")

/-- The name of the **file** that holds the script of a table. -/
def scriptFileName (date : Date) (index : Nat) (table extension : String) : String :=
  date.underscored ++ "_" ++ Date.zeroFilled 6 index ++ "_squashed_" ++ table ++ "_table." ++
    extension

end SchemaHistory

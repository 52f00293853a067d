import SchemaHistory.Schema
import SchemaHistory.Script.Name

/-!
# Creation scripts

Each table of the schema is written as one migration that creates it: a class whose forward
direction holds the options of the table, its columns, its primary key and its foreign keys, one
statement a line, and whose reverse direction drops the table.
-/

namespace SchemaHistory

/-- A **script** that creates one table. -/
structure Script where
  /-- The place of the table in the creation order. -/
  index : Nat
  table : String
  content : String
  deriving DecidableEq, Inhabited

/-! ### Statements -/

/-- A string literal. -/
def literal (s : String) : String :=
  "'" ++ s ++ "'"

/-- The modifiers of a column, in their fixed order. -/
def Column.modifiersText (c : Column) : String :=
  (if c.unsigned then "->unsigned()" else "") ++
    (if c.nullable then "->nullable()" else "") ++
    (if c.unique then "->unique()" else "") ++
    match c.default with
    | some text => "->default(" ++ text ++ ")"
    | none => ""

/-- The arguments of the call that defines a column. -/
def Column.argumentsText (c : Column) : String :=
  if c.isStructural then c.parameters.getD ""
  else
    match c.parameters with
    | some text => literal c.name ++ ", " ++ text
    | none => literal c.name

/-- The **statement** that defines a column. -/
def Column.statement (c : Column) : String :=
  "$table->" ++ c.type.name ++ "(" ++ c.argumentsText ++ ")" ++ c.modifiersText ++ ";"

/-- The call that says what happens to a relationship, if anything is said. -/
def Relationship.actionText (call : String) : Option String → String
  | some action => "->" ++ call ++ "(" ++ literal action ++ ")"
  | none => ""

/-- The **statement** that defines a relationship. -/
def Relationship.statement (r : Relationship) : String :=
  "$table->foreign(" ++ literal r.localColumn ++ ")->references(" ++ literal r.foreignColumn ++
    ")->on(" ++ literal r.foreignTable ++ ")" ++ actionText "onDelete" r.onDelete ++
    actionText "onUpdate" r.onUpdate ++ ";"

namespace Table

/-- The statement that sets an option of the table, if it is set. -/
def optionStatement? (property : String) (value : Option String) : Option String :=
  value.map fun v => "$table->" ++ property ++ " = " ++ literal v ++ ";"

/-- The statement for the primary key, unless an increments column implies it. -/
def primaryStatement? (t : Table) : Option String :=
  t.primaryKey.bind fun key =>
    match t.columns.find? key with
    | some c =>
      if c.type.isIncrements then none else some ("$table->primary(" ++ literal key ++ ");")
    | none => some ("$table->primary(" ++ literal key ++ ");")

/-- The statements that create a table. -/
def statements (t : Table) : List String :=
  (optionStatement? "engine" t.engine).toList ++
    (optionStatement? "charset" t.charset).toList ++
    (optionStatement? "collation" t.collation).toList ++
    t.columns.values.map Column.statement ++
    t.primaryStatement?.toList ++
    t.relationships.map Relationship.statement

/-! ### Scripts -/

/-- The statements, indented to the depth of the block that holds them. -/
def body (t : Table) : String :=
  "\n".intercalate (t.statements.map ("            " ++ ·))

/-- The text of the **script** that creates a table. -/
def scriptText (t : Table) : String :=
  "<?php\n\n" ++
  "use Illuminate\\Database\\Migrations\\Migration;\n" ++
  "use Illuminate\\Database\\Schema\\Blueprint;\n" ++
  "use Illuminate\\Support\\Facades\\Schema;\n\n" ++
  "class " ++ className t.name ++ " extends Migration\n" ++
  "\x7b\n" ++
  "    /**\n" ++
  "     * Run the migrations.\n" ++
  "     *\n" ++
  "     * @return void\n" ++
  "     */\n" ++
  "    public function up()\n" ++
  "    \x7b\n" ++
  "        Schema::create('" ++ t.name ++ "', function (Blueprint $table) \x7b\n" ++
  t.body ++ "\n" ++
  "        \x7d);\n" ++
  "    \x7d\n\n" ++
  "    /**\n" ++
  "     * Reverse the migrations.\n" ++
  "     *\n" ++
  "     * @return void\n" ++
  "     */\n" ++
  "    public function down()\n" ++
  "    \x7b\n" ++
  "        Schema::dropIfExists('" ++ t.name ++ "');\n" ++
  "    \x7d\n" ++
  "\x7d\n"

/-- The script that creates a table, at its place in the order. -/
def script (t : Table) (index : Nat) : Script where
  index := index
  table := t.name
  content := t.scriptText

end Table

/-- The scripts of the tables of an order, numbered from zero. Names that no table has are passed
over. -/
def Schema.scripts (s : Schema) (order : List String) : List Script :=
  (order.filterMap s.table?).mapIdx fun index t => t.script index

end SchemaHistory

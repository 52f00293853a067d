import SchemaHistory.Text.Blank
import SchemaHistory.Text.Case
import SchemaHistory.Text.Search

/-!
# Raw alterations

A migration may hand SQL to the database that changes a column:
`ALTER TABLE t MODIFY COLUMN c type(parameters) attributes`, or `CHANGE` with a new name after the
old one. Such a statement is found anywhere on a logical line, in any letter case, with or without
backticks around the names.

The statement ends at the first quote or semicolon after the column, since it usually stands in a
string itself. What follows the column is read from left to right: a new name if the form allows
one, the type, its parameters in parentheses, and the attributes.
-/

namespace SchemaHistory

open Text

/-- A **raw alteration** of a column, as it was written. -/
structure Alteration where
  table : String
  column : String
  /-- The new name of the column. -/
  renamed : Option String
  sqlType : String
  parameters : Option String
  attributes : String
  deriving DecidableEq, Inhabited

namespace Alteration

/-! ### The pattern -/

/-- What follows a keyword, which is given in lower case and may be written in any case. -/
def afterKeyword? : List Char → List Char → Option (List Char)
  | [], s => some s
  | _ :: _, [] => none
  | k :: ks, c :: s => if c.toLower = k then afterKeyword? ks s else none

/-- What follows the blanks at the start of a text, which has to start with one. -/
def afterBlanks? : List Char → Option (List Char)
  | [] => none
  | c :: s => if isBlank c then some (trimStart s) else none

/-- What follows a keyword and the blanks behind it. -/
def afterKeywordAndBlanks? (k s : List Char) : Option (List Char) :=
  (afterKeyword? k s).bind afterBlanks?

/-- What follows a backtick, which may be missing. -/
def afterTick : List Char → List Char
  | '\x60' :: s => s
  | s => s

/-- Whether a character can stand in the name of a column. The long s and the Kelvin sign count
as letters, because they differ from ASCII letters only in case. -/
def isNamePart (c : Char) : Bool :=
  isAsciiLetter c || isDigit c || c == '_' || c == '$' || c == '\u017f' || c == '\u212a'

/-- Whether a character can stand in the name of a table. -/
def isTablePart (c : Char) : Bool :=
  isNamePart c || c == '.'

/-- A name, in backticks or not, and what follows it. -/
def name? (p : Char → Bool) (s : List Char) : Option (List Char × List Char) :=
  let s := afterTick s
  match s.takeWhile p with
  | [] => none
  | c :: name => some (c :: name, afterTick (s.dropWhile p))

/-- What the pattern finds on a line. -/
structure Match where
  table : List Char
  /-- Whether the statement may give the column a new name. -/
  change : Bool
  column : List Char
  tail : List Char

/-- The verb of the statement and what follows it; `CHANGE` may rename. -/
def verb? (s : List Char) : Option (Bool × List Char) :=
  match afterKeywordAndBlanks? "modify".toList s with
  | some rest => some (false, rest)
  | none => (afterKeywordAndBlanks? "change".toList s).map fun rest => (true, rest)

/-- The column, behind an optional keyword. A column may itself have the name of the keyword. -/
def column? (s : List Char) : Option (List Char × List Char) :=
  match (afterKeywordAndBlanks? "column".toList s).bind (name? isNamePart) with
  | some r => some r
  | none => name? isNamePart s

/-- The pattern at the start of a text. -/
def match? (s : List Char) : Option Match := do
  let s ← afterKeywordAndBlanks? "alter".toList s
  let s ← afterKeywordAndBlanks? "table".toList s
  let (table, s) ← name? isTablePart s
  let s ← afterBlanks? s
  let (change, s) ← verb? s
  let (column, s) ← column? s
  return { table, change, column, tail := s.takeWhile (· != '\n') }

/-! ### The definition behind the column -/

/-- The SQL types that are never taken for a new name. -/
def sqlTypes : List String :=
  ["char", "varchar", "tinyint", "smallint", "mediumint", "int", "integer", "bigint", "float",
   "double", "decimal", "numeric", "real", "bit", "bool", "boolean", "date", "datetime",
   "timestamp", "time", "year", "text", "tinytext", "mediumtext", "longtext", "blob", "tinyblob",
   "mediumblob", "longblob", "binary", "varbinary", "enum", "set", "json"]

/-- Whether a word is an SQL type, in any letter case. -/
def isSqlType (word : List Char) : Bool :=
  sqlTypes.contains (String.ofList (lower word))

/-- Whether a character ends a word of the definition. -/
def endsWord (c : Char) : Bool :=
  isBlank c || c == '('

/-- The text without the backticks at both ends. -/
def trimTicks (s : List Char) : List Char :=
  ((s.dropWhile (· == '\x60')).reverse.dropWhile (· == '\x60')).reverse

/-- The first word of a text, without backticks, and what follows it. -/
def splitWord (s : List Char) : List Char × List Char :=
  (trimTicks (s.takeWhile fun c => !endsWord c), s.dropWhile fun c => !endsWord c)

/-- Whether a first word is a **new name**: it is no type, and a definition follows it that does
not start with parameters right away. -/
def isNewName (word after : List Char) : Bool :=
  !word.isEmpty && !isSqlType word && after.head? != some '(' && !(trim after).isEmpty

/-- The new name of a statement that may give one, and the definition. -/
def splitNewName (change : Bool) (s : List Char) : Option (List Char) × List Char :=
  let r := splitWord s
  if change && isNewName r.1 r.2 then (some r.1, trimStart r.2) else (none, s)

/-- The parameters, up to the first closing parenthesis, and the attributes behind them. If the
parenthesis is missing, everything is parameters. -/
def splitParameters (s : List Char) : Option (List Char) × List Char :=
  match trimStart s with
  | '(' :: inner =>
    let parameters := trim (inner.takeWhile (· != ')'))
    (if parameters.isEmpty then none else some parameters,
      (inner.dropWhile (· != ')')).drop 1)
  | s => (none, s)

/-- Whether a character ends the statement. -/
def endsStatement (c : Char) : Bool :=
  c == '\'' || c == '"' || c == ';'

/-- The alteration that a match describes, if it names a type. -/
def ofMatch? (m : Match) : Option Alteration :=
  let tail := trimStart (m.tail.takeWhile fun c => !endsStatement c)
  let (renamed, definition) := splitNewName m.change tail
  let (sqlType, after) := splitWord definition
  if sqlType.isEmpty then none
  else
    let (parameters, attributes) := splitParameters after
    some {
      table := String.ofList m.table
      column := String.ofList m.column
      renamed := renamed.map String.ofList
      sqlType := String.ofList sqlType
      parameters := parameters.map String.ofList
      attributes := String.ofList (trim attributes) }

/-- The alteration that the first match on a line describes. -/
def parse? (line : List Char) : Option Alteration :=
  (firstMatch? match? line).bind ofMatch?

/-! ### The attributes -/

/-- Whether the attributes contain a phrase, in any letter case. -/
def mentions (a : Alteration) (phrase : String) : Bool :=
  occursIn phrase.toList (lower a.attributes.toList)

/-- Whether the column admits the absence of a value. -/
def isNullable (a : Alteration) : Bool :=
  !a.mentions "not null"

/-- Whether the column counts up by itself. -/
def isAutoIncrement (a : Alteration) : Bool :=
  a.mentions "auto_increment"

/-- Whether the column holds no negative numbers. -/
def isUnsigned (a : Alteration) : Bool :=
  a.mentions "unsigned"

end Alteration

end SchemaHistory

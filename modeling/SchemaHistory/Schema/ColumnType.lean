import SchemaHistory.Text.Case

/-!
# Column types

A column has one of the types that the table builder has a call for, or a type that is only known
by its SQL name. The calls are one enumeration, `Builder`, with one name each; reading a call and
naming a type are the two directions of that table (`Builder.ofName?_name`), up to the two calls
that are spelled in a second way.
-/

namespace SchemaHistory

/-- The calls of the table **builder** that add a column. -/
inductive Builder
  | string | char | text | mediumText | longText
  | integer | tinyInteger | smallInteger | mediumInteger | bigInteger
  | unsignedInteger | unsignedTinyInteger | unsignedSmallInteger | unsignedMediumInteger
  | unsignedBigInteger
  | increments | tinyIncrements | smallIncrements | mediumIncrements | bigIncrements
  | float | double | decimal | boolean
  | date | dateTime | dateTimeTz | time | timeTz | timestamp | timestampTz | year
  | binary | json | jsonb | uuid | ipAddress | macAddress | enum
  | morphs | nullableMorphs | foreignId
  | timestamps | nullableTimestamps | timestampsTz | softDeletes | softDeletesTz | rememberToken
  deriving DecidableEq, Inhabited

namespace Builder

/-- The name of the call. -/
def name : Builder → String
  | string => "string"
  | char => "char"
  | text => "text"
  | mediumText => "mediumText"
  | longText => "longText"
  | integer => "integer"
  | tinyInteger => "tinyInteger"
  | smallInteger => "smallInteger"
  | mediumInteger => "mediumInteger"
  | bigInteger => "bigInteger"
  | unsignedInteger => "unsignedInteger"
  | unsignedTinyInteger => "unsignedTinyInteger"
  | unsignedSmallInteger => "unsignedSmallInteger"
  | unsignedMediumInteger => "unsignedMediumInteger"
  | unsignedBigInteger => "unsignedBigInteger"
  | increments => "increments"
  | tinyIncrements => "tinyIncrements"
  | smallIncrements => "smallIncrements"
  | mediumIncrements => "mediumIncrements"
  | bigIncrements => "bigIncrements"
  | float => "float"
  | double => "double"
  | decimal => "decimal"
  | boolean => "boolean"
  | date => "date"
  | dateTime => "dateTime"
  | dateTimeTz => "dateTimeTz"
  | time => "time"
  | timeTz => "timeTz"
  | timestamp => "timestamp"
  | timestampTz => "timestampTz"
  | year => "year"
  | binary => "binary"
  | json => "json"
  | jsonb => "jsonb"
  | uuid => "uuid"
  | ipAddress => "ipAddress"
  | macAddress => "macAddress"
  | enum => "enum"
  | morphs => "morphs"
  | nullableMorphs => "nullableMorphs"
  | foreignId => "foreignId"
  | timestamps => "timestamps"
  | nullableTimestamps => "nullableTimestamps"
  | timestampsTz => "timestampsTz"
  | softDeletes => "softDeletes"
  | softDeletesTz => "softDeletesTz"
  | rememberToken => "rememberToken"

/-- All calls. -/
def all : List Builder :=
  [string, char, text, mediumText, longText, integer, tinyInteger, smallInteger, mediumInteger,
   bigInteger, unsignedInteger, unsignedTinyInteger, unsignedSmallInteger, unsignedMediumInteger,
   unsignedBigInteger, increments, tinyIncrements, smallIncrements, mediumIncrements,
   bigIncrements, float, double, decimal, boolean, date, dateTime, dateTimeTz, time, timeTz,
   timestamp, timestampTz, year, binary, json, jsonb, uuid, ipAddress, macAddress, enum, morphs,
   nullableMorphs, foreignId, timestamps, nullableTimestamps, timestampsTz, softDeletes,
   softDeletesTz, rememberToken]

theorem mem_all (b : Builder) : b ∈ all := by
  cases b <;> decide

/-- The builder call of a name. -/
def ofName? (s : String) : Option Builder :=
  all.find? fun b => b.name == s

/-- The name of a builder call names it and no other. -/
theorem ofName?_name (b : Builder) : ofName? b.name = some b := by
  cases b <;> decide

theorem name_of_ofName? {s : String} {b : Builder} (h : ofName? s = some b) : b.name = s := by
  simpa using List.find?_some h

/-- A **structural** call adds columns whose names it knows itself. -/
def isStructural : Builder → Bool
  | timestamps | nullableTimestamps | timestampsTz | softDeletes | softDeletesTz
  | rememberToken => true
  | _ => false

/-- An **increments** column is the primary key of its table already. -/
def isIncrements : Builder → Bool
  | increments | tinyIncrements | smallIncrements | mediumIncrements | bigIncrements => true
  | _ => false

end Builder

/-- The **type** of a column. -/
inductive ColumnType
  /-- A type with a builder call. -/
  | builder (call : Builder)
  /-- A type that only SQL has a name for, in lower case. -/
  | other (name : String)
  deriving DecidableEq, Inhabited

namespace ColumnType

/-- The type that a builder call gives its column. Two calls have a second spelling. -/
def ofCall? : String → Option ColumnType
  | "id" => some (builder .bigIncrements)
  | "datetime" => some (builder .dateTime)
  | s => (Builder.ofName? s).map builder

/-- The type for a SQL type name, in any letter case. -/
def ofSql (sqlType : String) : ColumnType :=
  match Text.lowerString sqlType with
  | "char" | "varchar" => builder .string
  | "bigint" | "biginteger" => builder .bigInteger
  | "int" | "integer" => builder .integer
  | "smallint" | "smallinteger" => builder .smallInteger
  | "blob" => builder .binary
  | s => (ofCall? s).getD (other s)

/-- The **name** of a type, which is the builder call that gives it. -/
def name : ColumnType → String
  | builder b => b.name
  | other s => s

/-- Whether columns of this type are named after it. -/
def isStructural : ColumnType → Bool
  | builder b => b.isStructural
  | other _ => false

/-- Whether a column of this type is a primary key by itself. -/
def isIncrements : ColumnType → Bool
  | builder b => b.isIncrements
  | other _ => false

/-- The type of an integer column that counts up by itself. -/
def autoIncremented : ColumnType → ColumnType
  | builder .integer => builder .increments
  | builder .bigInteger => builder .bigIncrements
  | t => t

/-- Whether the parameters of the SQL type are those of the builder call. The display width of an
integer is not: there the second argument of the call means something else. -/
def takesSqlParameters : ColumnType → Bool
  | builder .string | builder .char | builder .float | builder .double | builder .decimal => true
  | _ => false

end ColumnType

end SchemaHistory

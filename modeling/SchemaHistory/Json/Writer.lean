import SchemaHistory.Json

/-!
# Writing JSON

A value is written over several lines: every item and every entry on a line of its own, indented
by two spaces for each level, and empty containers as a pair of brackets.
-/

namespace SchemaHistory.Json

/-- The start of a line at a level. -/
def newLine (level : Nat) : List Char :=
  '\n' :: List.replicate (2 * level) ' '

/-- The body of a string between quotes. -/
def quoteBody (body : List Char) : List Char :=
  '"' :: body ++ ['"']

mutual

/-- The **text** of a value that begins at a level. -/
def write (level : Nat) : Json → List Char
  | null => "null".toList
  | bool true => "true".toList
  | bool false => "false".toList
  | number digits => digits
  | string body => quoteBody body
  | list [] => ['[', ']']
  | list (j :: items) =>
    '[' :: newLine (level + 1) ++ write (level + 1) j ++ writeItems (level + 1) items ++
      newLine level ++ [']']
  | object [] => ['\x7b', '\x7d']
  | object (e :: entries) =>
    '\x7b' :: newLine (level + 1) ++ quoteBody e.1 ++ [':', ' '] ++ write (level + 1) e.2 ++
      writeEntries (level + 1) entries ++ newLine level ++ ['\x7d']

/-- The items of a list behind the first one. -/
def writeItems (level : Nat) : List Json → List Char
  | [] => []
  | j :: items => ',' :: newLine level ++ write level j ++ writeItems level items

/-- The entries of an object behind the first one. -/
def writeEntries (level : Nat) : List (List Char × Json) → List Char
  | [] => []
  | (key, j) :: entries =>
    ',' :: newLine level ++ quoteBody key ++ [':', ' '] ++ write level j ++
      writeEntries level entries

end

/-- The text of a value. -/
def toText (j : Json) : String :=
  String.ofList (write 0 j)

end SchemaHistory.Json

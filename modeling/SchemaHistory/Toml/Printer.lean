import SchemaHistory.Toml.Document

/-!
# Printing TOML

The text of a document. The entries of a table are printed under its header, those of dotted
tables among them with their full path, and the tables follow in the order of their positions. A
table without a position follows the table before it.

Line ends are printed without carriage returns.
-/

namespace SchemaHistory.Toml

/-- A piece of layout as it is printed. -/
def raw (s : List Char) : List Char :=
  s.filter (· != '\r')

/-- The text before a part, given what is usual. -/
def Decor.prefixText (d : Decor) (usual : List Char) : List Char :=
  raw (d.before.getD usual)

/-- The text behind a part, given what is usual. -/
def Decor.suffixText (d : Decor) (usual : List Char) : List Char :=
  raw (d.after.getD usual)

/-- The key by itself. A key without a spelling has a plain name. -/
def Key.text (k : Key) : List Char :=
  k.spelling.getD k.name.toList

/-- The rest of a dotted path behind its first key. -/
def pathRest (leaf : Decor) (after : List Char) : List Key → List Char
  | [] => []
  | [k] => '.' :: k.dotted.prefixText [] ++ k.text ++ leaf.suffixText after
  | k :: rest =>
    '.' :: k.dotted.prefixText [] ++ k.text ++ k.dotted.suffixText [] ++ pathRest leaf after rest

/-- A dotted **path**, given what usually stands around it. -/
def pathText (before after : List Char) (path : List Key) : List Char :=
  let leaf := (path.getLast?.map Key.leaf).getD {}
  match path with
  | [] => []
  | [k] => leaf.prefixText before ++ k.text ++ leaf.suffixText after
  | k :: rest =>
    leaf.prefixText before ++ k.text ++ k.dotted.suffixText [] ++ pathRest leaf after rest

/-! ### Values -/

mutual

/-- The values that an entry of an inline table stands for, each with its path. -/
def Value.leaves (path : List Key) : Value → List (List Key × Value)
  | .table entries true _ _ => entryLeaves path entries
  | v => [(path, v)]

/-- The values that the entries of an inline table stand for. -/
def entryLeaves (path : List Key) : List (Key × Value) → List (List Key × Value)
  | [] => []
  | (k, v) :: rest => v.leaves (path ++ [k]) ++ entryLeaves path rest

end

/-- The parts of an inline table with commas between them. A part has to know whether it is the
last one. -/
def joinParts : List (Bool → List Char) → List Char
  | [] => []
  | [part] => part true
  | part :: rest => part false ++ ',' :: joinParts rest

mutual

/-- The text of a **value**, given what usually stands around it. -/
def Value.text (before after : List Char) : Value → List Char
  | .scalar _ spelling d => d.prefixText before ++ raw spelling ++ d.suffixText after
  | .array items comma trailing d =>
    d.prefixText before ++ ['['] ++ itemsText items ++
      (if comma && !items.isEmpty then [','] else []) ++ raw trailing ++ [']'] ++
      d.suffixText after
  | .table entries _ preamble d =>
    d.prefixText before ++ ['\x7b'] ++ raw preamble ++ joinParts (inlineParts [] entries) ++
      ['\x7d'] ++ d.suffixText after

/-- The items of an array. -/
def itemsText : List Value → List Char
  | [] => []
  | v :: rest => v.text [] [] ++ restText rest

/-- The items of an array behind the first. -/
def restText : List Value → List Char
  | [] => []
  | v :: rest => ',' :: v.text [' '] [] ++ restText rest

/-- The parts of an inline table: its entries, with those of dotted tables among them by their full
path. -/
def inlineParts (path : List Key) : List (Key × Value) → List (Bool → List Char)
  | [] => []
  | (k, v) :: rest =>
    (match v with
      | .table entries true _ _ => inlineParts (path ++ [k]) entries
      | v =>
        [fun isLast => pathText [' '] [' '] (path ++ [k]) ++ ['='] ++
          v.text [' '] (if isLast then [' '] else [])]) ++
      inlineParts path rest

end

/-! ### Tables -/

mutual

/-- The values that an entry of a table stands for, each with its path. -/
def Item.leaves (path : List Key) : Item → List (List Key × Value)
  | .value v => v.leaves path
  | .table head entries => if head.dotted then itemLeaves path entries else []
  | .tables _ => []

/-- The values that the entries of a table stand for. -/
def itemLeaves (path : List Key) : List (Key × Item) → List (List Key × Value)
  | [] => []
  | (k, item) :: rest => item.leaves (path ++ [k]) ++ itemLeaves path rest

end

/-- A table as it is printed: where it belongs, its path and its values. -/
structure Section where
  position : Nat
  head : Head
  path : List Key
  /-- Whether the table is one of several under its path. -/
  repeated : Bool
  leaves : List (List Key × Value)

mutual

/-- The sections of what an entry leads to, and the last position that was seen. -/
def Item.sections (path : List Key) (last : Nat) : Item → List Section × Nat
  | .value _ => ([], last)
  | .table head entries =>
    if head.dotted then entrySections path last entries
    else
      let here := head.position.getD last
      let below := entrySections path here entries
      (⟨here, head, path, false, itemLeaves [] entries⟩ :: below.1, below.2)
  | .tables ts => tableSections path last ts

/-- The sections of the entries of a table. -/
def entrySections (path : List Key) (last : Nat) : List (Key × Item) → List Section × Nat
  | [] => ([], last)
  | (k, item) :: rest =>
    let first := item.sections (path ++ [k]) last
    let others := entrySections path first.2 rest
    (first.1 ++ others.1, others.2)

/-- The sections of several tables under one path. -/
def tableSections (path : List Key) (last : Nat) :
    List (Head × List (Key × Item)) → List Section × Nat
  | [] => ([], last)
  | (head, entries) :: rest =>
    let here := head.position.getD last
    let below := entrySections path here entries
    let others := tableSections path below.2 rest
    (⟨here, head, path, true, itemLeaves [] entries⟩ :: below.1 ++ others.1, others.2)

end

/-- All sections of a document in the order in which they are printed. -/
def Document.sections (d : Document) : List Section :=
  let top : Section := ⟨0, d.root.1, [], false, itemLeaves [] d.root.2⟩
  (top :: (entrySections [] 0 d.root.2).1).mergeSort fun a b => decide (a.position ≤ b.position)

/-- Whether a section is printed with a header. An implicit table has none, unless it has values
of its own. -/
def Section.hasHeader (s : Section) : Bool :=
  !s.path.isEmpty && (s.repeated || !(s.head.implicit && s.leaves.isEmpty))

/-- The header of a section. Unless it is the first thing printed, it usually follows an empty
line. -/
def Section.header (s : Section) (isFirst : Bool) : List Char :=
  let brackets (inner : List Char) :=
    if s.repeated then '[' :: '[' :: inner ++ [']', ']'] else '[' :: inner ++ [']']
  s.head.decor.prefixText (if isFirst then [] else ['\n']) ++ brackets (pathText [] [] s.path) ++
    s.head.decor.suffixText [] ++ ['\n']

/-- The lines of a section below its header. -/
def Section.body (s : Section) : List Char :=
  s.leaves.flatMap fun leaf => pathText [] [' '] leaf.1 ++ ['='] ++ leaf.2.text [' '] [] ++ ['\n']

/-- The text of sections; the flag says whether nothing was printed before them. -/
def sectionsText (isFirst : Bool) : List Section → List Char
  | [] => []
  | s :: rest =>
    (if s.hasHeader then s.header isFirst else []) ++ s.body ++
      sectionsText (isFirst && !s.hasHeader && s.leaves.isEmpty) rest

/-- The **text** of a document. -/
def Document.text (d : Document) : String :=
  String.ofList (sectionsText true d.sections ++ raw d.trailing)

end SchemaHistory.Toml

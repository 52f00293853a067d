import SchemaHistory.Toml.Value

/-!
# Reading documents

A document is read line by line into the table whose header came last, and that table is stored in
the document when the next header, or the end of the text, is reached.

A key may be given once. Dotted keys and headers make the tables that they lead through, and these
may be filled later, but a table that a header or braces have defined is not opened again, and
dotted keys do not reach into a table that a header has defined.
-/

namespace SchemaHistory.Toml

/-! ### Tables -/

/-- The table at the end of a path changed by a function, in a table that leads to it. What is
missing on the way is made; `dotted` says whether by dotted keys or by a header. Under a name that
several tables have, the way leads through the last of them. -/
def descend? (dotted : Bool) (f : Table → Option Table) : List Key → Table → Option Table
  | [], t => f t
  | k :: path, (head, entries) =>
    match find? k.name entries with
    | none =>
      (descend? dotted f path ({ implicit := true, dotted }, [])).map fun t =>
        (head, entries ++ [(k, .table t.1 t.2)])
    | some (.value _) => none
    | some (.table h es) =>
      if dotted && !h.implicit then none
      else
        (descend? dotted f path (h, es)).map fun t =>
          (head, refill k.name (.table t.1 t.2) entries)
    | some (.tables ts) =>
      match ts.getLast? with
      | none => none
      | some t =>
        (descend? dotted f path t).map fun t =>
          (head, refill k.name (.tables (ts.dropLast ++ [t])) entries)

/-- The table with one more value at the end of a path of dotted keys. -/
def addEntry? (path : List Key) (key : Key) (v : Value) (t : Table) : Option Table :=
  descend? true
    (fun t =>
      if t.1.dotted = path.isEmpty ∨ (find? key.name t.2).isSome then none
      else some (t.1, t.2 ++ [(key, .value v)]))
    path t

/-! ### Documents -/

/-- A **document that is being read**: what has been stored, and the table that is open. -/
structure Draft where
  root : Table := ({}, [])
  /-- The table whose lines are being read. -/
  table : Table := ({}, [])
  /-- Where the open table belongs; it is the top table if this is nothing. -/
  target : Option (List Key × Key) := none
  /-- Whether the open table is one of several under its path. -/
  repeated : Bool := false
  /-- The number of headers so far. -/
  headers : Nat := 0

/-- A table with one more table under a name. -/
def pushTable? (key : Key) (new : Table) (t : Table) : Option Table :=
  match find? key.name t.2 with
  | none => some (t.1, t.2 ++ [(key, .tables [new])])
  | some (.tables ts) => some (t.1, refill key.name (.tables (ts ++ [new])) t.2)
  | some _ => none

/-- The document with the open table stored where it belongs. -/
def Draft.close? (d : Draft) : Option Table :=
  match d.target with
  | none => some d.table
  | some (path, key) =>
    if d.repeated then descend? false (pushTable? key d.table) path d.root
    else
      descend? false (fun t => some (t.1, t.2 ++ [(key, .table d.table.1 d.table.2)])) path d.root

/-- What a header that defines a name starts from: the table without the name, and the entries that
are under the name already. Only a table that other headers lead through may be under it. -/
def release? (key : Key) (t : Table) : Option (Table × Entries) :=
  match find? key.name t.2 with
  | none => some (t, [])
  | some (.table h es) =>
    if h.implicit && !h.dotted then
      some ((t.1, t.2.filter fun e => e.1.name != key.name), es)
    else none
  | some _ => none

/-- The table at the end of a path. A table that is missing is empty. -/
def tableAt? : List Key → Table → Option Table
  | [], t => some t
  | k :: path, t =>
    match find? k.name t.2 with
    | none => some ({}, [])
    | some (.value _) => none
    | some (.table h es) => tableAt? path (h, es)
    | some (.tables ts) => ts.getLast?.bind (tableAt? path)

/-- The draft after the header of a table. -/
def Draft.open? (d : Draft) (path : List Key) (key : Key) (decor : Decor) : Option Draft := do
  let root ← d.close?
  let (_, entries) ← (tableAt? path root).bind (release? key)
  let root ← descend? false (fun t => (release? key t).map (·.1)) path root
  return { root, table := ({ decor, position := some (d.headers + 1) }, entries)
           target := some (path, key), headers := d.headers + 1 }

/-- Whether a header may add a table to those under a name. -/
def hasRoom (key : Key) (t : Table) : Bool :=
  match find? key.name t.2 with
  | none => true
  | some (.tables _) => true
  | some _ => false

/-- The draft after the header of one of several tables. -/
def Draft.openRepeated? (d : Draft) (path : List Key) (key : Key) (decor : Decor) :
    Option Draft := do
  let root ← d.close?
  let root ← descend? false (fun t => if hasRoom key t then some t else none) path root
  return { root, table := ({ decor, position := some (d.headers + 1) }, [])
           target := some (path, key), repeated := true, headers := d.headers + 1 }

/-- The draft after a line with a header, and what follows; the spacing stands before the line. -/
def header? (d : Draft) (space : List Char) : List Char → Option (Draft × List Char)
  | '[' :: '[' :: rest => do
    let (path, key, s) ← path? rest
    match s with
    | ']' :: ']' :: rest =>
      let (after, rest) ← lineEnd? rest
      return (← d.openRepeated? path key ⟨some space, some after⟩, rest)
    | _ => none
  | '[' :: rest => do
    let (path, key, s) ← path? rest
    match s with
    | ']' :: rest =>
      let (after, rest) ← lineEnd? rest
      return (← d.open? path key ⟨some space, some after⟩, rest)
    | _ => none
  | _ => none

/-- The draft after a line with a key and a value, and what follows; the spacing stands before the
line. -/
def entry? (d : Draft) (space : List Char) (s : List Char) : Option (Draft × List Char) := do
  let (path, key, s) ← path? s
  match s with
  | '=' :: rest =>
    let (before, s) := blanks rest
    let (v, s) ← value? (nestingLimit - 1) (s.length + 1) s
    let (after, s) ← lineEnd? s
    let key := { key with leaf := ⟨some (space ++ key.leaf.before.getD []), key.leaf.after⟩ }
    let table ← addEntry? path key (v.decorate ⟨some before, some after⟩) d.table
    return ({ d with table }, s)
  | _ => none

/-- The document that the lines of a text make, given the draft of those before. -/
def lines? : Nat → Draft → List Char → Option Document
  | 0, _, _ => none
  | fuel + 1, d, s =>
    let (space, s) := spacing false s
    match s with
    | [] => d.close?.map fun root => { root, trailing := space }
    | '[' :: _ => do
      let (d, s) ← header? d space s
      lines? fuel d s
    | s => do
      let (d, s) ← entry? d space s
      lines? fuel d s

/-- The text without a mark of its byte order. -/
def skipMark : List Char → List Char
  | '\ufeff' :: rest => rest
  | s => s

/-- The **document** that a text writes. -/
def Document.parse? (text : String) : Option Document :=
  let s := skipMark text.toList
  lines? (s.length + 1) {} s

end SchemaHistory.Toml

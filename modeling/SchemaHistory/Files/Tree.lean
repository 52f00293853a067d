import SchemaHistory.Dict
import SchemaHistory.Files.Path
import SchemaHistory.Files.System

/-!
# File trees

A file system as a value: what stands at which place below one folder. A **place** is the list of
names that lead to it, so moving a folder is a change of the beginning of many places. Paths are
followed name by name, as an operating system does, and fail in the same ways; whatever lies
outside the tree does not exist.
-/

namespace SchemaHistory.Files

/-- The **content** of a file. -/
inductive Content
  | text (s : String)
  /-- Bytes that are no text. -/
  | bytes (b : List UInt8)
  deriving DecidableEq

/-- The content that some bytes are. -/
def Content.ofBytes (b : List UInt8) : Content :=
  match String.fromUTF8? ⟨b.toArray⟩ with
  | some s => text s
  | none => bytes b

/-- What stands at a place. -/
inductive Node
  | folder
  | file (content : Content)
  deriving DecidableEq

/-- A **place**: the names that lead to it from the top. -/
abbrev Place := List String

/-- A **tree** of files. The top is a folder and has no entry of its own. -/
structure Tree where
  nodes : Dict Place Node := ∅
  deriving DecidableEq, Inhabited

namespace Tree

/-- What stands at a place. -/
def node? (t : Tree) (p : Place) : Option Node :=
  if p = [] then some .folder else t.nodes.find? p

/-- The tree with something else at a place. -/
def set (t : Tree) (p : Place) (n : Node) : Tree :=
  ⟨t.nodes.insert p n⟩

/-- The names directly inside a folder, with what stands there. -/
def children (t : Tree) (folder : Place) : List (String × Node) :=
  t.nodes.entries.filterMap fun e =>
    match e.1.getLast? with
    | some name => if e.1.dropLast = folder then some (name, e.2) else none
    | none => none

/-! ### Following paths -/

/-- A path that has been **followed**: the place that it leads to, and whether it says that this is
a folder. Everything above the place is a folder. -/
structure Followed where
  place : Place
  wantsFolder : Bool

/-- Follows names from a place. Only the last one may be missing or a file. -/
def follow (t : Tree) (p : Place) : List String → Except Fault Place
  | [] => .ok p
  | name :: rest =>
    match t.node? p with
    | none => .error .notFound
    | some (.file _) => .error .notFolder
    | some .folder =>
      if name = "." then t.follow p rest
      else if name = ".." then if p = [] then .error .notFound else t.follow p.dropLast rest
      else if 255 < name.utf8ByteSize then .error .nameTooLong
      else t.follow (p ++ [name]) rest

/-- The names of a path, which has to lie inside the tree. -/
def names (path : String) : Except Fault (List String) :=
  if path.isEmpty then .error .notFound
  else if path.contains '\x00' then .error .nulInName
  else if Path.isAbsoluteText path then .error .notFound
  else if 4096 ≤ path.utf8ByteSize then .error .nameTooLong
  else .ok (Path.rawParts path)

/-- Whether a path says that it leads to a folder. -/
def wantsFolder (path : String) : Bool :=
  path.toList.getLast? == some '/'

/-- Follows the text of a path. -/
def resolve (t : Tree) (path : String) : Except Fault Followed := do
  let p ← t.follow [] (← names path)
  return ⟨p, wantsFolder path⟩

/-- Where the last name of a path **stands**. -/
structure Site where
  folder : Place
  name : String
  wantsFolder : Bool

/-- Whether the last component is a name, and no step to a folder that is named elsewhere. -/
def Site.isNamed (s : Site) : Bool :=
  s.name != "." && s.name != ".."

/-- Follows the text of a path up to its last name. -/
def site (t : Tree) (path : String) : Except Fault Site := do
  let parts ← names path
  let p ← t.follow [] parts.dropLast
  match t.node? p with
  | none => .error .notFound
  | some (.file _) => .error .notFolder
  | some .folder => return ⟨p, parts.getLastD ".", wantsFolder path⟩

/-- What a path leads to, which has to be there. -/
def lookup (t : Tree) (path : String) : Except Fault (Place × Node) :=
  match t.resolve path with
  | .error f => .error f
  | .ok r =>
    match t.node? r.place with
    | none => .error .notFound
    | some .folder => .ok (r.place, .folder)
    | some (.file c) => if r.wantsFolder then .error .notFolder else .ok (r.place, .file c)

/-! ### The operations -/

/-- Whether a path leads to something. -/
def has (t : Tree) (path : String) : Bool :=
  match t.lookup path with
  | .ok _ => true
  | .error _ => false

/-- Whether a path leads to a folder. -/
def isFolder (t : Tree) (path : String) : Bool :=
  match t.lookup path with
  | .ok (_, .folder) => true
  | _ => false

/-- The text of a file. -/
def read (t : Tree) (path : String) : Except Fault String :=
  match t.lookup path with
  | .error f => .error f
  | .ok (_, .folder) => .error .isFolder
  | .ok (_, .file (.text s)) => .ok s
  | .ok (_, .file (.bytes _)) => .error .notText

/-- The tree with a text stored in a file. -/
def write (t : Tree) (path text : String) : Except Fault Tree :=
  match t.resolve path with
  | .error f => .error f
  | .ok r =>
    match t.node? r.place with
    | some .folder => .error .isFolder
    | some (.file _) =>
      if r.wantsFolder then .error .notFolder else .ok (t.set r.place (.file (.text text)))
    | none => if r.wantsFolder then .error .isFolder else .ok (t.set r.place (.file (.text text)))

/-- The names of the files directly inside a folder. -/
def fileNames (t : Tree) (path : String) : Except Fault (List String) :=
  match t.lookup path with
  | .error f => .error f
  | .ok (_, .file _) => .error .notFolder
  | .ok (p, .folder) =>
    .ok ((t.children p).filterMap fun c =>
      match c.2 with
      | .file _ => some c.1
      | .folder => none)

/-- The tree with one folder more. -/
def makeFolder (t : Tree) (path : String) : Except Fault Tree :=
  match t.resolve path with
  | .error f => .error f
  | .ok r =>
    match t.node? r.place with
    | some _ => .error .alreadyExists
    | none => .ok (t.set r.place .folder)

/-- The tree with a folder at a path, and what it was before if there is a folder already. -/
def ensureFolder (t : Tree) (path : String) : Except Fault Tree :=
  match t.makeFolder path with
  | .ok t' => .ok t'
  | .error f => if t.isFolder path then .ok t else .error f

/-- The tree with a folder at a path and at every path above it, given as the components in
reverse. -/
def ensureAll (t : Tree) (absolute : Bool) : List String → Except Fault Tree
  | [] => if absolute then .error .notFound else .ok t
  | name :: above =>
    let path := Path.text ⟨absolute, (name :: above).reverse⟩
    match t.makeFolder path with
    | .ok t' => .ok t'
    | .error .notFound => (t.ensureAll absolute above).bind fun t' => t'.ensureFolder path
    | .error f => if t.isFolder path then .ok t else .error f

/-- The tree with a folder and all folders above it. A path without a name asks for nothing. -/
def makeFolders (t : Tree) (path : String) : Except Fault Tree :=
  if path.isEmpty then .ok t
  else
    match t.makeFolder path with
    | .ok t' => .ok t'
    | .error .notFound =>
      let p := Path.ofText path
      (t.ensureAll p.absolute p.parts.reverse.tail).bind fun t' => t'.ensureFolder path
    | .error f => if t.isFolder path then .ok t else .error f

/-- The tree after everything at and below one place has gone to another one. -/
def relocate (t : Tree) (old new : Place) : Tree :=
  let rest := t.nodes.entries.filter fun e => !old.isPrefixOf e.1 && !new.isPrefixOf e.1
  let moved := (t.nodes.entries.filter fun e => old.isPrefixOf e.1).map fun e =>
    (new ++ e.1.drop old.length, e.2)
  ⟨Dict.ofList (rest ++ moved)⟩

/-- Whether something may be moved onto what stands at a place. -/
def checkTarget (t : Tree) (source : Node) (new : Place) : Except Fault Unit :=
  match source, t.node? new with
  | _, none => .ok ()
  | .file _, some (.file _) => .ok ()
  | .file _, some .folder => .error .isFolder
  | .folder, some (.file _) => .error .notFolder
  | .folder, some .folder => if (t.children new).isEmpty then .ok () else .error .notEmpty

/-- The tree after a file or folder has moved to another path. A file replaces a file, a folder
replaces an empty folder, and nothing moves into itself. -/
def move (t : Tree) (old new : String) : Except Fault Tree := do
  if old.contains '\x00' || new.contains '\x00' then .error .nulInName
  else
    let source ← t.site old
    let target ← t.site new
    if !(source.isNamed && target.isNamed) then .error .busy
    else
      let oldPlace ← t.follow source.folder [source.name]
      match t.node? oldPlace with
      | none => .error .notFound
      | some node =>
        let newPlace ← t.follow target.folder [target.name]
        if (node != .folder) && (source.wantsFolder || target.wantsFolder) then .error .notFolder
        else if oldPlace = newPlace then .ok t
        else if oldPlace.isPrefixOf newPlace then .error .invalidArgument
        else if newPlace.isPrefixOf oldPlace then .error .notEmpty
        else (t.checkTarget node newPlace).map fun _ => t.relocate oldPlace newPlace

/-! ### Laying out a tree -/

/-- The tree with folders at all places above a place, and at the place itself. -/
def plantFolder (t : Tree) (p : Place) : Tree :=
  ((List.range p.length).map fun i => p.take (i + 1)).foldl
    (fun t q => if (t.node? q).isSome then t else t.set q .folder) t

/-- The tree with a file, in folders that are created for it. -/
def plantFile (t : Tree) (p : Place) (c : Content) : Tree :=
  (t.plantFolder p.dropLast).set p (.file c)

/-! ### The tree as a file system -/

/-- An operation that changes the tree if it succeeds. -/
def updating (op : Tree → Except Fault Tree) : StateM Tree (Except Fault Unit) := fun t =>
  match op t with
  | .ok t' => (.ok (), t')
  | .error f => (.error f, t)

/-- The **file system** whose state is a tree. -/
def system : System (StateM Tree) where
  has path := fun t => (t.has path, t)
  read path := fun t => (t.read path, t)
  write path text := updating (·.write path text)
  fileNames path := fun t => (t.fileNames path, t)
  makeFolders path := updating (·.makeFolders path)
  move old new := updating (·.move old new)

end Tree

end SchemaHistory.Files

import SchemaHistory.Failure
import SchemaHistory.Settings
import SchemaHistory.Toml.Printer
import SchemaHistory.Toml.Reader
import SchemaHistory.Toml.Spelling

/-!
# The settings file

The settings file is a TOML document with two sections. A setting that the file does not have keeps
its default, and so does every setting of a section that is missing. Everything else in the file is
ignored when it is read and kept when it is updated.
-/

namespace SchemaHistory.Settings

/-! ### Reading -/

/-- A setting that is a text. -/
def readText? (default : String) : Option Toml.Item → Option String
  | none => some default
  | some (.value (.scalar (.string s) _ _)) => some s
  | some _ => none

/-- A setting that is on or off. -/
def readFlag? (default : Bool) : Option Toml.Item → Option Bool
  | none => some default
  | some (.value (.scalar (.boolean b) _ _)) => some b
  | some _ => none

/-- The settings of a section, as far as it has them. -/
def sectionFields? (d : Toml.Document) (name : String) (fields : List String) :
    Option (List (Option Toml.Item)) :=
  match Toml.find? name d.root.2 with
  | none => some (fields.map fun _ => none)
  | some item => item.fields? fields

/-- The settings with the paths that a document has. -/
def readPaths? (d : Toml.Document) (s : Settings) : Option Settings := do
  match ← sectionFields? d "paths" ["migrations", "output", "move_to"] with
  | [migrations, output, moveTo] =>
    return { s with
      migrations := ← readText? s.migrations migrations
      output := ← readText? s.output output
      moveTo := ← readText? s.moveTo moveTo }
  | _ => none

/-- The settings with what a document says about scripts. -/
def readOutput? (d : Toml.Document) (s : Settings) : Option Settings := do
  match ← sectionFields? d "output" ["extension", "snapshot"] with
  | [extension, snapshot] =>
    return { s with
      extension := ← readText? s.extension extension
      snapshot := ← readFlag? s.snapshot snapshot }
  | _ => none

/-- The settings in a document. -/
def ofDocument? (d : Toml.Document) : Option Settings :=
  (readPaths? d {}).bind (readOutput? d)

/-- The settings in a text. -/
def parse (text : String) : Except Failure Settings :=
  match (Toml.Document.parse? text).bind ofDocument? with
  | some s => .ok s
  | none => .error (.settings ("Failed to parse " ++ fileName))

/-! ### Writing -/

/-- A setting as an entry: a blank stands before the value. -/
def entry (name : String) (value : Toml.Scalar) (spelling : List Char) : Toml.Key × Toml.Value :=
  ({ name }, .scalar value spelling ⟨some [' '], some []⟩)

/-- A setting that is a text. -/
def textEntry (name value : String) : Toml.Key × Toml.Value :=
  entry name (.string value) (Toml.spell value.toList)

/-- A setting that is on or off. -/
def flagEntry (name : String) (value : Bool) : Toml.Key × Toml.Value :=
  entry name (.boolean value) (if value then "true" else "false").toList

/-- The settings as the entries of two **sections**, each with the text before its header. -/
def sections (s : Settings) : List (String × List Char × List (Toml.Key × Toml.Value)) :=
  [("paths", [],
    [textEntry "migrations" s.migrations, textEntry "output" s.output,
     textEntry "move_to" s.moveTo]),
   ("output", ['\n'], [textEntry "extension" s.extension, flagEntry "snapshot" s.snapshot])]

/-- A section as a table with a header. -/
def sectionTable (position : Nat) (space : List Char) (entries : List (Toml.Key × Toml.Value)) :
    Toml.Item :=
  .table { decor := ⟨some space, some []⟩, position := some position }
    (entries.map fun e => (e.1, .value e.2))

/-- The item with entries stored in it, if it is a table of any kind. -/
def fill? (entries : List (Toml.Key × Toml.Value)) : Toml.Item → Option Toml.Item
  | .table head es =>
    some (.table head (entries.foldl (fun es e => Toml.put e.1.name (.value e.2) es) es))
  | .value (.table es dotted preamble d) =>
    some (.value (.table (entries.foldl (fun es e => Toml.put e.1.name e.2 es) es)
      dotted preamble d))
  | _ => none

/-- The entries of a document with one section of the settings stored in them. A section that is
there is filled; one that is missing, or is no table, is stored as a whole. -/
def putSection (position : Nat) (name : String) (space : List Char)
    (entries : List (Toml.Key × Toml.Value)) (top : Toml.Entries) : Toml.Entries :=
  match (Toml.find? name top).bind (fill? entries) with
  | some item => Toml.refill name item top
  | none => Toml.put name (sectionTable position space entries) top

/-- The entries of a document with all settings stored in them. -/
def putAll (s : Settings) (top : Toml.Entries) : Toml.Entries :=
  (s.sections.zipIdx 1).foldl (fun top e => putSection e.2 e.1.1 e.1.2.1 e.1.2.2 top) top

/-- The **text** of a settings file with all settings. -/
def text (s : Settings) : String :=
  Toml.Document.text { root := ({}, s.putAll []) }

/-- The text of a settings file after all settings have been stored in it. -/
def update (s : Settings) (text : String) : Except Failure String :=
  match Toml.Document.parse? text with
  | some d => .ok (Toml.Document.text { d with root := (d.root.1, s.putAll d.root.2) })
  | none => .error (.settings ("Failed to parse existing " ++ fileName))

/-! ### The settings file -/

variable {m : Type → Type} [Monad m]

/-- A fault of the file system as a failure. -/
def ioFailure (f : Files.Fault) : Failure :=
  .io f.message

/-- The settings in a file. -/
def ofFile (fs : Files.System m) (path : String) : m (Except Failure Settings) := do
  match ← fs.read path with
  | .error f => return .error (ioFailure f)
  | .ok text => return parse text

/-- The settings in a file; the defaults if there is no file. -/
def load (fs : Files.System m) (path : String) : m (Except Failure Settings) := do
  if ← fs.has path then ofFile fs path else return .ok {}

/-- Writes a settings file with all settings and nothing else. -/
def save (s : Settings) (fs : Files.System m) (path : String) : m (Except Failure Unit) := do
  return (← fs.write path s.text).mapError ioFailure

/-- Stores all settings in a settings file, which may be missing. -/
def updateFile (s : Settings) (fs : Files.System m) (path : String) :
    m (Except Failure Unit) := do
  let old ← if ← fs.has path then fs.read path else pure (.ok "")
  match old with
  | .error f => return .error (ioFailure f)
  | .ok text =>
    match s.update text with
    | .error f => return .error f
    | .ok new => return (← fs.write path new).mapError ioFailure

end SchemaHistory.Settings

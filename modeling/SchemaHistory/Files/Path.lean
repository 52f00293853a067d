import SchemaHistory.Text.Search

/-!
# Paths

A path is a text whose components stand between slashes. Empty components mean nothing, and
neither does a dot, unless it is the first component of a relative path: two paths are the same
when they agree after such components are struck out, whatever that leads to in a file system.
-/

namespace SchemaHistory.Files

/-- A **path** without components that mean nothing. -/
structure Path where
  absolute : Bool
  parts : List String
  deriving DecidableEq

namespace Path

/-- All components of a text, with the empty ones struck out. -/
def rawParts (text : String) : List String :=
  ((Text.splitAt (· == '/') text.toList).filter (!·.isEmpty)).map String.ofList

/-- Whether a text starts at the root. -/
def isAbsoluteText (text : String) : Bool :=
  text.toList.head? == some '/'

/-- The path that a text writes. -/
def ofText (text : String) : Path :=
  let absolute := isAbsoluteText text
  let parts :=
    match rawParts text with
    | [] => []
    | p :: rest =>
      (if p = "." ∧ absolute = true then [] else [p]) ++ rest.filter (· != ".")
  ⟨absolute, parts⟩

/-- Whether two texts write the same path. -/
def same (a b : String) : Bool :=
  ofText a == ofText b

/-- The text of a file inside a folder. An absolute name stands for itself. -/
def join (folder name : String) : String :=
  if isAbsoluteText name then name
  else if folder.isEmpty then name
  else if folder.toList.getLast? = some '/' then folder ++ name
  else folder ++ "/" ++ name

/-- The text of a path. -/
def text (p : Path) : String :=
  (if p.absolute then "/" else "") ++ "/".intercalate p.parts

end Path

end SchemaHistory.Files

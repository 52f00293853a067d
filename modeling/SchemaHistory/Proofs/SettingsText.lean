import SchemaHistory.Proofs.PlainLines
import SchemaHistory.Proofs.SettingsUpdate

/-!
# The text of a settings file

A settings file that is made from nothing has two headers and a line for each of the five settings
(`SchemaHistory.Settings.toList_text`). Each of these lines is a plain one, so reading the text goes
through it line by line and ends with a document of two tables
(`SchemaHistory.Settings.parse?_eq_readDocument`), and the settings in it are those that were written
(`SchemaHistory.Settings.parse_text`). The three folders and the extension can be any texts: they
are spelled in a way that is read back.
-/

namespace SchemaHistory

namespace Toml

/-! ### Printing -/

theorem raw_eq_self {s : List Char} (h : '\r' ∉ s) : raw s = s := by
  rw [raw, List.filter_eq_self]
  rintro c hc
  have hne : c ≠ '\r' := by
    rintro rfl
    exact h hc
  simpa using hne

@[simp] theorem raw_nil : raw [] = [] := rfl

/-- The sections of a document in the order of its entries. -/
def Document.unsorted (d : Document) : List Section :=
  ⟨0, d.root.1, [], false, itemLeaves [] d.root.2⟩ :: (entrySections [] 0 d.root.2).1

/-- Sections that stand in the order of their positions are printed in this order. -/
theorem Document.sections_eq_unsorted {d : Document}
    (h : (d.unsorted.map Section.position).Pairwise (· ≤ ·)) : d.sections = d.unsorted := by
  rw [List.pairwise_map] at h
  exact List.mergeSort_of_pairwise (h.imp fun hle => by simpa using hle)

/-- The document that characters write. -/
def parseChars? (s : List Char) : Option Document :=
  lines? ((skipMark s).length + 1) {} (skipMark s)

theorem parse?_ofList (s : List Char) : Document.parse? (String.ofList s) = parseChars? s := by
  rw [Document.parse?, String.toList_ofList]
  rfl

end Toml

namespace Settings

open Toml

/-! ### The text of settings -/

/-- A section of settings as it is printed. -/
def printed (position : Nat) (name : String) (space : List Char) (entries : List (Key × Value)) :
    Toml.Section where
  position := position
  head := { decor := ⟨some space, some []⟩, position := some position }
  path := [{ name }]
  repeated := false
  leaves := entries.map fun e => ([e.1], e.2)

theorem sections_text (s : Settings) :
    Document.sections { root := ({}, s.putAll []) } =
      [⟨0, {}, [], false, []⟩,
        printed 1 "paths" [] [textEntry "migrations" s.migrations, textEntry "output" s.output,
          textEntry "move_to" s.moveTo],
        printed 2 "output" ['\n'] [textEntry "extension" s.extension,
          flagEntry "snapshot" s.snapshot]] :=
  Document.sections_eq_unsorted (by change [0, 1, 2].Pairwise (· ≤ ·); decide)

/-- A setting is printed on a line of its own. -/
theorem text_entry (name : String) (value : Scalar) {spelling : List Char} (h : '\r' ∉ spelling) :
    pathText [] [' '] [(entry name value spelling).1] ++ ['='] ++
      (entry name value spelling).2.text [' '] [] ++ ['\n'] = line name spelling := by
  have hblank : raw [' '] = [' '] := raw_eq_self (by decide)
  simp [entry, pathText, Decor.prefixText, Decor.suffixText, Key.text, Value.text, line, hblank,
    raw_eq_self h]

theorem header_printed (position : Nat) (name : String) (space : List Char) (h : '\r' ∉ space)
    (entries : List (Key × Value)) (isFirst : Bool) :
    (printed position name space entries).header isFirst =
      space ++ '[' :: (name.toList ++ [']', '\n']) := by
  simp [printed, Section.header, pathText, Decor.prefixText, Decor.suffixText, Key.text,
    raw_eq_self h]

theorem hasHeader_printed (position : Nat) (name : String) (space : List Char)
    (entries : List (Key × Value)) : (printed position name space entries).hasHeader = true := by
  simp [Section.hasHeader, printed]

theorem body_printed (position : Nat) (name : String) (space : List Char)
    (entries : List (Key × Value)) : (printed position name space entries).body =
      entries.flatMap fun e => pathText [] [' '] [e.1] ++ ['='] ++ e.2.text [' '] [] ++ ['\n'] := by
  simp [Section.body, printed, List.flatMap_map]

/-- **The text of a settings file**, line by line. -/
theorem toList_text (s : Settings) :
    s.text.toList = "[paths]\n".toList ++ (line "migrations" (spell s.migrations.toList) ++
      (line "output" (spell s.output.toList) ++ (line "move_to" (spell s.moveTo.toList) ++
        ("\n[output]\n".toList ++ (line "extension" (spell s.extension.toList) ++
          line "snapshot" (if s.snapshot then "true" else "false").toList))))) := by
  have htext : ∀ name value, pathText [] [' '] [(textEntry name value).1] ++ ['='] ++
      (textEntry name value).2.text [' '] [] ++ ['\n'] = line name (spell value.toList) :=
    fun name value => text_entry name (.string value) (not_mem_spell value.toList)
  have hflag : pathText [] [' '] [(flagEntry "snapshot" s.snapshot).1] ++ ['='] ++
      (flagEntry "snapshot" s.snapshot).2.text [' '] [] ++ ['\n'] =
        line "snapshot" (if s.snapshot then "true" else "false").toList :=
    text_entry "snapshot" (.boolean s.snapshot) (by cases s.snapshot <;> decide)
  have hpaths := header_printed 1 "paths" [] (by decide)
  have houtput := header_printed 2 "output" ['\n'] (by decide)
  -- The top table comes first and prints nothing, so the first header is at the start of the text.
  rw [text, Document.text, String.toList_ofList, sections_text, sectionsText, sectionsText,
    sectionsText, sectionsText]
  simp only [hasHeader_printed, hpaths, houtput, body_printed, List.flatMap_cons, List.flatMap_nil,
    htext, hflag, if_true, List.append_nil]
  simp [Section.hasHeader, Section.body]

/-! ### Reading the text -/

theorem isPlainKey_settings : ∀ name ∈ ["paths", "output", "migrations", "move_to", "extension",
    "snapshot"], IsPlainKey name := by
  have hall : ∀ name ∈ ["paths", "output", "migrations", "move_to", "extension", "snapshot"],
      name.toList ≠ [] ∧ ∀ c ∈ name.toList, isKeyChar c = true := by
    decide
  exact fun name hmem => ⟨(hall name hmem).1, (hall name hmem).2⟩

/-- What is read from a line with a setting. -/
def readEntry (name : String) (value : Scalar) (spelling : List Char) : Key × Toml.Item :=
  (plainKey name [' '], .value (.scalar value spelling ⟨some [' '], some []⟩))

section Lines

variable {d : Draft} {name : String}

/-- A line with a text. -/
theorem lines?_textLine (h : IsPlainKey name) (hdotted : d.table.1.dotted = false)
    (hnew : find? name d.table.2 = none) (value : String) (fuel : Nat) (rest : List Char) :
    lines? (fuel + 1) d (line name (spell value.toList) ++ rest) =
      lines? fuel { d with table := (d.table.1, d.table.2 ++
        [readEntry name (.string value) (spell value.toList)]) } rest := by
  refine lines?_line h (fun c hc => ?_) (fun room fuel => ?_) hdotted hnew fuel
  · obtain ⟨q, t, hspell, hquote⟩ := exists_spell value.toList
    rw [hspell] at hc
    obtain rfl : q = c := by simpa using hc
    rcases hquote with rfl | rfl <;> decide
  · rw [value?_spell, String.ofList_toList]

/-- A line with a flag. -/
theorem lines?_flagLine (h : IsPlainKey name) (hdotted : d.table.1.dotted = false)
    (hnew : find? name d.table.2 = none) (value : Bool) (fuel : Nat) (rest : List Char) :
    lines? (fuel + 1) d (line name (if value then "true" else "false").toList ++ rest) =
      lines? fuel { d with table := (d.table.1, d.table.2 ++
        [readEntry name (.boolean value) (if value then "true" else "false").toList]) } rest := by
  refine lines?_line h (fun c hc => ?_) (fun room fuel => ?_) hdotted hnew fuel
  · cases value
    · obtain rfl : 'f' = c := by simpa using hc
      decide
    · obtain rfl : 't' = c := by simpa using hc
      decide
  · have hspelled := spelled_append (if value then "true" else "false").toList ('\n' :: rest)
    cases value
    · change some (Value.scalar _ (spelled _ ('\n' :: rest)) _, _) = _
      exact congrArg (fun t => some (Value.scalar (.boolean false) t {}, '\n' :: rest)) hspelled
    · change some (Value.scalar _ (spelled _ ('\n' :: rest)) _, _) = _
      exact congrArg (fun t => some (Value.scalar (.boolean true) t {}, '\n' :: rest)) hspelled

end Lines

/-- The document that is read from the text of settings. -/
def readDocument (s : Settings) : Document where
  root := ({}, [
    (plainKey "paths" [], .table { decor := ⟨some [], some []⟩, position := some 1 }
      [readEntry "migrations" (.string s.migrations) (spell s.migrations.toList),
       readEntry "output" (.string s.output) (spell s.output.toList),
       readEntry "move_to" (.string s.moveTo) (spell s.moveTo.toList)]),
    (plainKey "output" [], .table { decor := ⟨some ['\n'], some []⟩, position := some 2 }
      [readEntry "extension" (.string s.extension) (spell s.extension.toList),
       readEntry "snapshot" (.boolean s.snapshot) (if s.snapshot then "true" else "false").toList])])

theorem parse?_eq_readDocument (s : Settings) : Document.parse? s.text = some s.readDocument := by
  have hmark : skipMark s.text.toList = s.text.toList := by
    rw [toList_text]
    rfl
  -- Seven lines and the end of the text are read, and the first line alone has eight characters.
  obtain ⟨fuel, hfuel⟩ : ∃ fuel, s.text.toList.length + 1 = fuel + 8 := by
    rw [toList_text, List.length_append]
    exact ⟨_ + 1, by rw [Nat.add_comm "[paths]\n".toList.length]; rfl⟩
  have hpaths : ∀ rest, "[paths]\n".toList ++ rest =
      [] ++ '[' :: ("paths".toList ++ ']' :: '\n' :: rest) := fun _ => rfl
  have houtput : ∀ rest, "\n[output]\n".toList ++ rest =
      ['\n'] ++ '[' :: ("output".toList ++ ']' :: '\n' :: rest) := fun _ => rfl
  rw [Document.parse?, hmark, hfuel, toList_text, hpaths,
    lines?_header (isPlainKey_settings "paths" (by decide)) (fun _ => rfl) rfl rfl,
    lines?_textLine (isPlainKey_settings "migrations" (by decide)) rfl rfl,
    lines?_textLine (isPlainKey_settings "output" (by decide)) rfl rfl,
    lines?_textLine (isPlainKey_settings "move_to" (by decide)) rfl rfl, houtput,
    lines?_header (isPlainKey_settings "output" (by decide)) (fun _ => rfl) rfl rfl,
    lines?_textLine (isPlainKey_settings "extension" (by decide)) rfl rfl,
    ← List.append_nil (line "snapshot" _),
    lines?_flagLine (isPlainKey_settings "snapshot" (by decide)) rfl rfl]
  rfl

/-- **A settings file with nothing but settings says these settings.** -/
theorem parse_text (s : Settings) : parse s.text = .ok s := by
  have hread : ofDocument? s.readDocument = some s := rfl
  rw [parse, parse?_eq_readDocument, Option.bind_some, hread]

end Settings

end SchemaHistory

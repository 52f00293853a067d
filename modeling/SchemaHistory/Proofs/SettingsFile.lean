import SchemaHistory.Proofs.SettingsPrecedence
import SchemaHistory.Proofs.SettingsText

/-!
# The settings file is not damaged

The command that starts a settings file reads before it writes, and everything that can go wrong
goes wrong while it reads: a file that is there and is not to be updated, one that cannot be read,
one that is no document, and one whose settings cannot be loaded. Then the tree is what it was.

Otherwise there is one write. Without a file the text of the settings is written, and reading it
gives them back whatever they are (`SchemaHistory.runInit_creates`). With a file the settings are
stored in the document that was read, which is then printed. What a reader finds in that text is
the business of the printer, and all that is asked of it is that the values of this document come
back (`SchemaHistory.Toml.Document.Reprints`); what the values are is known from
`SchemaHistory.Settings.at?_updated_of_isOther` (`SchemaHistory.runInit_updates`).
-/

namespace SchemaHistory

open CommandLine Files

variable {t t' : Tree}

/-- The settings of a command line laid over others. -/
def CommandLine.Invocation.overrule (i : Invocation) (extension : Option String) (s : Settings) :
    Settings :=
  { s.withFolders i.migrations i.output i.moveTo with extension := extension.getD s.extension }

namespace Settings

/-- Loading settings leaves a tree alone. -/
theorem load_cases (t : Tree) (path : String) :
    (∃ s, load Tree.system path t = (.ok s, t)) ∨ ∃ f, load Tree.system path t = (.error f, t) := by
  rw [load_eq]
  rcases (if t.has path then ((t.read path).mapError ioFailure).bind parse else .ok {} :
    Except Failure Settings) with f | s
  · exact Or.inr ⟨f, rfl⟩
  · exact Or.inl ⟨s, rfl⟩

theorem updateFile_eq_ok {path text : String} {s : Settings} {d : Toml.Document}
    (hread : t.read path = .ok text) (hparse : Toml.Document.parse? text = some d)
    (hwrite : t.write path (s.updated d).text = .ok t') :
    s.updateFile Tree.system path t = (.ok (), t') := by
  have hupdate : s.update text = .ok (s.updated d).text := by
    rw [update, hparse]
    rfl
  simp [updateFile, Tree.system, Tree.updating, bind, StateT.bind, StateM.pure_apply,
    Tree.has_of_read hread, hread, hupdate, hwrite, Except.mapError]

theorem save_eq (s : Settings) (path : String) (t : Tree) :
    s.save Tree.system path t =
      match t.write path s.text with
      | .ok t' => (.ok (), t')
      | .error f => (.error (ioFailure f), t) := by
  cases hwrite : t.write path s.text <;>
    simp [save, Tree.system, Tree.updating, bind, StateT.bind, StateM.pure_apply, hwrite,
      Except.mapError]

end Settings

/-- **Printing a document and reading it again gives the same values.** -/
def Toml.Document.Reprints (d : Toml.Document) : Prop :=
  ∃ d', Toml.Document.parse? d.text = some d' ∧ ∀ address, d'.at? address = d.at? address

/-- A document with an outline whose sections are in order: that it is printed and read again can be
seen by doing so. -/
theorem Toml.Document.Reprints.of_outline? {d : Toml.Document} {o : Toml.Outline}
    (h : d.outline? = some o)
    (hsorted : (d.unsorted.map Toml.Section.position).Pairwise (· ≤ ·))
    (hprint : (Toml.parseChars? (Toml.sectionsText true d.unsorted ++ Toml.raw d.trailing)).bind
      Toml.Document.outline? = some o) : d.Reprints := by
  obtain ⟨d', hparse, h'⟩ := Option.bind_eq_some_iff.1 hprint
  rw [← sections_eq_unsorted hsorted, ← Toml.parse?_ofList] at hparse
  exact ⟨d', hparse, fun address => by rw [at?_of_outline? h, at?_of_outline? h']⟩

theorem runInit_eq (i : Invocation) (extension : Option String) (update : Bool) (t : Tree) :
    runInit i extension update Tree.system t =
      if t.has i.config && !update then
        (.error (.usage (i.config ++ " already exists, pass --update to merge into it")), t)
      else
        match Settings.load Tree.system i.config t with
        | (.error f, t) => (.error f, t)
        | (.ok s, t') =>
          storeSettings i (i.overrule extension s) (t.has i.config) Tree.system t' := by
  have hhas : Tree.system.has i.config t = (t.has i.config, t) := rfl
  have hsettings : i.settings Tree.system t =
      ((Settings.load Tree.system i.config t).1.map fun s =>
        s.withFolders i.migrations i.output i.moveTo, (Settings.load Tree.system i.config t).2) := rfl
  simp only [runInit, bind, StateT.bind, hhas]
  split
  · rfl
  · simp only [StateT.bind, hsettings]
    rcases Settings.load Tree.system i.config t with ⟨_ | _, _⟩ <;> rfl

theorem storeSettings_of_file {i : Invocation} {s : Settings}
    (h : s.updateFile Tree.system i.config t = (.ok (), t')) :
    storeSettings i s true Tree.system t = (.ok ["✓ Updated " ++ i.config], t') := by
  change (((s.updateFile Tree.system i.config t).1.map fun _ => ["✓ Updated " ++ i.config]),
    (s.updateFile Tree.system i.config t).2) = _
  rw [h]
  rfl

theorem storeSettings_of_none (i : Invocation) (s : Settings) (t : Tree) :
    storeSettings i s false Tree.system t =
      match t.write i.config s.text with
      | .ok t' => (.ok ["✓ Created " ++ i.config], t')
      | .error f => (.error (.io f.message), t) := by
  change (((s.save Tree.system i.config t).1.map fun _ => ["✓ Created " ++ i.config]),
    (s.save Tree.system i.config t).2) = _
  rw [Settings.save_eq]
  cases t.write i.config s.text <;> rfl

section Init

variable {i : Invocation} {extension : Option String} {update : Bool}

/-- A file that is there is not touched unless that is asked for. -/
theorem runInit_of_has (hhas : t.has i.config = true) :
    runInit i extension false Tree.system t =
      (.error (.usage (i.config ++ " already exists, pass --update to merge into it")), t) := by
  rw [runInit_eq, hhas]
  rfl

/-- A file from which no settings can be loaded is not touched at all. -/
theorem runInit_of_not_loads
    (h : ¬∃ s, Settings.load Tree.system i.config t = (.ok s, t)) :
    ∃ f, runInit i extension update Tree.system t = (.error f, t) := by
  obtain ⟨f, hload⟩ := (Settings.load_cases t i.config).resolve_left h
  rw [runInit_eq, hload]
  split
  · exact ⟨_, rfl⟩
  · exact ⟨f, rfl⟩

/-- **An update stores the settings** and keeps everything else. -/
theorem runInit_updates {d : Toml.Document} {s : Settings} (hhas : t.has i.config = true)
    (hfile : Settings.FileHolds t i.config d)
    (hload : Settings.load Tree.system i.config t = (.ok s, t))
    (hprint : ((i.overrule extension s).updated d).Reprints) :
    ∃ t' d', runInit i extension true Tree.system t = (.ok ["✓ Updated " ++ i.config], t') ∧
      Settings.FileHolds t' i.config d' ∧
      Settings.load Tree.system i.config t' = (.ok (i.overrule extension s), t') ∧
      ∀ address, Settings.IsOther d address → d'.at? address = d.at? address := by
  cases hfile with
  | missing hnone => simp [hnone] at hhas
  | @document text d _ hread hparse =>
    obtain ⟨d', hparse', hsame⟩ := hprint
    -- The one write comes last, and where a file was read a file can be written.
    obtain ⟨t', hwrite⟩ := Tree.exists_write_of_read hread
      ((i.overrule extension s).updated d).text
    have hread' := Tree.read_of_write hwrite
    have hfile' := Settings.FileHolds.document (Tree.has_of_read hread') hread' hparse'
    refine ⟨t', d', ?_, hfile', Settings.load_eq_ok_iff.2 ⟨d', hfile', ?_⟩, fun address h => ?_⟩
    · rw [runInit_eq, hhas, hload]
      exact storeSettings_of_file (Settings.updateFile_eq_ok hread hparse hwrite)
    · rw [Settings.ofDocument?_congr hsame, Settings.ofDocument?_updated]
    · rw [hsame, Settings.at?_updated_of_isOther _ h]

/-- **A new file has the settings** that a command line makes of the usual ones. -/
theorem runInit_creates (hhas : t.has i.config = false) :
    match t.write i.config (i.overrule extension {}).text with
    | .error f => runInit i extension update Tree.system t = (.error (.io f.message), t)
    | .ok t' => runInit i extension update Tree.system t = (.ok ["✓ Created " ++ i.config], t') ∧
        Settings.load Tree.system i.config t' = (.ok (i.overrule extension {}), t') := by
  have hload := Settings.load_eq_ok_iff.2
    ⟨{}, Settings.FileHolds.missing hhas, Settings.ofDocument?_empty⟩
  have hrun : runInit i extension update Tree.system t =
      storeSettings i (i.overrule extension {}) false Tree.system t := by
    rw [runInit_eq, hhas, hload]
    rfl
  rw [hrun, storeSettings_of_none]
  cases hwrite : t.write i.config (i.overrule extension {}).text with
  | error f => rfl
  | ok t' =>
    refine ⟨rfl, ?_⟩
    have hread' := Tree.read_of_write hwrite
    obtain ⟨d', hparse', hd'⟩ :=
      Settings.parse_eq_ok_iff.1 (Settings.parse_text (i.overrule extension {}))
    exact Settings.load_eq_ok_iff.2
      ⟨d', .document (Tree.has_of_read hread') hread' hparse', hd'⟩

end Init

/-- **A command that starts a settings file never damages one.** -/
theorem init_keeps_settings (i : Invocation) (extension : Option String) (update : Bool) (t : Tree) :
    (t.has i.config = true → update = false →
      ∃ f, runInit i extension update Tree.system t = (.error f, t)) ∧
    ((¬∃ s, Settings.load Tree.system i.config t = (.ok s, t)) →
      ∃ f, runInit i extension update Tree.system t = (.error f, t)) ∧
    (∀ d s, t.has i.config = true → update = true → Settings.FileHolds t i.config d →
      Settings.load Tree.system i.config t = (.ok s, t) →
      ((i.overrule extension s).updated d).Reprints →
      ∃ t' d', runInit i extension update Tree.system t = (.ok ["✓ Updated " ++ i.config], t') ∧
        Settings.FileHolds t' i.config d' ∧
        Settings.load Tree.system i.config t' = (.ok (i.overrule extension s), t') ∧
        ∀ address, Settings.IsOther d address → d'.at? address = d.at? address) ∧
    (t.has i.config = false →
      match t.write i.config (i.overrule extension {}).text with
      | .error f => runInit i extension update Tree.system t = (.error (.io f.message), t)
      | .ok t' => runInit i extension update Tree.system t = (.ok ["✓ Created " ++ i.config], t') ∧
          Settings.load Tree.system i.config t' = (.ok (i.overrule extension {}), t')) := by
  refine ⟨?_, runInit_of_not_loads, ?_, runInit_creates⟩
  · rintro hhas rfl
    exact ⟨_, runInit_of_has hhas⟩
  · rintro d s hhas rfl hfile hload hprint
    exact runInit_updates hhas hfile hload hprint

/-! ### A settings file with more than settings -/

/-- A settings file with remarks, with a key that is no setting and with a section that is none. -/
def annotatedText : String :=
  "# squasher settings\n[paths]\nmigrations = \"old\" # legacy\nextra = 1\n\n[other]\nkey = true\n"

/-- What is in that file. -/
def annotatedOutline : Toml.Outline :=
  [("paths", [("migrations", .text "old"), ("extra", .literal .integer ['1'])]),
   ("other", [("key", .flag true)])]

/-- What is in that file after the update. -/
def updatedOutline : Toml.Outline :=
  [("paths", [("migrations", .text "new"), ("extra", .literal .integer ['1']),
    ("output", .text "tests/migrations"), ("move_to", .text "database/migrations")]),
   ("other", [("key", .flag true)]),
   ("output", [("extension", .text "php"), ("snapshot", .flag false)])]

/-- A command line that updates where the migrations are. -/
def updatingLine : Invocation where
  migrations := some "new"
  command := .init none true

theorem read_movableTree (text : String) :
    (movableTree (some text)).has Settings.fileName = true ∧
      (movableTree (some text)).read Settings.fileName = .ok text := by
  simp only [Tree.has, Tree.read, Tree.lookup, Tree.resolve, names_fileName]
  exact ⟨rfl, rfl⟩

theorem reprints_annotatedText {d : Toml.Document}
    (h : Toml.Document.parse? annotatedText = some d) :
    (({ migrations := "new" } : Settings).updated d).Reprints := by
  have hfacts : ∃ d, Toml.Document.parse? annotatedText = some d ∧
      (({ migrations := "new" } : Settings).updated d).outline? = some updatedOutline ∧
      ((({ migrations := "new" } : Settings).updated d).unsorted.map
        Toml.Section.position).Pairwise (· ≤ ·) ∧
      (Toml.parseChars? (Toml.sectionsText true
        (({ migrations := "new" } : Settings).updated d).unsorted ++ Toml.raw d.trailing)).bind
          Toml.Document.outline? = some updatedOutline := by
    decide +kernel
  obtain ⟨d', hparse, houtline, hsorted, hprint⟩ := hfacts
  obtain rfl := Option.some.inj (h.symm.trans hparse)
  exact .of_outline? houtline hsorted hprint

/-- The file is not touched unless that is asked for, and is not touched if it is broken. An update
changes the folder and keeps the rest, and where there is no file, one is made. -/
theorem init_keeps_settings_annotatedText :
    (∃ f, runInit updatingLine none false Tree.system (movableTree (some annotatedText)) =
      (.error f, movableTree (some annotatedText))) ∧
    (∃ f, runInit updatingLine none true Tree.system (movableTree (some "[paths")) =
      (.error f, movableTree (some "[paths"))) ∧
    (∃ t' d', runInit updatingLine none true Tree.system (movableTree (some annotatedText)) =
        (.ok ["✓ Updated squash.toml"], t') ∧
      Settings.FileHolds t' Settings.fileName d' ∧
      Settings.load Tree.system Settings.fileName t' = (.ok { migrations := "new" }, t') ∧
      d'.at? [.key "paths", .key "extra"] = some (.literal .integer ['1']) ∧
      d'.at? [.key "other", .key "key"] = some (.flag true)) ∧
    ∃ t', runInit updatingLine none false Tree.system (movableTree none) =
        (.ok ["✓ Created squash.toml"], t') ∧
      Settings.load Tree.system Settings.fileName t' = (.ok { migrations := "new" }, t') := by
  refine ⟨?_, ?_, ?_, ?_⟩
  · exact (init_keeps_settings updatingLine none false _).1 (read_movableTree annotatedText).1 rfl
  · refine (init_keeps_settings updatingLine none true _).2.1 ?_
    rintro ⟨s, hload⟩
    obtain ⟨d, hfile, -⟩ := Settings.load_eq_ok_iff.1 hload
    obtain ⟨hhas, hread⟩ := read_movableTree "[paths"
    cases hfile with
    | missing hnone => exact absurd (hhas.symm.trans hnone) (by decide)
    | document _ hread' hparse =>
      obtain rfl := Except.ok.inj (hread.symm.trans hread')
      have hbroken : (Toml.Document.parse? "[paths").isNone = true := by decide +kernel
      rw [hparse] at hbroken
      exact Bool.false_ne_true hbroken
  · have hdocument : ∃ d, Toml.Document.parse? annotatedText = some d ∧
        Settings.ofDocument? d = some { migrations := "old" } ∧
        d.outline? = some annotatedOutline := by
      decide +kernel
    obtain ⟨d, hparse, hd, houtline⟩ := hdocument
    obtain ⟨hhas, hread⟩ := read_movableTree annotatedText
    have hfile := Settings.FileHolds.document hhas hread hparse
    obtain ⟨t', d', hrun, hfile', hload, hkept⟩ :=
      (init_keeps_settings updatingLine none true _).2.2.1 d _ hhas rfl hfile
        (Settings.load_eq_ok_iff.2 ⟨d, hfile, hd⟩)
        (reprints_annotatedText hparse)
    have hat := Toml.Document.at?_of_outline? houtline
    have hextra : Settings.IsOther d [.key "paths", .key "extra"] :=
      Or.inr ⟨hat _, by decide⟩
    have hkey : Settings.IsOther d [.key "other", .key "key"] := Or.inl rfl
    exact ⟨t', d', hrun, hfile', hload, (hkept _ hextra).trans (hat _),
      (hkept _ hkey).trans (hat _)⟩
  · have hcreate := (init_keeps_settings updatingLine none false _).2.2.2 has_movableTree.1
    have hwrite : ∃ t', (movableTree none).write Settings.fileName
        ({ migrations := "new" } : Settings).text = .ok t' := by
      simp only [Tree.write, Tree.resolve, names_fileName]
      exact ⟨_, rfl⟩
    obtain ⟨t', hwrite⟩ := hwrite
    change match (movableTree none).write Settings.fileName
      ({ migrations := "new" } : Settings).text with | .error _ => _ | .ok _ => _ at hcreate
    rw [hwrite] at hcreate
    exact ⟨t', hcreate⟩

end SchemaHistory

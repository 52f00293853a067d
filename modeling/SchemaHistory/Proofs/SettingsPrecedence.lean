import SchemaHistory.CommandLine
import SchemaHistory.Proofs.DocumentValues
import SchemaHistory.Proofs.FolderRuns

/-!
# Where settings come from

A folder may be named by the command line and by the settings file. The command line counts first,
then the file, and where neither names a folder it is the usual one
(`SchemaHistory.settings_precedence`). That holds for a file that is missing and for one with any of
the settings in it, by name or in order.

The usual folder for migrations that have been squashed is a fixed one, and not the folder that they
come from. The two are the same where the migrations are in their own usual folder. Elsewhere
migrations are moved by a command that was only told where they are
(`SchemaHistory.movableTree_archives`).
-/

namespace SchemaHistory

open CommandLine Files

namespace Settings

/-- What loading the settings answers. -/
theorem load_eq (t : Tree) (path : String) :
    load Tree.system path t =
      (if t.has path then ((t.read path).mapError ioFailure).bind parse else .ok {}, t) := by
  cases hhas : t.has path with
  | false => simp [load, Tree.system, bind, StateT.bind, StateM.pure_apply, hhas]
  | true =>
    cases hread : t.read path <;>
      simp [load, ofFile, Tree.system, bind, StateT.bind, StateM.pure_apply, hhas, hread,
        Except.mapError, Except.bind]

/-- The **document** of a settings file: the empty one if there is no file. -/
inductive FileHolds (t : Tree) (path : String) : Toml.Document → Prop
  | missing (h : t.has path = false) : FileHolds t path {}
  | document {text : String} {d : Toml.Document} (h : t.has path = true)
      (hread : t.read path = .ok text) (hparse : Toml.Document.parse? text = some d) :
      FileHolds t path d

theorem parse_eq_ok_iff {text : String} {s : Settings} :
    parse text = .ok s ↔ ∃ d, Toml.Document.parse? text = some d ∧ ofDocument? d = some s := by
  rw [← Option.bind_eq_some_iff, parse]
  cases (Toml.Document.parse? text).bind ofDocument? <;> simp

/-- The empty document has no settings, so each has its default. -/
theorem ofDocument?_empty : ofDocument? {} = some {} := rfl

/-- **The settings that are loaded are those in the document** of the file. -/
theorem load_eq_ok_iff {t : Tree} {path : String} {s : Settings} :
    load Tree.system path t = (.ok s, t) ↔ ∃ d, FileHolds t path d ∧ ofDocument? d = some s := by
  rw [load_eq, Prod.mk.injEq, and_iff_left rfl]
  cases hhas : t.has path with
  | false =>
    constructor
    · intro h
      obtain rfl := Except.ok.inj h
      exact ⟨_, .missing hhas, ofDocument?_empty⟩
    · rintro ⟨d, hfile, hd⟩
      cases hfile with
      | missing _ => exact congrArg Except.ok (Option.some.inj hd)
      | document h _ _ => simp [hhas] at h
  | true =>
    rw [if_pos rfl]
    constructor
    · intro h
      cases hread : t.read path with
      | error f => simp [hread, Except.mapError, Except.bind] at h
      | ok text =>
        rw [hread] at h
        obtain ⟨d, hparse, hd⟩ := parse_eq_ok_iff.1 h
        exact ⟨d, .document hhas hread hparse, hd⟩
    · rintro ⟨d, hfile, hd⟩
      cases hfile with
      | missing h => simp [hhas] at h
      | document _ hread hparse =>
        rw [hread]
        exact parse_eq_ok_iff.2 ⟨d, hparse, hd⟩

end Settings

/-! ### The three folders -/

/-- A **folder setting**. -/
inductive FolderSetting
  | migrations
  | output
  | moveTo
  deriving DecidableEq

namespace FolderSetting

/-- The name of the setting in the section with the folders. -/
def name : FolderSetting → String
  | migrations => "migrations"
  | output => "output"
  | moveTo => "move_to"

/-- The place of the setting in a section that is a list. -/
def place : FolderSetting → Nat
  | migrations => 0
  | output => 1
  | moveTo => 2

/-- The folder that is **usual** for the setting. -/
def usual : FolderSetting → String
  | migrations => "database/migrations"
  | output => "tests/migrations"
  | moveTo => "database/migrations"

/-- The folder in the settings. -/
def of (s : Settings) : FolderSetting → String
  | migrations => s.migrations
  | output => s.output
  | moveTo => s.moveTo

/-- The folder on a command line. -/
def onLine? (i : Invocation) : FolderSetting → Option String
  | migrations => i.migrations
  | output => i.output
  | moveTo => i.moveTo

/-- The folder in a document. -/
def inFile? (d : Toml.Document) (f : FolderSetting) : Option String :=
  (Settings.field? d "paths" f.place f.name).bind Toml.Datum.text?

end FolderSetting

/-- A text that is read is what stands there, or the default. -/
theorem Settings.getD_of_textOr? {usual s : String} {v : Option Toml.Datum}
    (h : Settings.textOr? usual v = some s) : s = (v.bind Toml.Datum.text?).getD usual := by
  rcases v with _ | (_ | _ | _ | _ | _) <;> simp_all [Settings.textOr?, Toml.Datum.text?]

/-- What is loaded has the folders of the document, and the usual ones where it has none. -/
theorem FolderSetting.of_ofDocument? {d : Toml.Document} {s : Settings}
    (h : Settings.ofDocument? d = some s) (f : FolderSetting) :
    f.of s = (f.inFile? d).getD f.usual := by
  obtain ⟨-, hmigrations, houtput, hmoveTo, -⟩ := (Settings.ofDocument?_eq_some_iff d s).1 h
  cases f with
  | migrations => exact Settings.getD_of_textOr? hmigrations
  | output => exact Settings.getD_of_textOr? houtput
  | moveTo => exact Settings.getD_of_textOr? hmoveTo

theorem FolderSetting.of_withFolders (s : Settings) (i : Invocation) (f : FolderSetting) :
    f.of (s.withFolders i.migrations i.output i.moveTo) = (f.onLine? i).getD (f.of s) := by
  cases f <;> rfl

/-- What a command line makes of the settings that are loaded. -/
theorem CommandLine.Invocation.settings_eq_ok {i : Invocation} {t : Tree} {s : Settings}
    (h : Settings.load Tree.system i.config t = (.ok s, t)) :
    i.settings Tree.system t = (.ok (s.withFolders i.migrations i.output i.moveTo), t) := by
  change (Except.map _ (Settings.load Tree.system i.config t).1,
    (Settings.load Tree.system i.config t).2) = _
  rw [h]
  rfl

/-- Migrations are moved unless the folder for that is the one that they are in. -/
theorem Settings.archiveTarget?_folders (s : Settings) (date : Date) :
    (s.folders date).archiveTarget? =
      if Path.same s.moveTo s.migrations then none else some s.moveTo :=
  rfl

/-- **Settings by precedence.** If the settings file of a command loads, each of the three folders is
that of the command line, or else that of the file, or else the usual one.

The usual folder for what has been squashed is `database/migrations`, wherever the migrations are.
So if neither the command line nor the file names that folder, nothing is moved exactly if the
migrations are there, and otherwise each migration is moved there. -/
theorem settings_precedence {t : Tree} {i : Invocation} {d : Toml.Document} {s₀ : Settings}
    (hfile : Settings.FileHolds t i.config d) (hloads : Settings.ofDocument? d = some s₀) :
    ∃ s, i.settings Tree.system t = (.ok s, t) ∧
      (∀ f : FolderSetting, f.of s = (f.onLine? i).getD ((f.inFile? d).getD f.usual)) ∧
      (FolderSetting.moveTo.onLine? i = none → FolderSetting.moveTo.inFile? d = none → ∀ date,
        ((s.folders date).archives = false ↔ Path.same "database/migrations" s.migrations = true) ∧
          ∀ name u, (s.folders date).carryOut u (.archive name) =
            if Path.same "database/migrations" s.migrations then .ok u
            else u.move (Path.join s.migrations name) (Path.join "database/migrations" name)) := by
  have hsettings := Invocation.settings_eq_ok (Settings.load_eq_ok_iff.2 ⟨d, hfile, hloads⟩)
  have hfolders : ∀ f : FolderSetting, f.of (s₀.withFolders i.migrations i.output i.moveTo) =
      (f.onLine? i).getD ((f.inFile? d).getD f.usual) := fun f => by
    rw [FolderSetting.of_withFolders, FolderSetting.of_ofDocument? hloads]
  refine ⟨_, hsettings, hfolders, fun hline hnone date => ?_⟩
  have hmoveTo : (s₀.withFolders i.migrations i.output i.moveTo).moveTo = "database/migrations" :=
    (hfolders .moveTo).trans (by rw [hline, hnone]; rfl)
  have htarget := Settings.archiveTarget?_folders
    (s₀.withFolders i.migrations i.output i.moveTo) date
  rw [hmoveTo] at htarget
  rw [Folders.archives, htarget]
  refine ⟨by split <;> simp_all, fun name u => ?_⟩
  rw [Folders.carryOut, htarget]
  cases Path.same "database/migrations" (s₀.withFolders _ _ _).migrations <;> rfl

/-! ### Migrations in another folder -/

/-- A settings file that names a folder for the scripts only. -/
def outputText : String :=
  "[paths]\noutput = \"out\"\n"

/-- A project with a migration in the folder `m`, and with a settings file if a text is given. -/
def movableTree (settings : Option String) : Tree where
  nodes := Dict.ofList ([(["database"], .folder), (["database", "migrations"], .folder),
    (["m"], .folder), (["m", "a.php"], .file (.text ""))] ++
      (settings.map fun text => (["squash.toml"], .file (.text text))).toList)

/-- A command line that says where the migrations are. -/
def movableLine : Invocation where
  migrations := some "m"
  command := .squash false false

theorem names_fileName : Tree.names Settings.fileName = .ok ["squash.toml"] := by
  have hparts : Path.rawParts "squash.toml" = ["squash.toml"] := by decide
  rw [Settings.fileName, Tree.names_of_relative, hparts] <;> decide

theorem has_movableTree :
    (movableTree none).has Settings.fileName = false ∧
      (movableTree (some outputText)).has Settings.fileName = true ∧
        (movableTree (some outputText)).read Settings.fileName = .ok outputText := by
  simp only [Tree.has, Tree.read, Tree.lookup, Tree.resolve, names_fileName]
  decide +kernel

/-- The folders come from the command line, from the file and from nowhere. -/
theorem settings_precedence_outputText : ∃ d s₀ s,
    Settings.FileHolds (movableTree (some outputText)) movableLine.config d ∧
      Settings.ofDocument? d = some s₀ ∧
      movableLine.settings Tree.system (movableTree (some outputText)) =
        (.ok s, movableTree (some outputText)) ∧
      s.migrations = "m" ∧ s.output = "out" ∧ s.moveTo = "database/migrations" := by
  have hdocument : ∃ d, Toml.Document.parse? outputText = some d ∧
      Settings.ofDocument? d = some { output := "out" } ∧
        FolderSetting.output.inFile? d = some "out" ∧ FolderSetting.moveTo.inFile? d = none := by
    decide +kernel
  obtain ⟨d, hparse, hd, houtput, hmoveTo⟩ := hdocument
  have hfile := Settings.FileHolds.document has_movableTree.2.1 has_movableTree.2.2 hparse
  obtain ⟨s, hs, hfolders, -⟩ := settings_precedence (i := movableLine) hfile hd
  refine ⟨d, _, s, hfile, hd, hs, hfolders .migrations, ?_, ?_⟩
  · exact (hfolders .output).trans (by rw [houtput]; rfl)
  · exact (hfolders .moveTo).trans (by rw [hmoveTo]; rfl)

/-- **A migration is moved although nobody asks for it**: there is no settings file, and the command
line only says where the migrations are. -/
theorem movableTree_archives : ∃ s u,
    movableLine.settings Tree.system (movableTree none) = (.ok s, movableTree none) ∧
      s.moveTo ≠ s.migrations ∧ (s.folders ⟨2024, 1, 1, by decide⟩).archives = true ∧
      (s.folders ⟨2024, 1, 1, by decide⟩).carryOut (movableTree none) (.archive "a.php") = .ok u ∧
      u.node? ["m", "a.php"] = none ∧
        u.node? ["database", "migrations", "a.php"] = some (.file (.text "")) := by
  have hsettings := Invocation.settings_eq_ok (i := movableLine)
    (Settings.load_eq_ok_iff.2 ⟨{}, .missing has_movableTree.1, Settings.ofDocument?_empty⟩)
  have htarget : (({ migrations := "m" } : Settings).folders
      ⟨2024, 1, 1, by decide⟩).archiveTarget? = some "database/migrations" := by decide
  have hparts : Path.rawParts "m/a.php" = ["m", "a.php"] ∧
      Path.rawParts "database/migrations/a.php" = ["database", "migrations", "a.php"] := by
    decide
  have hold : Tree.names "m/a.php" = .ok ["m", "a.php"] := by
    rw [Tree.names_of_relative, hparts.1] <;> decide
  have hnew : Tree.names "database/migrations/a.php" = .ok ["database", "migrations", "a.php"] := by
    rw [Tree.names_of_relative, hparts.2] <;> decide
  refine ⟨_, (movableTree none).relocate ["m", "a.php"] ["database", "migrations", "a.php"],
    hsettings, by decide, ?_, ?_, by decide, by decide⟩
  · exact congrArg Option.isSome htarget
  · have hjoin : Path.join "m" "a.php" = "m/a.php" ∧
        Path.join "database/migrations" "a.php" = "database/migrations/a.php" := by decide
    change Folders.carryOut (({ migrations := "m" } : Settings).folders _) _ _ = _
    rw [Folders.carryOut, htarget]
    change (movableTree none).move (Path.join "m" "a.php")
      (Path.join "database/migrations" "a.php") = _
    rw [hjoin.1, hjoin.2, Tree.move, Tree.contains_nul_of_names_eq_ok hold,
      Tree.contains_nul_of_names_eq_ok hnew, Tree.site, Tree.site, hold, hnew]
    decide

end SchemaHistory

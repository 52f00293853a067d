import SchemaHistory.Folders

/-!
# Settings

What a user can set about a squash. Migrations stay where they are by default, because the folder
into which they are moved is the one that they come from.
-/

namespace SchemaHistory

/-- The **settings** of a squash. -/
structure Settings where
  /-- The folder with the migrations. -/
  migrations : String := "database/migrations"
  /-- The folder for the scripts. -/
  output : String := "tests/migrations"
  /-- The folder into which migrations are moved that have been squashed. -/
  moveTo : String := "database/migrations"
  /-- The extension of the scripts. -/
  extension : String := "php"
  /-- Whether a snapshot of the schema is saved with the scripts. -/
  snapshot : Bool := false
  deriving DecidableEq

namespace Settings

/-- The name that the settings file usually has. -/
def fileName : String :=
  "squash.toml"

/-- The settings with other folders, where they are given. -/
def withFolders (s : Settings) (migrations output moveTo : Option String) : Settings :=
  { s with
    migrations := migrations.getD s.migrations
    output := output.getD s.output
    moveTo := moveTo.getD s.moveTo }

/-- Where the snapshot goes, if there is one. -/
def snapshotPath? (s : Settings) : Option String :=
  if s.snapshot then some (Files.Path.join s.output "schema.json") else none

/-- The folders that the settings name. -/
def folders (s : Settings) (date : Date) : Folders where
  migrations := s.migrations
  output := s.output
  archive := some s.moveTo
  extension := s.extension
  date := date

end Settings

end SchemaHistory

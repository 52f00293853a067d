import SchemaHistory.Replay
import SchemaHistory.Script

/-!
# Stores

A store is where migrations come from and where scripts go. It works in some monad, and each of
its operations may fail with a reason. Everything that a run does to the world goes through these
operations, so a store decides what a run can do and what a reader of the run can see of it.
-/

namespace SchemaHistory

/-- A **store** of migrations and scripts. -/
structure Store (m : Type → Type) where
  /-- All migrations, in the order of their names. -/
  list : m (Except String (List Migration))
  /-- Keeps a script, and says where. -/
  write : Script → m (Except String String)
  /-- Stores a text in a file of its own. -/
  save : String → String → m (Except String Unit)
  /-- Takes a migration out of the way. -/
  archive : String → m (Except String Unit)

end SchemaHistory

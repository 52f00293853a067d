import SchemaHistory.Failure
import SchemaHistory.Schema

/-!
# Creation order

Tables have to be created after the foreign tables that they refer to. The order is found in
passes over the tables that still wait, in creation order: a table is placed as soon as everything
it depends on is placed, be it earlier in the same pass. A pass that places nothing means that no
order exists, because of a cycle or of a foreign table that is missing.
-/

namespace SchemaHistory

namespace Schema

/-- Whether everything that a table depends on has been placed. -/
def isReady (s : Schema) (placed : List String) (name : String) : Bool :=
  match s.table? name with
  | none => true
  | some t => t.dependencies.all placed.contains

/-- One **pass** over the waiting tables: the tables placed so far, with those that the pass adds,
and the tables that still wait. -/
def pass (s : Schema) (placed : List String) : List String → List String × List String
  | [] => (placed, [])
  | name :: rest =>
    if s.isReady placed name then s.pass (placed ++ [name]) rest
    else
      let r := s.pass placed rest
      (r.1, name :: r.2)

/-- The members of a list that were not seen before, each at its first place. -/
def distinctAfter (seen : List String) : List String → List String
  | [] => []
  | a :: rest =>
    if seen.contains a then distinctAfter seen rest else a :: distinctAfter (a :: seen) rest

/-- What a table waits for, given what has been placed. -/
def waiting? (s : Schema) (placed : List String) (name : String) : Option WaitingTable :=
  (s.table? name).map fun t =>
    ⟨t.name, distinctAfter [] (t.dependencies.filter fun d => !placed.contains d)⟩

/-- Passes over the waiting tables until none waits any more or a pass places none. -/
def orderFrom (s : Schema) (placed waiting : List String) : Except Failure (List String) :=
  match waiting with
  | [] => .ok placed
  | name :: rest =>
    let r := s.pass placed (name :: rest)
    if r.2.length < (name :: rest).length then s.orderFrom r.1 r.2
    else .error (.unresolvableOrder (r.2.filterMap (s.waiting? r.1)))
termination_by waiting.length
decreasing_by assumption

/-- The **creation order** of the tables, or what each table waits for that has no place. -/
def order (s : Schema) : Except Failure (List String) :=
  s.orderFrom [] s.tableNames

end Schema

end SchemaHistory

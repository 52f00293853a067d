import SchemaHistory.Proofs.LocalStatements

/-!
# Tables that come and go

A table that a history creates, fills and drops again leaves no trace of its own: its columns,
options and relationships are gone, and no statement about it has touched another table. All that
is left of the episode is what the drop does to the others. They lose their relationships to the
table, and there may be some, since a relationship may refer to a table that does not exist yet.

The episode may begin and end anywhere, within a source or many sources later. So it is stated for
a run of **events** (`SchemaHistory.Event`), which are the statements of sources and the boundaries
between sources. The events of sources lead to the same state as their replay
(`SchemaHistory.Replay.sources_eq_follow`).
-/

namespace SchemaHistory

/-! ### Events -/

/-- An **event** of a replay. -/
inductive Event
  /-- A statement is replayed. -/
  | statement (s : Statement) (l : Location)
  /-- A source ends, and another one begins. -/
  | boundary

/-- The **events** of a source. -/
def Migration.events (m : Migration) : List Event :=
  .boundary :: (m.statements.map fun x => .statement x.1 x.2) ++ [.boundary]

namespace Replay

/-- The state that events lead to, one after the other. -/
def follow (r : Replay) : List Event → Replay
  | [] => r
  | .statement s l :: es => (r.step s l).1.follow es
  | .boundary :: es => { r with current := none }.follow es

variable {r : Replay}

theorem follow_append (r : Replay) (es es' : List Event) :
    r.follow (es ++ es') = (r.follow es).follow es' := by
  induction es generalizing r with
  | nil => rfl
  | cons e es ih =>
    cases e with
    | statement s l => exact ih _
    | boundary => exact ih _

theorem lines_eq_follow {source : String} {n : Nat} {operation b : Bool} {texts : List String}
    (h : (lines source n operation r texts).2 = .ok b) :
    (lines source n operation r texts).1 = r.follow
      ((Statement.ofLines source n r.current.isSome texts).map fun x => .statement x.1 x.2) := by
  induction texts generalizing n operation r with
  | nil => rfl
  | cons text rest ih =>
    cases hrec : Statement.recognize text.toList r.current.isSome ⟨source, n⟩ with
    | error f =>
      simp only [lines, line, hrec] at h
      exact absurd h (by simp)
    | ok s? =>
      cases s? with
      | none =>
        simp only [lines, line, hrec, Bool.or_false, Statement.ofLines] at h ⊢
        exact ih h
      | some s =>
        simp only [lines, line, hrec] at h ⊢
        rcases hstep : r.step s ⟨source, n⟩ with ⟨r', b | _ | f⟩ <;> simp only [hstep] at h ⊢
        · rw [ofLines_of_proceed hrec hstep, List.map_cons, follow, hstep]
          exact ih h
        · have hends : s.endsSource = true := by
            rw [← step_eq_stop_iff r s ⟨source, n⟩, hstep]
          simp only [Statement.ofLines, hrec]
          rw [if_pos hends, List.map_cons, follow, hstep]
          rfl
        · exact absurd h (by simp)

theorem source_eq_follow {m : Migration} {b : Bool} (h : (r.source m).2 = .ok b) :
    (r.source m).1 = r.follow m.events := by
  rw [Migration.events, List.cons_append, follow, follow_append]
  rw [source] at h ⊢
  split at h <;> rename_i heq
  · have hlines := lines_eq_follow (congrArg Prod.snd heq)
    rw [heq] at hlines
    exact congrArg (fun r : Replay => { r with current := none }) hlines
  · exact absurd h (by simp)

/-- **The events of sources lead to the state that their replay leaves**, if none of them fails. -/
theorem sources_eq_follow {ms : List Migration} {names : List String}
    (h : (r.sources ms).2 = .ok names) : (r.sources ms).1 = r.follow (ms.flatMap (·.events)) := by
  induction ms generalizing r names with
  | nil => rfl
  | cons m rest ih =>
    rcases hm : r.source m with ⟨r', f | b⟩
    · rw [sources, hm] at h
      exact absurd h (by simp)
    rw [sources_cons_of_ok hm] at h ⊢
    cases hrest : (r'.sources rest).2 with
    | error f =>
      rw [hrest] at h
      exact absurd h (by simp [Except.map])
    | ok names' =>
      -- The first source ends where the events of the others begin.
      have hfirst := source_eq_follow (congrArg Prod.snd hm)
      rw [hm] at hfirst
      rw [List.flatMap_cons, follow_append, ← hfirst]
      exact ih hrest

end Replay

/-! ### Schemas without a table -/

namespace Schema

/-- The schema **without** a table, and without the relationships to it. -/
def without (s : Schema) (name : String) : Schema :=
  ⟨(s.tables.erase name).mapValues fun _ => withoutReferencesTo name⟩

variable {s : Schema} {name : String}

/-- Dropping a table leaves the schema without it. -/
theorem drop_of_mem (h : name ∈ s.tableNames) : s.drop name = s.without name := by
  obtain ⟨t, ht⟩ := mem_tableNames_iff.1 h
  rw [drop, drop?, ht]
  rfl

theorem drop_of_not_mem (h : name ∉ s.tableNames) : s.drop name = s := by
  rw [drop, drop?, table?_eq_none_iff.2 h]
  rfl

/-- What is stored under the name of a table does not matter without the table. -/
theorem without_storeAll {es : List (String × Table)} (h : ∀ e ∈ es, e.1 = name) :
    (s.storeAll es).without name = s.without name := by
  induction es generalizing s with
  | nil => rfl
  | cons e es ih =>
    obtain ⟨hfirst, hrest⟩ := List.forall_mem_cons.1 h
    refine (ih hrest).trans ?_
    show (⟨((s.tables.insert e.1 e.2).erase name).mapValues _⟩ : Schema) = s.without name
    rw [hfirst, Dict.erase_insert_self]
    rfl

theorem mem_tableNames_storeAll {es : List (String × Table)} :
    name ∈ (s.storeAll es).tableNames ↔ name ∈ s.tableNames ∨ ∃ e ∈ es, e.1 = name := by
  induction es generalizing s with
  | nil => simp [storeAll]
  | cons e es ih =>
    have hinsert : name ∈ (s.setTable e.1 e.2).tableNames ↔ name ∈ s.tableNames ∨ name = e.1 :=
      Dict.mem_keys_insert
    refine (ih (s := s.setTable e.1 e.2)).trans ?_
    simp [hinsert, or_assoc, eq_comm (a := name)]

theorem name_not_mem_without (s : Schema) (name : String) : name ∉ (s.without name).tableNames := by
  simp [tableNames, without, Dict.keys_erase]

/-- Every other table is there, without its relationships to the one that is left out. -/
theorem table?_without {other : String} (hne : other ≠ name) :
    (s.without name).table? other = (s.table? other).map (withoutReferencesTo name) := by
  rw [table?, without, Dict.find?_mapValues, Dict.find?_erase_of_ne _ hne, table?]

/-- A table is left out once. -/
theorem without_without (s : Schema) (name : String) :
    (s.without name).without name = s.without name := by
  have hpruned : ∀ t, withoutReferencesTo name (withoutReferencesTo name t) =
      withoutReferencesTo name t := by
    intro t
    simp [withoutReferencesTo, List.filter_filter]
  rw [without, Dict.erase_eq_self (s.name_not_mem_without name), without]
  simp [Dict.mapValues, Function.comp_def, hpruned]

/-- If there is no such table, only the relationships to it are left out. -/
theorem without_of_not_mem (h : name ∉ s.tableNames) :
    s.without name = ⟨s.tables.mapValues fun _ => withoutReferencesTo name⟩ := by
  rw [without, Dict.erase_eq_self h]

end Schema

/-! ### Runs about one table -/

/-- A statement is **about** a table if it names no other one and is no rename. A call or an
assignment is about whatever table is open. -/
structure Statement.IsAbout (name : String) (s : Statement) : Prop where
  tables : ∀ other ∈ s.tables, other = name
  noRename : ∀ old new, s ≠ renameTable old new

namespace Replay

/-- Beside one table, a state has the schema `rest`. -/
structure Beside (name : String) (rest : Schema) (r : Replay) : Prop where
  /-- No other table is open. -/
  current : ∀ other, r.current = some other → other = name
  /-- All that is left without the table is `rest`. -/
  without : r.schema.without name = rest
  /-- If there is no such table, the relationships to it are gone as well. -/
  gone : name ∉ r.schema.tableNames → r.schema = rest

variable {r : Replay} {name : String} {rest : Schema}

theorem Beside.commit (h : r.Beside name rest) {c : Change} (hc : c.Within [name]) :
    (r.commit c).Beside name rest where
  current other hother := List.mem_singleton.1 (hc.current other hother)
  without := by
    have hstored : ∀ e ∈ c.stored, e.1 = name := fun e he => List.mem_singleton.1 (hc.stored e he)
    exact (Schema.without_storeAll hstored).trans h.without
  gone hgone := by
    -- Whatever is stored is the table itself, so nothing was.
    have hstored : c.stored = [] := by
      refine List.eq_nil_iff_forall_not_mem.2 fun e he => hgone ?_
      exact Schema.mem_tableNames_storeAll.2
        (Or.inr ⟨e, he, List.mem_singleton.1 (hc.stored e he)⟩)
    have hschema : (r.commit c).schema = r.schema := by
      rw [Replay.commit, hstored]
      rfl
    rw [hschema] at hgone ⊢
    exact h.gone hgone

/-- If the table is dropped, then `rest` is left. -/
theorem Beside.drop (h : r.Beside name rest) : r.schema.drop name = rest := by
  by_cases hmem : name ∈ r.schema.tableNames
  · exact (Schema.drop_of_mem hmem).trans h.without
  · exact (Schema.drop_of_not_mem hmem).trans (h.gone hmem)

/-- **A statement about a table changes nothing beside it**, from its first opening on. -/
theorem Beside.step (h : r.Beside name rest) {s : Statement} (hs : s.IsAbout name) (l : Location) :
    (r.step s l).1.Beside name rest := by
  cases hremoves : s.removes with
  | false =>
    have hstays : s.StaysIn [name] :=
      ⟨fun other hother => List.mem_singleton.2 (hs.tables other hother), hremoves⟩
    obtain ⟨c, o, hc, hstep⟩ :=
      local_step (fun other hother => List.mem_singleton.2 (h.current other hother)) hstays l
    have hself : r.step s l = (r.commit c, o) := hstep r (.refl _ r)
    rw [hself]
    exact h.commit hc
  | true =>
    -- It drops the table, be it there or not.
    obtain ⟨table, rfl⟩ : ∃ table, s = .directive .drop table := by
      cases s with
      | renameTable old new => exact absurd rfl (hs.noRename old new)
      | directive verb table =>
        cases verb with
        | drop => exact ⟨table, rfl⟩
        | _ => exact absurd hremoves (by simp [Statement.removes])
      | _ => exact absurd hremoves (by simp [Statement.removes])
    obtain rfl := hs.tables table List.mem_cons_self
    refine ⟨by simp [Replay.step, direct], ?_, fun _ => h.drop⟩
    show (r.schema.drop table).without table = rest
    rw [h.drop, ← h.without, Schema.without_without]

theorem Beside.follow (h : r.Beside name rest) {es : List Event}
    (hes : ∀ s l, .statement s l ∈ es → s.IsAbout name) : (r.follow es).Beside name rest := by
  induction es generalizing r with
  | nil => exact h
  | cons e es ih =>
    have hbehind := fun s l hmem => hes s l (List.mem_cons_of_mem e hmem)
    cases e with
    | statement s l => exact ih (h.step (hes s l List.mem_cons_self) l) hbehind
    | boundary => exact ih ⟨by simp, h.without, h.gone⟩ hbehind

/-- **A table that is opened for the first time and dropped in the end leaves no trace.** Let the
schema have no table of a name, and let a run of events open one, contain none but statements about
it, and end with its drop. Then the schema is the one from before, with the same tables in the same
order, but without the relationships to that table. -/
theorem follow_opened_dropped {r : Replay} {name : String} (habsent : name ∉ r.schema.tableNames)
    {verb : TableVerb} (hverb : verb ≠ .drop) {es : List Event}
    (hes : ∀ s l, .statement s l ∈ es → s.IsAbout name) (l l' : Location) :
    (r.follow (.statement (.directive verb name) l :: es ++
      [.statement (.directive .drop name) l'])).schema =
        ⟨r.schema.tables.mapValues fun _ => Schema.withoutReferencesTo name⟩ := by
  have hopened : (r.step (.directive verb name) l).1 =
      { r with schema := r.schema.openTable name, current := some name } := by
    cases verb with
    | create => rfl
    | alter => rfl
    | drop => exact absurd rfl hverb
  have hfirst : (r.step (.directive verb name) l).1.Beside name (r.schema.without name) := by
    rw [hopened]
    have hstored : ∀ e ∈ [(name, r.schema.tableOrNew name)], e.1 = name := by simp
    refine ⟨fun other hother => (Option.some.inj hother).symm, ?_, fun hgone => absurd ?_ hgone⟩
    · show (r.schema.openTable name).without name = _
      rw [Schema.openTable_eq_setTable]
      exact Schema.without_storeAll hstored
    · exact Schema.mem_tableNames_iff.2 ⟨_, Schema.table?_openTable _ _⟩
  rw [List.cons_append, follow, follow_append]
  exact (hfirst.follow hes).drop.trans (Schema.without_of_not_mem habsent)

/-- A schema in which a table refers to one that does not exist. -/
def sessionUsers : Schema where
  tables := Dict.ofList
    [("users",
        { name := "users"
          relationships := [⟨"session_id", "id", "sessions", none, none⟩,
            ⟨"team_id", "id", "teams", none, none⟩] }),
      ("teams", { name := "teams", engine := some "InnoDB" })]

/-- What happens to `sessions` between its creation and its drop. -/
def sessionEvents : List Event :=
  [.statement (.calls ⟨"$table", [⟨"string", [.string "id"], "'id'", none⟩]⟩) ⟨"a.php", 2⟩,
    .statement (.assignment "engine" "InnoDB") ⟨"a.php", 3⟩,
    .statement .blockClose ⟨"a.php", 4⟩,
    .boundary,
    .statement (.alteration ⟨"sessions", "id", some "token", "int", none, "not null"⟩) ⟨"b.php", 1⟩,
    .statement (.directive .alter "sessions") ⟨"b.php", 2⟩,
    .statement (.calls ⟨"$table", [⟨"dropColumn", [.string "id"], "'id'", none⟩]⟩) ⟨"b.php", 3⟩,
    .boundary]

/-- The users of a dropped table are left without their relationships to it. -/
theorem follow_opened_dropped_sessions :
    "sessions" ∉ sessionUsers.tableNames ∧ TableVerb.create ≠ .drop ∧
      (∀ s l, .statement s l ∈ sessionEvents → s.IsAbout "sessions") ∧
      (({ schema := sessionUsers } : Replay).follow
          (.statement (.directive .create "sessions") ⟨"a.php", 1⟩ :: sessionEvents ++
            [.statement (.directive .drop "sessions") ⟨"c.php", 1⟩])).schema.tables.entries =
        [("users", { name := "users", relationships := [⟨"team_id", "id", "teams", none, none⟩] }),
          ("teams", { name := "teams", engine := some "InnoDB" })] := by
  have habsent : "sessions" ∉ sessionUsers.tableNames := by decide
  have hverb : TableVerb.create ≠ .drop := by decide
  have habout : ∀ s l, .statement s l ∈ sessionEvents → s.IsAbout "sessions" := by
    intro s l h
    simp only [sessionEvents, List.mem_cons, Event.statement.injEq, List.not_mem_nil, reduceCtorEq,
      or_false, false_or] at h
    rcases h with ⟨rfl, -⟩ | ⟨rfl, -⟩ | ⟨rfl, -⟩ | ⟨rfl, -⟩ | ⟨rfl, -⟩ | ⟨rfl, -⟩ <;>
      exact ⟨by simp [Statement.tables], by simp⟩
  refine ⟨habsent, hverb, habout, ?_⟩
  rw [follow_opened_dropped habsent hverb habout]
  decide

end Replay

end SchemaHistory

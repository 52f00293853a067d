import Mathlib.Control.Monad.Basic
import SchemaHistory.Proofs.ReplayableTables
import SchemaHistory.Proofs.ScriptReplay
import SchemaHistory.Proofs.SquashRoundTrip
import SchemaHistory.Proofs.RunSafety

/-!
# The output is acceptable input

The scripts of a plan are replayed without a failure if the tables of the plan are replayable
(`SchemaHistory.Plan.scripts_accepted`). No state has to be known for this: the lines before the
statement that opens the table have no colon and stand outside of any block, the statements between
are harmless, and the lines behind close the block and end the source. So each script is replayed
to its end from every state, and the order of the scripts does not matter.

Without the condition it fails. A type that only SQL has a name for is written as a call of that
name, which no table knows, so the script of a column that was changed to such a type is refused
(`SchemaHistory.Plan.scripts_refused`).
-/

namespace SchemaHistory

open Source Text

namespace Replay

/-! ### Lines that run through -/

/-- Lines **run through** if every replay comes to their end without a failure. -/
def RunThrough (texts : List String) : Prop :=
  ∀ (source : String) (n : Nat) (operation : Bool) (r : Replay),
    ∃ b, (lines source n operation r texts).2 = .ok b

/-- Harmless lines can be put in front of lines that run through. -/
theorem RunThrough.append {texts rest : List String} (h : ∀ text ∈ texts, Harmless text)
    (hrest : RunThrough rest) : RunThrough (texts ++ rest) := by
  induction texts with
  | nil => exact hrest
  | cons text texts ih =>
    intro source n operation r
    have hline := h text List.mem_cons_self r ⟨source, n⟩
    rw [List.cons_append, lines]
    split
    · rename_i r' f heq
      exact absurd (congrArg Prod.snd heq) (hline f)
    · exact ⟨operation, rfl⟩
    · exact ih (fun t ht => h t (List.mem_cons_of_mem text ht)) source (n + 1) _ _

/-- Outside of tables no replay fails on a line without a colon, and it stays outside. -/
theorem line_outside {r : Replay} (hr : r.current = none) {text : String} (h : ':' ∉ text.toList)
    (l : Location) : (∀ f, (r.line text l).2 ≠ .fail f) ∧ (r.line text l).1.current = none := by
  have hread : ∃ o, Statement.recognize text.toList r.current.isSome l = .ok o ∧
      (o = none ∨ o = some .downBoundary ∨ o = some .blockClose ∨
        ∃ a, o = some (.alteration a)) := by
    rw [Statement.recognize, hr, ofClass?_eq_none (noClass_of_not_mem h)]
    split
    · exact ⟨_, rfl, by simp⟩
    split
    · exact ⟨_, rfl, by simp⟩
    split
    · exact ⟨_, rfl, by simp⟩
    · exact ⟨none, rfl, by simp⟩
  obtain ⟨o, ho, rfl | rfl | rfl | ⟨a, rfl⟩⟩ := hread
  · rw [line, ho]
    exact ⟨by simp, hr⟩
  · rw [line, ho]
    exact ⟨by simp [step], hr⟩
  · rw [line, ho]
    exact ⟨by simp [step], rfl⟩
  · rw [line, ho]
    refine ⟨by simp [step], ?_⟩
    simp only [step, alter]
    split
    · exact hr
    · exact hr

/-- Lines without a colon can be put in front of lines that run through, outside of tables. -/
theorem RunThrough.outside {texts rest : List String} (h : ∀ text ∈ texts, ':' ∉ text.toList)
    (hrest : RunThrough rest) {r : Replay} (hr : r.current = none) (source : String) (n : Nat)
    (operation : Bool) : ∃ b, (lines source n operation r (texts ++ rest)).2 = .ok b := by
  induction texts generalizing r n operation with
  | nil => exact hrest source n operation r
  | cons text texts ih =>
    obtain ⟨hline, hcurrent⟩ := line_outside hr (h text List.mem_cons_self) ⟨source, n⟩
    rw [List.cons_append, lines]
    split
    · rename_i r' f heq
      exact absurd (congrArg Prod.snd heq) (hline f)
    · exact ⟨operation, rfl⟩
    · rename_i r' b heq
      rw [heq] at hcurrent
      exact ih (fun t ht => h t (List.mem_cons_of_mem text ht)) hcurrent (n + 1) _

/-- A failure is not undone by more lines. -/
theorem lines_append_of_error {source : String} {n : Nat} {operation : Bool} {r : Replay}
    {texts : List String} {f : Failure} (h : (lines source n operation r texts).2 = .error f)
    (rest : List String) : (lines source n operation r (texts ++ rest)).2 = .error f := by
  induction texts generalizing n operation r with
  | nil => exact absurd h (by simp [lines])
  | cons text texts ih =>
    rw [List.cons_append, lines]
    rw [lines] at h
    split at h
    · exact h
    · exact absurd h (by simp)
    · exact ih h

/-- The failure of the first source ends the replay. -/
theorem sources_eq_error_of_lines {name text : String} {f : Failure}
    (h : (lines name 1 false {} (Source.normalize text)).2 = .error f) (ms : List Migration) :
    (sources {} (⟨name, text⟩ :: ms)).2 = .error f := by
  rcases hlines : lines name 1 false {} (Source.normalize text) with ⟨r, o⟩
  rw [hlines] at h
  obtain rfl : o = .error f := h
  rw [sources, source]
  simp only
  rw [hlines]

/-- Sources that no replay fails on are replayed one after the other. -/
theorem exists_sources_eq_ok {ms : List Migration}
    (h : ∀ m ∈ ms, ∀ r : Replay, ∃ b, (r.source m).2 = .ok b) (r : Replay) :
    ∃ names, (r.sources ms).2 = .ok names := by
  refine exists_sources_eq_ok_iff.2 fun x hx => ?_
  obtain ⟨m, hm, s, rfl⟩ := exists_of_mem_results hx
  exact h m hm s

end Replay

/-! ### The script of a replayable table -/

namespace Table

/-- The lines before the statement that opens the table have no colon. -/
theorem Replayable.noColon_classLines {t : Table} (h : t.Replayable) :
    ∀ line ∈ t.classLines, ':' ∉ line := by
  have hname : ':' ∉ (className t.name).toList := fun hmem =>
    h.noColon (mem_of_mem_className (by decide) (by decide) hmem)
  have hcode : ':' ∉ trimEnd t.classCode.1 := by
    intro hmem
    rcases mem_of_mem_classCode (mem_of_mem_trimEnd hmem) with hmem | hmem
    · exact hname hmem
    · exact absurd hmem (by decide)
  have hfixed : ∀ {s : List Char}, ':' ∉ s → ':' ∉ trimEnd t.classCode.1 ++ s := by
    intro s hs hmem
    rcases List.mem_append.1 hmem with hmem | hmem
    · exact hcode hmem
    · exact hs hmem
  intro line hline
  unfold classLines at hline
  split at hline
  · rw [List.mem_singleton] at hline
    rw [hline]
    exact hfixed (by decide)
  · rw [List.mem_cons, List.mem_singleton] at hline
    rcases hline with hline | hline <;> rw [hline]
    · exact hfixed (by decide)
    · decide

/-- **The script of a replayable table is accepted** by every replay. -/
theorem Replayable.exists_source_eq_ok {t : Table} (h : t.Replayable) (ht : t.Over IsUnbroken)
    (name : String) (r : Replay) : ∃ b, (r.source ⟨name, t.scriptText⟩).2 = .ok b := by
  have hw := h.writable ht
  obtain ⟨rest, hrest⟩ := normalize_scriptText hw.isLine_createText hw.isLine hw.className_inline
  have htail : Replay.RunThrough (["\x7d", ");", "\x7d"] ++
      "public function down() \x7b" :: rest) := by
    intro source n operation s
    rw [lines_tail]
    exact ⟨operation, rfl⟩
  have hstatements := htail.append (h.harmless hw)
  have hcreate : ∀ text ∈ [t.createText], Replay.Harmless text :=
    List.forall_mem_singleton.2 (harmless_createText hw.name)
  have hbody := hstatements.append hcreate
  have hhead : ∀ text ∈ ["<?php use Illuminate\\Database\\Migrations\\Migration;",
      "use Illuminate\\Database\\Schema\\Blueprint;",
      "use Illuminate\\Support\\Facades\\Schema;"] ++ t.classLines.map String.ofList,
      ':' ∉ text.toList := by
    intro text htext
    rcases List.mem_append.1 htext with htext | htext
    · exact (by decide : ∀ text ∈ ["<?php use Illuminate\\Database\\Migrations\\Migration;",
        "use Illuminate\\Database\\Schema\\Blueprint;",
        "use Illuminate\\Support\\Facades\\Schema;"], ':' ∉ text.toList) text htext
    · obtain ⟨line, hline, rfl⟩ := List.mem_map.1 htext
      rw [String.toList_ofList]
      exact h.noColon_classLines line hline
  obtain ⟨b, hb⟩ := Replay.RunThrough.outside hhead hbody (r := { r with current := none }) rfl
    name 1 false
  have hlines : (Replay.lines name 1 false { r with current := none }
      (Source.normalize t.scriptText)).2 = .ok b := by
    rw [hrest, ← List.append_assoc]
    exact hb
  refine ⟨b, ?_⟩
  rw [Replay.source]
  split
  · rename_i r' b' heq
    rw [heq] at hlines
    exact hlines
  · rename_i r' f heq
    rw [heq] at hlines
    exact absurd hlines (by simp)

end Table

/-! ### The scripts of a plan -/

namespace Plan

/-- **The scripts of a plan are accepted** if its tables are replayable: replaying them in creation
order from nothing does not fail. -/
theorem scripts_accepted {ms : List Migration} {p : Plan} (h : ofMigrations ms = .ok p)
    (hp : ∀ t ∈ p.schema.tables.values, t.Replayable) (sourceName : Script → String) :
    ∃ names, (Replay.sources {} (p.schema.scriptMigrations p.order sourceName)).2 = .ok names := by
  have hover : p.schema.Over IsUnbroken := by
    rw [(ofMigrations_eq_ok h).1]
    exact (Replay.unbroken_sources Replay.over_empty ms).schema
  refine Replay.exists_sources_eq_ok (fun m hm r => ?_) {}
  have htext : m.text ∈ (p.order.filterMap p.schema.table?).map Table.scriptText := by
    rw [← Schema.map_text_scriptMigrations p.schema p.order sourceName]
    exact List.mem_map_of_mem hm
  obtain ⟨t, ht, htext⟩ := List.mem_map.1 htext
  obtain ⟨name, -, ht⟩ := List.mem_filterMap.1 ht
  have hentry : (name, t) ∈ p.schema.tables.entries := Dict.find?_eq_some_iff.1 ht
  have hsource := (hp t (List.mem_map_of_mem hentry)).exists_source_eq_ok (hover _ hentry) m.name r
  rwa [htext] at hsource

/-- A source with names that are no words and with a default that calls a function. -/
def teamMates : Migration :=
  ⟨"a.php", "Schema::create('team-mates', function (Blueprint $table) \x7b\n" ++
    "$table->string('first name', 20)->default(DB::raw('now()'));\n\x7d);"⟩

/-- The column that it defines. -/
def firstName : Column where
  type := .builder .string
  name := "first name"
  default := some "DB::raw('now()')"
  parameters := some "20"

/-- The plan for it. -/
def teamMatesPlan : Plan where
  schema := ⟨Dict.ofList
    [("team-mates", { name := "team-mates", columns := Dict.ofList [("first name", firstName)] })]⟩
  order := ["team-mates"]
  diagnostics := []
  schemaSources := ["a.php"]
  sourceCount := 1

/-- The names and texts of this plan can stand in a script. -/
theorem replayable_teamMatesPlan : ∀ t ∈ teamMatesPlan.schema.tables.values, t.Replayable := by
  have hname : ∀ s ∈ ["team-mates", "first name"], Enclosable s := by
    intro s hs
    have hall : ∀ s ∈ ["team-mates", "first name"],
        isQuotable s.toList = true ∧ ∀ c ∈ s.toList, c ≠ ';' ∧ c ≠ '\x7b' := by decide
    exact ⟨(hall s hs).1, (hall s hs).2⟩
  have htext : ∀ s ∈ ["DB::raw('now()')", "20"], Embeddable s := by
    intro s hs
    have hall : ∀ s ∈ ["DB::raw('now()')", "20"], Sealed s.toList ∧
        (∀ c ∈ s.toList, c ≠ ';' ∧ c ≠ '\x7b') ∧
          (Chain.ofClass? "Schema" (tokens s.toList)).isNone = true := by decide +kernel
    obtain ⟨hsealed, hundivided, hnone⟩ := hall s hs
    exact ⟨hsealed, hundivided, Option.isNone_iff_eq_none.1 hnone⟩
  have hcolumn : firstName.Replayable := by
    refine ⟨⟨_, rfl⟩, fun _ => hname _ (by decide), ?_, ?_⟩
    · rintro text htext'
      obtain rfl := Option.some.inj htext'
      exact htext _ (by decide)
    · rintro text htext'
      obtain rfl := Option.some.inj htext'
      exact htext _ (by decide)
  intro t ht
  have hcolon : ':' ∉ "team-mates".toList := by decide
  obtain rfl := List.mem_singleton.1 ht
  refine ⟨hname "team-mates" (by decide), hcolon, by simp, by simp, by simp, by simp, ?_, by simp⟩
  intro c hc
  obtain rfl := List.mem_singleton.1 hc
  exact hcolumn

theorem scripts_accepted_teamMates :
    ofMigrations [teamMates] = .ok teamMatesPlan ∧
      (∀ t ∈ teamMatesPlan.schema.tables.values, t.Replayable) ∧
      ∃ names, (Replay.sources {} (teamMatesPlan.schema.scriptMigrations teamMatesPlan.order
        (·.table))).2 = .ok names := by
  have hplan : ofMigrations [teamMates] = .ok teamMatesPlan := by decide +kernel
  exact ⟨hplan, replayable_teamMatesPlan, scripts_accepted hplan replayable_teamMatesPlan _⟩

/-! ### A script that is refused -/

/-- A source that changes a column to a type without a call. -/
def tinyColumn : Migration :=
  ⟨"a.php", "Schema::create('t', function (Blueprint $table) \x7b\n$table->integer('c');\n\x7d);\n" ++
    "DB::statement('ALTER TABLE t MODIFY COLUMN c TINYINT');"⟩

/-- The table that it leads to. -/
def tinyTable : Table where
  name := "t"
  columns := Dict.ofList [("c", { type := .other "tinyint", name := "c", nullable := true })]

/-- The plan for it. -/
def tinyPlan : Plan where
  schema := ⟨Dict.ofList [("t", tinyTable)]⟩
  order := ["t"]
  diagnostics := []
  schemaSources := ["a.php"]
  sourceCount := 1

/-- **A plan whose script is refused**: its table has a type that only SQL has a name for, and the
script calls the type by that name. -/
theorem scripts_refused :
    ofMigrations [tinyColumn] = .ok tinyPlan ∧
      (Replay.sources {} (tinyPlan.schema.scriptMigrations tinyPlan.order (·.table))).2 =
        .error (.unrecognizedCall "tinyint" ⟨"t", 7⟩) := by
  refine ⟨by decide +kernel, ?_⟩
  have hmigrations : tinyPlan.schema.scriptMigrations tinyPlan.order (·.table) =
      [⟨"t", tinyTable.scriptText⟩] := rfl
  have hcreate : IsLine tinyTable.createText.toList := by
    refine ⟨.of_ends ?_ ?_ ?_, ?_, ?_⟩ <;> decide +kernel
  have hstatements : tinyTable.statements = ["$table->tinyint('c')->nullable();"] := by
    decide +kernel
  have hline : ∀ st ∈ tinyTable.statements, IsLine st.toList := by
    rw [hstatements]
    intro st hst
    obtain rfl := List.mem_singleton.1 hst
    refine ⟨.of_ends ?_ ?_ ?_, ?_, ?_⟩ <;> decide +kernel
  have hclass : ∀ c ∈ (className tinyTable.name).toList, endsLine c = false ∧ c ≠ '\n' := by
    decide +kernel
  obtain ⟨rest, hrest⟩ := Table.normalize_scriptText hcreate hline hclass
  have hlines : tinyTable.classLines.map String.ofList =
      ["class SquashedTTable extends Migration \x7b", "public function up() \x7b"] := by
    decide +kernel
  have hfails : (Replay.lines "t" 1 false {} (["<?php use Illuminate\\Database\\Migrations\\Migration;",
      "use Illuminate\\Database\\Schema\\Blueprint;",
      "use Illuminate\\Support\\Facades\\Schema;"] ++
        (["class SquashedTTable extends Migration \x7b", "public function up() \x7b"] ++
          ([tinyTable.createText] ++ ["$table->tinyint('c')->nullable();"])))).2 =
        .error (.unrecognizedCall "tinyint" ⟨"t", 7⟩) := by
    decide +kernel
  have hscript : (Replay.lines "t" 1 false {} (Source.normalize tinyTable.scriptText)).2 =
      .error (.unrecognizedCall "tinyint" ⟨"t", 7⟩) := by
    rw [hrest, hlines, hstatements]
    have hmore := Replay.lines_append_of_error hfails
      (["\x7d", ");", "\x7d"] ++ "public function down() \x7b" :: rest)
    simpa only [List.append_assoc] using hmore
  rw [hmigrations]
  exact Replay.sources_eq_error_of_lines hscript []

end Plan

end SchemaHistory

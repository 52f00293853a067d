import Mathlib.Control.Monad.Basic
import SchemaHistory.Proofs.InertSources
import SchemaHistory.Proofs.LocalStatements
import SchemaHistory.Proofs.Locations
import SchemaHistory.Proofs.TableBlocks

/-!
# The granularity of a history

The statements that build a table may stand in one block, in two blocks of one source, or in two
sources: where a history is cut does not matter (`SchemaHistory.Replay.sources_alike`). What is
carried from one builder statement to the next is the schema and the open block, and a cut keeps
both.

* A closing brace and the end of a source close the block, and do nothing to the schema.
* The next opener finds the table in the schema, so it opens the block and does nothing else,
  whether it says that it creates the table or that it alters it.
* A statement that fails ends the run. Nothing behind it is replayed, in any cut.

Only the locations differ. So lines are **played** (`SchemaHistory.Replay.play`): they are replayed as
if all of them stood at one location. What is played of two pieces is what is played of the first
one and then of the second one, so the cuts can be compared by equations.
-/

namespace SchemaHistory

/-! ### The lines of a block -/

namespace Statement

/-- Whether a statement **opens** the block of a table. -/
def opensTable (table : String) : Statement → Bool
  | directive .create name | directive .alter name => name == table
  | _ => false

/-- Whether a statement **builds** the table whose block is open. -/
def buildsTable : Statement → Bool
  | calls _ | assignment _ _ => true
  | _ => false

/-- A line **reads as** a kind of statement if it is recognised as one inside a block. -/
def ReadsAs (kind : Statement → Bool) (text : String) : Prop :=
  ∃ s l, recognize text.toList true l = .ok (some s) ∧ kind s = true

/-- What a line reads as can be checked at any location. -/
theorem ReadsAs.of_recognize {kind : Statement → Bool} {text : String} {l : Location}
    (h : (recognize text.toList true l).toOption.join.any kind = true) : ReadsAs kind text := by
  cases hread : recognize text.toList true l with
  | error f => exact absurd h (by simp [hread, Except.toOption])
  | ok s? =>
    rw [hread] at h
    cases s? with
    | none => exact absurd h (by simp [Except.toOption])
    | some s => exact ⟨s, l, hread, h⟩

/-- A directive is recognised outside of blocks as well. -/
theorem recognize_directive {line : List Char} {l : Location} {verb : TableVerb} {table : String}
    (h : recognize line true l = .ok (some (directive verb table))) (inTable : Bool) :
    recognize line inTable l = .ok (some (directive verb table)) := by
  cases inTable with
  | true => exact h
  | false =>
    rw [recognize] at h ⊢
    by_cases hdown : opensDown line = true
    · rwa [if_pos hdown] at h ⊢
    by_cases hclose : line.contains '\x7d' = true
    · rwa [if_neg hdown, if_pos hclose] at h ⊢
    rw [if_neg hdown, if_neg hclose] at h ⊢
    cases hparse : Alteration.parse? line with
    | some a => simpa only [hparse] using h
    | none =>
      cases hclass : Chain.ofClass? "Schema" (Source.tokens line) with
      | some chain => simpa only [hparse, hclass] using h
      | none =>
        -- All that is left for the inside of a block is about a variable.
        simp only [hparse, hclass, if_true] at h
        obtain ⟨c, -, hc⟩ := Option.map_eq_some_iff.1 (Except.ok.inj h)
        cases c <;> exact absurd hc (by simp [ofChained])

end Statement

/-- A **block** of a table, as logical lines: one that opens the table, and those that build it. -/
structure BlockLines (table : String) where
  opener : String
  builders : List String
  opens : Statement.ReadsAs (Statement.opensTable table) opener
  builds : ∀ text ∈ builders, Statement.ReadsAs Statement.buildsTable text

/-- The lines of a block, with the brace that closes it. -/
def BlockLines.lines {table : String} (b : BlockLines table) : List String :=
  b.opener :: (b.builders ++ ["\x7d"])

namespace Replay

variable {r : Replay} {table text : String} {l : Location}

/-! ### Inside the block of a table -/

/-- A replay is **inside** the block of a table of the schema. -/
structure Inside (table : String) (r : Replay) : Prop where
  current : r.current = some table
  mem : table ∈ r.schema.tableNames

theorem inside_direct (table : String) (r : Replay) : (r.direct .create table).Inside table where
  current := rfl
  mem := Schema.mem_tableNames_openTable.2 (Or.inr rfl)

theorem closed_closed (r : Replay) : r.closed.closed = r.closed := rfl

/-- **To close a block and to open it again changes nothing.** -/
theorem Inside.direct_closed (h : r.Inside table) : r.closed.direct .create table = r := by
  simp only [direct, closed, Schema.openTable_of_mem h.mem, ← h.current]

/-- Whatever the opener says, the table is there behind it, and its block is open. -/
theorem line_opener (h : Statement.ReadsAs (Statement.opensTable table) text) (r : Replay)
    (l : Location) : r.line text l = (r.direct .create table, .proceed true) := by
  obtain ⟨s, k, hs, hkind⟩ := h
  cases s with
  | directive verb name =>
    have hread := Statement.recognize_eq_ok l (Statement.recognize_directive hs r.current.isSome)
    rw [line, hread]
    cases verb with
    | create =>
      obtain rfl : name = table := by simpa [Statement.opensTable] using hkind
      rfl
    | alter =>
      obtain rfl : name = table := by simpa [Statement.opensTable] using hkind
      rfl
    | drop => exact absurd hkind (by simp [Statement.opensTable])
  | _ => exact absurd hkind (by simp [Statement.opensTable])

/-- A line that builds the table leaves its block open, and the replay goes on or fails. -/
theorem Inside.line (h : r.Inside table)
    (htext : Statement.ReadsAs Statement.buildsTable text) (l : Location) :
    (r.line text l).1.Inside table ∧ (r.line text l).2 ≠ .stop := by
  obtain ⟨s, k, hs, hkind⟩ := htext
  have hinside : r.current.isSome = true := by rw [h.current]; rfl
  have hground : r.Grounded := by
    intro name hname
    obtain rfl : table = name := Option.some.inj (h.current.symm.trans hname)
    exact h.mem
  have hkeeps : s.keepsBlock = true := by
    cases s <;> first | rfl | exact absurd hkind (by simp [Statement.buildsTable])
  have hcurrent : (r.step s l).1.current = some table := (current_step hkeeps l).trans h.current
  have hends : s.endsSource = false := by
    cases s <;> first | rfl | exact absurd hkind (by simp [Statement.buildsTable])
  rw [Replay.line, hinside, Statement.recognize_eq_ok l hs]
  refine ⟨⟨hcurrent, current_mem_step hground s l hcurrent⟩, fun hstop => ?_⟩
  rw [(step_eq_stop_iff r s l).1 hstop] at hends
  exact absurd hends (by simp)

/-! ### Playing lines -/

/-- A result, and then what follows if it is no failure. -/
def andThen (x : Replay × Option Failure) (next : Replay → Replay × Option Failure) :
    Replay × Option Failure :=
  match x with
  | (r, none) => next r
  | (r, some f) => (r, some f)

theorem andThen_none (r : Replay) (next : Replay → Replay × Option Failure) :
    andThen (r, none) next = next r := rfl

theorem andThen_assoc (x : Replay × Option Failure) (f g : Replay → Replay × Option Failure) :
    andThen (andThen x f) g = andThen x fun r => andThen (f r) g := by
  rcases x with ⟨r, _ | failure⟩ <;> rfl

theorem andThen_congr {x : Replay × Option Failure} {f g : Replay → Replay × Option Failure}
    (h : f x.1 = g x.1) : andThen x f = andThen x g := by
  rcases x with ⟨r, _ | failure⟩
  · exact h
  · rfl

/-- Lines are **played** at a location: each of them is replayed there, until one ends the source
or fails. -/
def play (l : Location) (r : Replay) : List String → Replay × Option Failure
  | [] => (r, none)
  | text :: rest =>
    match r.line text l with
    | (r', .proceed _) => play l r' rest
    | (r', .stop) => (r', none)
    | (r', .fail f) => (r', some f)

theorem Inside.play (h : r.Inside table) {texts : List String}
    (htexts : ∀ text ∈ texts, Statement.ReadsAs Statement.buildsTable text) :
    (r.play l texts).1.Inside table ∧
      ∀ rest, r.play l (texts ++ rest) = andThen (r.play l texts) fun r' => r'.play l rest := by
  induction texts generalizing r with
  | nil => exact ⟨h, fun rest => rfl⟩
  | cons text more ih =>
    obtain ⟨hfirst, hmore⟩ := List.forall_mem_cons.1 htexts
    obtain ⟨hline, hne⟩ := h.line hfirst l
    simp only [List.cons_append, Replay.play]
    rcases heq : r.line text l with ⟨r', b | _ | f⟩ <;> rw [heq] at hline hne
    · exact ih hline hmore
    · exact absurd rfl hne
    · exact ⟨hline, fun rest => rfl⟩

/-- **To play a block** is to open the table, to play the lines that build it, and to close the
block. -/
theorem play_block (b : BlockLines table) (r : Replay) (rest : List String) :
    r.play l (b.lines ++ rest) =
      andThen ((r.direct .create table).play l b.builders) fun r' => r'.closed.play l rest := by
  have hclose : ∀ r' : Replay, r'.play l ("\x7d" :: rest) = r'.closed.play l rest := by
    intro r'
    rw [play, show "\x7d" = String.ofList ['\x7d'] from rfl, line_close]
    rfl
  rw [BlockLines.lines, List.cons_append, play, line_opener b.opens, List.append_assoc]
  simp only
  rw [((inside_direct table r).play b.builds).2]
  simp only [List.singleton_append, hclose]

/-- A source is played like its lines, and no block is open before and after it. -/
def playSource (l : Location) (r : Replay) (m : Migration) : Replay × Option Failure :=
  andThen (r.closed.play l (Source.normalize m.text)) fun r' => (r'.closed, none)

/-- Sources are played until one fails. -/
def playSources (l : Location) (r : Replay) : List Migration → Replay × Option Failure
  | [] => (r, none)
  | m :: rest => andThen (r.playSource l m) fun r' => r'.playSources l rest

/-! ### What is replayed is what is played -/

/-- The failure of a replay, if it has failed. -/
def failure? {α : Type} : Except Failure α → Option Failure
  | .ok _ => none
  | .error f => some f

/-- What a replay leads to, with all failures moved to one location. -/
def movedResult {α : Type} (l : Location) (x : Replay × Except Failure α) :
    Replay × Option Failure :=
  (x.1.moveTo l, (failure? x.2).map (Failure.moveTo l))

theorem movedResult_lines (source : String) (n : Nat) (operation : Bool) (r : Replay)
    (texts : List String) :
    movedResult l (lines source n operation r texts) = (r.moveTo l).play l texts := by
  induction texts generalizing n operation r with
  | nil => rfl
  | cons text rest ih =>
    rw [lines, play, ← moveTo_line ⟨source, n⟩ l]
    rcases r.line text ⟨source, n⟩ with ⟨r', b | _ | f⟩
    · exact ih (n + 1) (operation || b) r'
    · rfl
    · rfl

theorem movedResult_source (r : Replay) (m : Migration) :
    movedResult l (r.source m) = (r.moveTo l).playSource l m := by
  have hclosed : (r.moveTo l).closed = r.closed.moveTo l := rfl
  rw [playSource, hclosed, ← movedResult_lines m.name 1 false, source, closed]
  rcases lines m.name 1 false { r with current := none } (Source.normalize m.text) with
    ⟨r', f | b⟩ <;> rfl

/-- **Where sources stand decides nothing but the locations in what they report.** -/
theorem movedResult_sources (r : Replay) (ms : List Migration) :
    movedResult l (r.sources ms) = (r.moveTo l).playSources l ms := by
  induction ms generalizing r with
  | nil => rfl
  | cons m rest ih =>
    rw [playSources, ← movedResult_source]
    rcases hm : r.source m with ⟨r', f | b⟩
    · rw [sources, hm]
      rfl
    · rw [sources_cons_of_ok hm]
      show _ = (r'.moveTo l).playSources l rest
      rw [← ih]
      rcases r'.sources rest with ⟨r'', f | names⟩ <;> rfl

/-! ### Three cuts of one block -/

section Cuts

variable {b b₁ b₂ : BlockLines table} {whole split first second : Migration}

/-- A source that is one block. -/
theorem playSource_block (h : Source.normalize whole.text = b.lines) (r : Replay) :
    r.playSource l whole =
      andThen ((r.closed.direct .create table).play l b.builders) fun r' => (r'.closed, none) := by
  rw [playSource, h, ← List.append_nil b.lines, play_block, andThen_assoc]
  rfl

/-- A source that is two blocks is played like two sources that are one block each. -/
theorem playSource_two_blocks (hsplit : Source.normalize split.text = b₁.lines ++ b₂.lines)
    (hfirst : Source.normalize first.text = b₁.lines)
    (hsecond : Source.normalize second.text = b₂.lines) (r : Replay) :
    r.playSource l split =
      andThen (r.playSource l first) fun r' => r'.playSource l second := by
  have hnext : ∀ q : Replay, andThen (q.closed.play l b₂.lines) (fun r' => (r'.closed, none)) =
      andThen (q.closed, none) fun r' => r'.playSource l second := by
    intro q
    rw [andThen_none, playSource, hsecond, closed_closed]
  rw [playSource_block hfirst, playSource, hsplit, play_block, andThen_assoc, andThen_assoc]
  exact andThen_congr (hnext _)

/-- It is played like one block with the lines of both. -/
theorem playSource_joined (hb : b.builders = b₁.builders ++ b₂.builders)
    (hwhole : Source.normalize whole.text = b.lines)
    (hfirst : Source.normalize first.text = b₁.lines)
    (hsecond : Source.normalize second.text = b₂.lines) (r : Replay) :
    r.playSource l whole =
      andThen (r.playSource l first) fun r' => r'.playSource l second := by
  -- Inside the block, the second opener finds what it asks for.
  have hnext : ∀ q : Replay, q.Inside table →
      andThen (q.play l b₂.builders) (fun r' => (r'.closed, none)) =
        andThen (q.closed, none) fun r' => r'.playSource l second := by
    intro q hq
    rw [andThen_none, playSource_block hsecond, closed_closed, hq.direct_closed]
  obtain ⟨hinside, happend⟩ := (inside_direct table r.closed).play (l := l) b₁.builds
  rw [playSource_block hwhole, hb, happend, playSource_block hfirst, andThen_assoc, andThen_assoc]
  exact andThen_congr (hnext _ hinside)

end Cuts

/-- Two results are **alike** if they agree in the schema and, but for the locations, in what was
reported and in the failure. -/
structure Alike {α β : Type} (x : Replay × Except Failure α) (y : Replay × Except Failure β) :
    Prop where
  schema : x.1.schema = y.1.schema
  diagnostics : ∀ l, x.1.diagnostics.map (Failure.moveTo l) = y.1.diagnostics.map (Failure.moveTo l)
  failure : ∀ l, (failure? x.2).map (Failure.moveTo l) = (failure? y.2).map (Failure.moveTo l)

theorem alike_of_movedResult {α β : Type} {x : Replay × Except Failure α}
    {y : Replay × Except Failure β} (h : ∀ l, movedResult l x = movedResult l y) : Alike x y where
  schema := congrArg (fun z => z.1.schema) (h default)
  diagnostics l := congrArg (fun z => z.1.diagnostics) (h l)
  failure l := congrArg Prod.snd (h l)

/-- **The granularity of a history does not matter.** From every state, the lines that build a table
lead to the same schema, the same reports and the same failure, whether they stand in one block, in
two blocks of one source or in two sources; and so they do whether the openers create the table or
alter it. -/
theorem sources_alike {b b₁ b₂ : BlockLines table} (hb : b.builders = b₁.builders ++ b₂.builders)
    {whole split first second : Migration} (hwhole : Source.normalize whole.text = b.lines)
    (hsplit : Source.normalize split.text = b₁.lines ++ b₂.lines)
    (hfirst : Source.normalize first.text = b₁.lines)
    (hsecond : Source.normalize second.text = b₂.lines) (r : Replay) :
    Alike (r.sources [split]) (r.sources [whole]) ∧
      Alike (r.sources [first, second]) (r.sources [whole]) := by
  have hone : ∀ l q m, playSources l q [m] = playSource l q m := by
    intro l q m
    rw [playSources]
    rcases playSource l q m with ⟨q', _ | f⟩ <;> rfl
  have htwo : ∀ l q, playSources l q [first, second] = playSource l q whole := by
    intro l q
    rw [playSources, playSource_joined hb hwhole hfirst hsecond]
    exact andThen_congr (hone l _ second)
  refine ⟨alike_of_movedResult fun l => ?_, alike_of_movedResult fun l => ?_⟩
  · rw [movedResult_sources, movedResult_sources, hone, hone,
      playSource_two_blocks hsplit hfirst hsecond, playSource_joined hb hwhole hfirst hsecond]
  · rw [movedResult_sources, movedResult_sources, hone, htwo]

/-! ### A block that is cut in two -/

/-- A block with an index and a call that is not known. -/
def wholeBlock : BlockLines "t" where
  opener := "Schema::table('t', fn() => \x7b"
  builders := ["$table->index('id');", "$table->nothing();"]
  opens := .of_recognize (l := default) (by decide +kernel)
  builds := by
    have hall : ∀ text ∈ ["$table->index('id');", "$table->nothing();"],
        (Statement.recognize text.toList true default).toOption.join.any
          Statement.buildsTable = true := by
      decide +kernel
    exact fun text htext => .of_recognize (hall text htext)

/-- Its first half, in a block that creates the table. -/
def createdHalf : BlockLines "t" where
  opener := "Schema::create('t', fn() => \x7b"
  builders := ["$table->index('id');"]
  opens := .of_recognize (l := default) (by decide +kernel)
  builds text htext := wholeBlock.builds text (List.mem_append_left ["$table->nothing();"] htext)

/-- Its second half. -/
def alteredHalf : BlockLines "t" where
  opener := wholeBlock.opener
  builders := ["$table->nothing();"]
  opens := wholeBlock.opens
  builds text htext :=
    wholeBlock.builds text (List.mem_append_right ["$table->index('id');"] htext)

/-- A migration with given lines. -/
def migrationOf (name : String) (texts : List String) : Migration :=
  ⟨name, "\n".intercalate texts⟩

/-- The three cuts report the index, and fail at the call. -/
theorem sources_alike_halves :
    sources {} [migrationOf "a.php" wholeBlock.lines] =
        ({ schema := ⟨Dict.ofList [("t", { name := "t" })]⟩, current := some "t",
           diagnostics := [.unsupportedOperation "index" "t" ⟨"a.php", 2⟩] },
          .error (.unrecognizedCall "nothing" ⟨"a.php", 3⟩)) ∧
      Alike (sources {} [migrationOf "a.php" (createdHalf.lines ++ alteredHalf.lines)])
        (sources {} [migrationOf "a.php" wholeBlock.lines]) ∧
      Alike (sources {} [migrationOf "a.php" createdHalf.lines,
          migrationOf "b.php" alteredHalf.lines])
        (sources {} [migrationOf "a.php" wholeBlock.lines]) := by
  have hbuilders : wholeBlock.builders = createdHalf.builders ++ alteredHalf.builders := rfl
  refine ⟨by decide +kernel, ?_⟩
  exact sources_alike hbuilders (by decide +kernel) (by decide +kernel) (by decide +kernel)
    (by decide +kernel) {}

end Replay

end SchemaHistory

import SchemaHistory.Proofs.BuilderStatements
import SchemaHistory.Proofs.ConsistentReplays
import SchemaHistory.Proofs.WrittenLines

/-!
# The block of a table

A migration opens a table with a closure, and between the braces of the closure it may branch and
loop. A replay does not match braces: a closing brace ends the block of the table, whichever brace
it closes. So the first inner block decides what becomes of the statements of a block
(`SchemaHistory.TableBlock.call_effect`): those in front of the first closing brace are applied to
the table, and those behind it are passed over.

The blocks are trees (`SchemaHistory.Item`), but a replay sees the **marks** in a row that the tree
is written with: statements, heads of inner blocks and closing braces. Behind some marks the table
is open exactly if no closing brace is among them (`SchemaHistory.Replay.current_through?_marks`).
-/

namespace SchemaHistory

open Source Text

/-! ### Blocks -/

/-- Whether a statement leaves it as it is which table's block is open. -/
def Statement.keepsBlock : Statement → Bool
  | downBoundary | blockClose | renameTable _ _ | directive _ _ => false
  | _ => true

/-- The **head of an inner block**: a text on one logical line, up to the opening brace. It makes
no table directive, so it does not itself open, drop or rename a table. -/
structure InnerHead where
  text : List Char
  line : List Char
  writes : Writes text [line]
  opens : line.getLast? = some '\x7b'
  keeps : ∀ inTable l s, Statement.recognize line inTable l = .ok (some s) → s.keepsBlock = true

/-- An **item** of a block: a builder call, or an inner block of items. -/
inductive Item
  | call (gap : Gap) (s : BuilderCall)
  | block (gap : Gap) (head : InnerHead) (body : List Item) (closing : Gap)

/-- What a block is written with. -/
inductive Mark
  | call (s : BuilderCall)
  | head (h : InnerHead)
  | close

namespace Mark

def text : Mark → List Char
  | call s => s.text
  | head h => h.text
  | close => ['\x7d']

/-- The logical line of a mark. -/
def line : Mark → List Char
  | call s => s.text
  | head h => h.line
  | close => ['\x7d']

end Mark

mutual

/-- The **marks** of an item in a row, each behind its gap. -/
def Item.marks : Item → List (Gap × Mark)
  | .call g s => [(g, .call s)]
  | .block g h body c => (g, .head h) :: (Item.marksOf body ++ [(c, .close)])

/-- The marks of items in a row. -/
def Item.marksOf : List Item → List (Gap × Mark)
  | [] => []
  | item :: items => item.marks ++ Item.marksOf items

end

/-- The text of marks in a row. -/
def Mark.textOf (ms : List (Gap × Mark)) : List Char :=
  ms.flatMap fun m => m.1.val ++ m.2.text

/-- A source with the **block of a table**; what stands behind the block is arbitrary. -/
structure TableBlock where
  before : Preamble
  head : TableHead
  body : List Item
  closing : Gap
  after : List Char

namespace TableBlock

variable (b : TableBlock)

/-- The marks between the braces of the closure. -/
def marks : List (Gap × Mark) :=
  Item.marksOf b.body

/-- The text of the source. -/
def text : String :=
  String.ofList (b.before.text ++ (b.head.text ++ (Mark.textOf b.marks ++
    (b.closing.val ++ '\x7d' :: b.after))))

end TableBlock

/-! ### Lines -/

theorem Mark.writes (m : Mark) : Writes m.text [m.line] := by
  cases m with
  | call s => exact s.isLine.writes
  | head h => exact h.writes
  | close => exact isLine_close.writes

/-- Marks write a line each. -/
theorem Mark.writes_textOf (ms : List (Gap × Mark)) :
    Writes (textOf ms) (ms.map fun m => m.2.line) := by
  induction ms with
  | nil => exact .nil
  | cons m ms ih => exact (m.1.property.append m.2.writes).append ih

/-- **The lines of a source with the block of a table.** -/
theorem TableBlock.normalize_text (b : TableBlock) :
    ∃ rest, Source.normalize b.text = b.before.lines.map String.ofList ++
      (String.ofList b.head.text :: (b.marks.map (fun m => String.ofList m.2.line) ++ rest)) := by
  have hwrites := (b.before.writes.append (b.head.isLine.writes.append
    ((Mark.writes_textOf b.marks).append (b.closing.property.append isLine_close.writes)))) b.after
  refine ⟨(['\x7d'] :: lines b.after).map String.ofList, ?_⟩
  have htext : b.text.toList = b.before.text ++ (b.head.text ++ (Mark.textOf b.marks ++
      (b.closing.val ++ ['\x7d']))) ++ b.after := by
    simp [TableBlock.text, String.toList_ofList]
  rw [Source.normalize, htext, hwrites]
  simp

/-! ### Replays of lines -/

namespace Replay

variable {r : Replay}

/-- A statement that keeps the block keeps the name of the open table. -/
theorem current_step {s : Statement} (h : s.keepsBlock = true) (l : Location) :
    (r.step s l).1.current = r.current := by
  cases s with
  | query verb => rfl
  | alteration a =>
    simp only [step, alter]
    split <;> rfl
  | assignment property value =>
    simp only [step, assign]
    split <;> rfl
  | calls chain =>
    rw [fst_step_calls, current_call]
  | downBoundary => exact absurd h (by decide)
  | blockClose => exact absurd h (by decide)
  | renameTable old new => exact absurd h (by simp [Statement.keepsBlock])
  | directive verb table => exact absurd h (by simp [Statement.keepsBlock])

theorem current_line {text : String} {l : Location}
    (h : ∀ inTable s, Statement.recognize text.toList inTable l = .ok (some s) →
      s.keepsBlock = true) : (r.line text l).1.current = r.current := by
  rw [line]
  split
  · rfl
  · rfl
  · rename_i s hs
    exact current_step (h _ s hs) l

end Replay

/-! ### Replays of marks -/

namespace Mark

theorem opensDown_line (m : Mark) : Statement.opensDown m.line = false := by
  cases m with
  | call s => exact (quiet_chainText s.tame).opensDown_eq
  | close => decide
  | head h =>
    cases hdown : Statement.opensDown h.line with
    | false => exact hdown
    | true =>
      have hread : Statement.recognize h.line false default = .ok (some .downBoundary) := by
        rw [Statement.recognize, if_pos hdown]
      exact absurd (h.keeps _ _ _ hread) (by decide)

end Mark

namespace Replay

variable {r : Replay}

/-- Behind the line of a mark the same table is open, unless the mark is a closing brace. -/
theorem current_line_mark (hopen : r.Grounded) (m : Mark) (l : Location) :
    (m = .close → (r.line (String.ofList m.line) l).1.current = none) ∧
      (m ≠ .close → (r.line (String.ofList m.line) l).1.current = r.current) := by
  cases m with
  | close => exact ⟨fun _ => by rw [Mark.line, line_close], fun h => absurd rfl h⟩
  | head h =>
    refine ⟨fun heq => absurd heq (by simp), fun _ => current_line fun inTable s hs => ?_⟩
    rw [Mark.line, String.toList_ofList] at hs
    exact h.keeps inTable l s hs
  | call s =>
    refine ⟨fun heq => absurd heq (by simp), fun _ => ?_⟩
    cases hname : r.current with
    | none => rw [Mark.line, line_builderCall_outside hname, hname]
    | some name =>
      obtain ⟨t, ht⟩ := Schema.mem_tableNames_iff.1 (hopen name hname)
      rw [Mark.line, line_builderCall hname ht, hname]

/-- **Behind marks the same table is open, unless a closing brace is among them.** -/
theorem current_through?_marks (hopen : r.Grounded) {ms : List (Gap × Mark)} {source : String}
    {n : Nat} {r' : Replay}
    (h : through? source n r (ms.map fun m => String.ofList m.2.line) = some r') :
    (Mark.close ∈ ms.map Prod.snd → r'.current = none) ∧
      (Mark.close ∉ ms.map Prod.snd → r'.current = r.current) := by
  -- A block that is closed stays closed, so the case of a closed block goes along in the induction.
  have hclosed : ∀ {ms : List (Gap × Mark)} {n : Nat} {r : Replay}, r.current = none →
      through? source n r (ms.map fun m => String.ofList m.2.line) = some r' →
        r'.current = none := by
    intro ms n r hnone hthrough
    refine through?_induction (P := fun r => r.current = none) ?_ hthrough hnone
    intro r text l htext hr
    obtain ⟨m, -, rfl⟩ := List.mem_map.1 htext
    have hline := current_line_mark (grounded_of_none hr) m.2 l
    by_cases hm : m.2 = .close
    · exact hline.1 hm
    · rw [hline.2 hm, hr]
  induction ms generalizing n r with
  | nil =>
    obtain rfl := Option.some.inj h
    exact ⟨fun hmem => absurd hmem (by simp), fun _ => rfl⟩
  | cons m ms ih =>
    rw [List.map_cons, through?] at h
    split at h
    · rename_i r₁ op heq
      have hline := current_line_mark hopen m.2 ⟨source, n⟩
      have hopen₁ := hopen.line (String.ofList m.2.line) ⟨source, n⟩
      rw [heq] at hline hopen₁
      obtain ⟨hin, hout⟩ := ih hopen₁ h
      refine ⟨fun hmem => ?_, fun hmem => ?_⟩
      · rcases List.mem_cons.1 hmem with hm | hmem
        · exact hclosed (hline.1 hm.symm) h
        · exact hin hmem
      · rw [List.map_cons, List.mem_cons, not_or] at hmem
        rw [hout hmem.2]
        exact hline.2 fun hm => hmem.1 hm.symm
    · exact absurd h (by simp)

end Replay

/-! ### What becomes of the statements of a block -/

namespace TableBlock

variable (b : TableBlock)

/-- The lines of a source up to a mark in the block of its table. -/
def linesUpTo (ms : List (Gap × Mark)) : List String :=
  b.before.lines.map String.ofList ++
    (String.ofList b.head.text :: ms.map fun m => String.ofList m.2.line)

theorem line_ne_stop_of_mem {ms : List (Gap × Mark)} (r : Replay) (text : String) (l : Location)
    (h : text ∈ b.linesUpTo ms) : (r.line text l).2 ≠ .stop := by
  rw [linesUpTo, List.mem_append, List.mem_cons, List.mem_map (l := ms)] at h
  rcases h with hline | rfl | ⟨m, -, rfl⟩
  · exact b.before.line_ne_stop hline r l
  · rw [Replay.line_head]
    simp
  · refine Replay.line_ne_stop ?_ r l
    rw [String.toList_ofList]
    exact m.2.opensDown_line

/-- **The state in which a replay comes to a mark.** The open table is in the schema; it is the
table of the block if no closing brace stands before the mark, and else there is none. -/
theorem through?_linesUpTo {ms : List (Gap × Mark)} {source : String} {n : Nat} {r r' : Replay}
    (h : Replay.through? source n r (b.linesUpTo ms) = some r') :
    r'.Grounded ∧
      (Mark.close ∈ ms.map Prod.snd → r'.current = none) ∧
        (Mark.close ∉ ms.map Prod.snd → r'.current = some b.head.table) := by
  rw [linesUpTo, Replay.through?_append] at h
  obtain ⟨r₁, -, h⟩ := Option.bind_eq_some_iff.1 h
  rw [Replay.through?, Replay.line_head] at h
  -- The head opens the table, whatever the replay has done before.
  have hopen : Replay.Grounded { r₁ with
      schema := r₁.schema.openTable b.head.table, current := some b.head.table } := by
    intro name hname
    exact Schema.mem_tableNames_openTable.2 (Or.inr (Option.some.inj hname).symm)
  refine ⟨?_, Replay.current_through?_marks hopen h⟩
  exact Replay.through?_induction (P := Replay.Grounded) (fun _ text l _ hr => hr.line text l) h
    hopen

/-- **What becomes of a statement in the block of a table.** A replay of the source fails, or it
comes to the line of the statement. If no closing brace stands between the head of the block and the
statement, the block of the table is open there and the column of the statement is added to the
table; otherwise no block is open, and the statement is passed over. -/
theorem call_effect (r : Replay) (name : String) {ms more : List (Gap × Mark)} {g : Gap}
    {s : BuilderCall} (h : b.marks = ms ++ (g, .call s) :: more) :
    (∃ f, (r.source ⟨name, b.text⟩).2 = .error f) ∨
      ∃ v ∈ r.visitsOf ⟨name, b.text⟩, v.text = String.ofList s.text ∧
        v.location = ⟨name, b.before.lines.length + ms.length + 2⟩ ∧
        (Mark.close ∉ ms.map Prod.snd → v.before.current = some b.head.table ∧
          ∃ t, v.before.schema.table? b.head.table = some t ∧
            v.after = { v.before with
              schema := v.before.schema.setTable b.head.table (t.addColumn s.column) }) ∧
        (Mark.close ∈ ms.map Prod.snd → v.before.current = none ∧ v.after = v.before) := by
  obtain ⟨rest, hrest⟩ := b.normalize_text
  have hlines : Source.normalize b.text = b.linesUpTo ms ++ (String.ofList s.text ::
      (more.map (fun m => String.ofList m.2.line) ++ rest)) := by
    rw [hrest, h, linesUpTo]
    simp [Mark.line]
  rcases Replay.through?_or_fails b.line_ne_stop_of_mem name 1 { r with current := none } with
    ⟨r', hr'⟩ | hfails
  · -- The replay comes to the line of the statement, which is behind all lines up to it.
    right
    refine ⟨⟨r', String.ofList s.text, ⟨name, 1 + (b.linesUpTo ms).length⟩⟩, ?_, rfl, ?_, ?_, ?_⟩
    · rw [Replay.visitsOf, hlines, Replay.visits_append hr', Replay.visits]
      exact List.mem_append_right _ List.mem_cons_self
    · have hlength : (b.linesUpTo ms).length = b.before.lines.length + (ms.length + 1) := by
        simp [linesUpTo]
      have hnumber : 1 + (b.linesUpTo ms).length = b.before.lines.length + ms.length + 2 := by omega
      rw [hnumber]
    · intro hclose
      obtain ⟨hopen, -, hcurrent⟩ := b.through?_linesUpTo hr'
      have htable := hcurrent hclose
      obtain ⟨t, ht⟩ := Schema.mem_tableNames_iff.1 (hopen _ htable)
      refine ⟨htable, t, ht, ?_⟩
      rw [Visit.after, Replay.line_builderCall htable ht]
    · intro hclose
      obtain ⟨-, hcurrent, -⟩ := b.through?_linesUpTo hr'
      refine ⟨hcurrent hclose, ?_⟩
      rw [Visit.after, Replay.line_builderCall_outside (hcurrent hclose)]
  · -- A line up to it fails, and with it the source.
    left
    obtain ⟨f, hf⟩ := hfails false (String.ofList s.text ::
      (more.map (fun m => String.ofList m.2.line) ++ rest))
    rw [← hlines] at hf
    refine ⟨f, ?_⟩
    rw [Replay.source]
    split <;> rename_i heq <;> rw [heq] at hf
    · exact absurd hf (by simp)
    · exact hf

/-! ### A block with an inner block -/

/-- The head of an inner block that asks for a variable. -/
def ifWanted : InnerHead where
  text := "if ($wanted) \x7b".toList
  line := "if ($wanted) \x7b".toList
  writes := by
    refine IsLine.writes ⟨.of_ends ?_ ?_ ?_, ?_, ?_⟩ <;> decide +kernel
  opens := by decide
  keeps := by
    have hquiet : Quiet "if ($wanted) \x7b".toList :=
      .of_run (v := .idle) (u := .idle) (by decide) (by decide) rfl rfl
    have hclass : .doubleColon ∉ kinds "if ($wanted) \x7b".toList :=
      noClass_of_not_mem (by decide)
    have hvariable : (Chained.ofVariable? (tokens "if ($wanted) \x7b".toList)).isNone = true := by
      decide +kernel
    intro inTable l s hs
    rw [Statement.recognize_of_quiet hquiet (by decide) hclass,
      Option.isNone_iff_eq_none.1 hvariable] at hs
    exact absurd hs (by cases inTable <;> simp)

/-- A block with an inner block in front of its last statement. -/
def guardedUsers : TableBlock where
  before := .up
  head := .users
  body :=
    [.block .lineBreak ifWanted [.call .lineBreak .email] .lineBreak,
      .call .lineBreak .nickname]
  closing := .lineBreak
  after := ");\n\x7d\n".toList

/-- The table that the replay of this block leaves. -/
def usersWithEmail : Table where
  name := "users"
  columns := Dict.ofList [("email", { type := .builder .string, name := "email" })]

/-- **A statement that is lost**: it stands in the block, behind an inner block, and the replay
neither applies nor reports it, and does not fail. -/
theorem guardedUsers_loses_nickname :
    ({} : Replay).source ⟨"a.php", guardedUsers.text⟩ =
      ({ schema := ⟨Dict.ofList [("users", usersWithEmail)]⟩, current := none, diagnostics := [] },
        .ok true) := by
  decide +kernel

/-- The replay of this block does not fail. -/
theorem source_guardedUsers :
    (({} : Replay).source ⟨"a.php", guardedUsers.text⟩).2 = .ok true := by
  decide +kernel

/-- The statement in the inner block is applied, and the one behind it is passed over. -/
theorem call_effect_guardedUsers :
    (∃ v ∈ ({} : Replay).visitsOf ⟨"a.php", guardedUsers.text⟩,
      v.text = String.ofList BuilderCall.email.text ∧ v.before.current = some "users" ∧
        ∃ t, v.before.schema.table? "users" = some t ∧
          v.after = { v.before with
            schema := v.before.schema.setTable "users" (t.addColumn BuilderCall.email.column) }) ∧
    ∃ v ∈ ({} : Replay).visitsOf ⟨"a.php", guardedUsers.text⟩,
      v.text = String.ofList BuilderCall.nickname.text ∧ v.before.current = none ∧
        v.after = v.before := by
  have hinner : guardedUsers.marks = [(Gap.lineBreak, Mark.head ifWanted)] ++
      (Gap.lineBreak, Mark.call .email) ::
        [(Gap.lineBreak, Mark.close), (Gap.lineBreak, Mark.call .nickname)] := rfl
  have hbehind : guardedUsers.marks = [(Gap.lineBreak, Mark.head ifWanted),
      (Gap.lineBreak, Mark.call .email), (Gap.lineBreak, Mark.close)] ++
        (Gap.lineBreak, Mark.call .nickname) :: [] := rfl
  have hcomes : ¬∃ f, (({} : Replay).source ⟨"a.php", guardedUsers.text⟩).2 = .error f := by
    rintro ⟨f, hf⟩
    rw [source_guardedUsers] at hf
    exact absurd hf (by simp)
  obtain ⟨v, hv, htext, -, hopen, -⟩ :=
    (guardedUsers.call_effect {} "a.php" hinner).resolve_left hcomes
  obtain ⟨u, hu, hlost, -, -, hclosed⟩ :=
    (guardedUsers.call_effect {} "a.php" hbehind).resolve_left hcomes
  exact ⟨⟨v, hv, htext, hopen (by simp)⟩, u, hu, hlost, hclosed (by simp)⟩

end TableBlock

end SchemaHistory

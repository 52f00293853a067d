import Mathlib.Control.Monad.Basic
import SchemaHistory.Proofs.BuilderStatements
import SchemaHistory.Proofs.HarmlessLines
import SchemaHistory.Proofs.QuoteSeams

/-!
# Defaults that are string literals

The default of a column is stored as it is written. Before the calls of a statement are read,
though, its text is looked at four times: comments are taken out of it, it is cut into logical
lines, and the head of the reverse direction and a raw alteration are looked for on each line. Only
the first of these knows what a string is. So a string literal may hold the marks of comments,
quotes with a backslash before them, parentheses and square brackets, but if a logical line ends in
it, or if it holds one of the two phrases, then the statement around it is not read as one
(`SchemaHistory.isTableStatement_default_iff`).

A literal without these is **neutral**, and where the default of a column is one, the column gets it
word for word, and every statement that follows in the block of the table is applied
(`SchemaHistory.DefaultBlock.default_kept`).
-/

namespace SchemaHistory

open Source Text

/-! ### Neutral texts -/

/-- A text is **neutral** if no logical line ends in it, and if it holds neither the head of the
reverse direction nor a raw alteration. -/
structure Neutral (s : String) : Prop where
  undivided : ∀ c ∈ s.toList, endsLine c = false
  forward : Statement.opensDown s.toList = false
  unaltered : Alteration.parse? s.toList = none

/-- A neutral text without line breaks can be written between quotes if its quotes are escaped. -/
theorem Neutral.quotable {s : String} (h : Neutral s) (hs : isQuotable s.toList = true)
    (hunbroken : ∀ c ∈ s.toList, c ≠ '\n' ∧ c ≠ '\r') : Quotable s where
  quotable := hs
  inline := by
    intro c hc
    obtain ⟨hline, hreturn⟩ := hunbroken c hc
    simp [isInline, h.undivided c hc, hline, hreturn]

/-- The links of a statement that adds a column of strings with a string literal for its default. -/
def defaultLinks (column content : String) : List Link :=
  [⟨"string", literal column⟩, ⟨"default", literal content⟩]

section DefaultStatement

variable {column content : String} (hcolumn : isIdentifier column = true)

include hcolumn

/-- The statement begins the reverse direction, or alters a column, exactly as its literal does. -/
theorem recognized_default (content : String) :
    Statement.opensDown (chainText (defaultLinks column content)) =
        Statement.opensDown content.toList ∧
      Alteration.parse? (chainText (defaultLinks column content)) =
        Alteration.parse? content.toList := by
  have hname : isWord "string".toList = true := by decide
  have hlink : Quiet (Link.text ⟨"string", literal column⟩) :=
    Link.Tame.quiet ⟨hname, (quoted_of_isIdentifier hcolumn).tame⟩
  have hvariable : Quiet tableVariable := quiet_of_not_isBlank (by decide)
  have hcall : Quiet ('-' :: '>' :: ("default".toList ++ ['('])) := quiet_of_not_isBlank (by decide)
  have hend : Quiet [')', ';'] := quiet_of_not_isBlank (by decide)
  -- All but the literal is quiet, so what is found on the line is found in the literal.
  have hfront := hvariable.append (hlink.append hcall)
  have htext : chainText (defaultLinks column content) =
      (tableVariable ++ (Link.text ⟨"string", literal column⟩ ++
        '-' :: '>' :: ("default".toList ++ ['(']))) ++
          '\'' :: (content.toList ++ '\'' :: [')', ';']) := by
    simp [chainText, defaultLinks, Link.text, toList_literal]
  rw [htext]
  exact ⟨Statement.opensDown_quoted hfront hend _, Alteration.parse?_quoted hfront hend _⟩

variable (hcontent : isQuotable content.toList = true)
  (hunbroken : ∀ c ∈ content.toList, c ≠ '\n' ∧ c ≠ '\r')
include hcontent hunbroken

/-- **The statement is read as one statement on the table exactly if its literal is neutral.** -/
theorem isTableStatement_default_iff :
    IsTableStatement (defaultLinks column content) ↔ Neutral content := by
  have hname : Quotable column := (quoted_of_isIdentifier hcolumn).toQuotable
  obtain ⟨hforward, haltered⟩ := recognized_default hcolumn content
  constructor
  · intro h
    refine ⟨fun c hc => ?_, hforward ▸ h.forward, haltered ▸ h.unaltered⟩
    have hinline := h.inline ⟨"default", literal content⟩ (by simp [defaultLinks]) c
      (by simp [toList_literal, hc])
    rw [isInline, Bool.and_eq_true, Bool.and_eq_true] at hinline
    simpa using hinline.1.1
  · intro h
    have hstring : isWord "string".toList = true := by decide
    have hdefault : isWord "default".toList = true := by decide
    -- Each of the two links has a string literal for its arguments.
    have hlinks : ∀ l ∈ defaultLinks column content, isWord l.name.toList = true ∧
        ∃ s, Quotable s ∧ l.inside = literal s := by
      refine List.forall_mem_cons.2 ⟨⟨hstring, column, hname, rfl⟩, ?_⟩
      exact List.forall_mem_singleton.2
        ⟨hdefault, content, h.quotable hcontent hunbroken, rfl⟩
    have hlevel : ∀ l ∈ defaultLinks column content, l.Level := by
      rintro ⟨name, inside⟩ hl
      obtain ⟨hword, s, hs, rfl⟩ := hlinks _ hl
      exact hs.level hword
    refine ⟨hlevel, fun l hl => ?_, hforward ▸ h.forward, haltered ▸ h.unaltered, ?_⟩
    · obtain ⟨-, s, hs, hinside⟩ := hlinks l hl
      rw [hinside]
      exact hs.copyable.inline
    · refine ofClass?_chainText (fun l hl => (hlevel l hl).toProper) fun l hl => ?_
      obtain ⟨-, s, hs, hinside⟩ := hlinks l hl
      rw [hinside]
      exact hs.noCall.1

end DefaultStatement

/-! ### Blocks of builder statements -/

/-- The text of builder statements in a row, each behind its gap. -/
def BuilderStatement.textOf (ss : List (Gap × BuilderStatement)) : List Char :=
  ss.flatMap fun s => s.1.val ++ s.2.text

/-- What builder statements in a row make of a table. -/
def BuilderStatement.applyAll (ss : List (Gap × BuilderStatement)) (t : Table) : Table :=
  ss.foldl (fun t s => s.2.applyTo t) t

namespace BuilderStatement

variable {ss : List (Gap × BuilderStatement)}

theorem writes_textOf (ss : List (Gap × BuilderStatement)) :
    Writes (textOf ss) (ss.map fun s => s.2.text) := by
  induction ss with
  | nil => exact .nil
  | cons s ss ih => exact (s.1.property.append s.2.isStatement.isLine.writes).append ih

/-- A column stays as it is if no statement adds one of its name. -/
theorem find?_applyAll {column : String} (h : ∀ s ∈ ss, s.2.column.name ≠ column) (t : Table) :
    (applyAll ss t).columns.find? column = t.columns.find? column := by
  induction ss generalizing t with
  | nil => rfl
  | cons s ss ih =>
    obtain ⟨hfirst, hrest⟩ := List.forall_mem_cons.1 h
    have hcons : applyAll (s :: ss) t = applyAll ss (s.2.applyTo t) := rfl
    rw [hcons, ih hrest, columns_applyTo, Dict.find?_insert_of_ne _ hfirst.symm]

end BuilderStatement

namespace Replay

variable {r : Replay} {name : String} {t : Table}

/-- **Inside a block, builder statements are applied to the open table one after the other.** -/
theorem through?_builders (hname : r.current = some name) (ht : r.schema.table? name = some t)
    (ss : List (Gap × BuilderStatement)) (source : String) (n : Nat) :
    through? source n r (ss.map fun s => String.ofList s.2.text) =
      some { r with schema := r.schema.setTable name (BuilderStatement.applyAll ss t) } := by
  induction ss generalizing r t n with
  | nil =>
    have hnil : BuilderStatement.applyAll [] t = t := rfl
    rw [List.map_nil, through?, hnil, Schema.setTable_of_table? ht]
  | cons s ss ih =>
    have hrest := ih (r := { r with schema := r.schema.setTable name (s.2.applyTo t) })
      hname (r.schema.table?_setTable name (s.2.applyTo t)) (n + 1)
    rw [List.map_cons, through?, line_builder hname ht]
    simp only
    rw [hrest, Schema.setTable_setTable]
    rfl

/-! ### The end of the forward direction -/

/-- Lines **end the forward direction** if nothing is made of them outside of blocks, up to the head
of the reverse direction if there is one. -/
inductive EndsForward : List String → Prop
  | nil : EndsForward []
  | down {text : String} (h : Statement.opensDown text.toList = true) (rest : List String) :
    EndsForward (text :: rest)
  | idle {text : String} {rest : List String}
    (h : ∀ l, Statement.recognize text.toList false l = .ok none ∨
      Statement.recognize text.toList false l = .ok (some .blockClose))
    (hrest : EndsForward rest) : EndsForward (text :: rest)

theorem lines_of_endsForward {texts : List String} (h : EndsForward texts) (hr : r.current = none)
    (source : String) (n : Nat) (operation : Bool) :
    lines source n operation r texts = (r, .ok operation) := by
  induction h generalizing n operation with
  | nil => rfl
  | @down text hdown rest =>
    have hstop : r.line text ⟨source, n⟩ = (r, .stop) := by
      rw [line, Statement.recognize, if_pos hdown]
      rfl
    rw [lines, hstop]
  | @idle text rest hidle hrest ih =>
    have hinside : r.current.isSome = false := by rw [hr]; rfl
    -- To close a block where none is open changes nothing.
    have hclosed : r.step .blockClose ⟨source, n⟩ = (r, .proceed false) := by
      simp only [step, ← hr]
    have hline : r.line text ⟨source, n⟩ = (r, .proceed false) := by
      rw [line, hinside]
      rcases hidle ⟨source, n⟩ with hread | hread <;> rw [hread]
      exact hclosed
    rw [lines, hline]
    simp only
    rw [ih, Bool.or_false]

end Replay

/-! ### A default in the block of a table -/

/-- A source with the block of a table, of which the first statement gives a column a string literal
for its default, and the others are arbitrary builder statements. What stands behind the block is
arbitrary too. -/
structure DefaultBlock where
  before : Preamble
  head : TableHead
  gap : Gap
  column : String
  /-- What stands between the quotes of the default. -/
  content : String
  statements : List (Gap × BuilderStatement)
  closing : Gap
  after : List Char
  isColumn : isIdentifier column = true
  isContent : isQuotable content.toList = true
  unbroken : ∀ c ∈ content.toList, c ≠ '\n' ∧ c ≠ '\r'

namespace DefaultBlock

variable (b : DefaultBlock)

/-- The text of the source. -/
def text : String :=
  String.ofList (b.before.text ++ (b.head.text ++ (b.gap.val ++
    (chainText (defaultLinks b.column b.content) ++ (BuilderStatement.textOf b.statements ++
      (b.closing.val ++ '\x7d' :: b.after))))))

/-- The column that the first statement is about. -/
def defaulted : Column where
  type := .builder .string
  name := b.column
  default := some (literal b.content)

/-- What the statements of the block make of its table. -/
def applyTo (t : Table) : Table :=
  BuilderStatement.applyAll b.statements (t.addColumn b.defaulted)

/-- The first statement of the block, with a neutral literal. -/
def statement (h : Neutral b.content) : BuilderStatement where
  head := ⟨"string", literal b.column⟩
  modifiers := [⟨"default", literal b.content⟩]
  type := .builder .string
  base := { type := .builder .string, name := b.column }
  isStatement := (isTableStatement_default_iff b.isColumn b.isContent b.unbroken).2 h
  isType := rfl
  isBase := BuilderCall.ofHead_call ⟨"string", .builder .string, b.column, rfl, b.isColumn⟩

variable {b}

/-- **The default is kept word for word.** -/
theorem column_statement (h : Neutral b.content) : (b.statement h).column = b.defaulted := by
  have hraw : (Link.call ⟨"default", literal b.content⟩).rawArgs = literal b.content :=
    Link.rawArgs_call (h.quotable b.isContent b.unbroken).legible
  have hcolumn : (b.statement h).column = { (b.statement h).base with
      default := some (Link.call ⟨"default", literal b.content⟩).rawArgs } := rfl
  rw [hcolumn, hraw]
  rfl

theorem applyTo_statement (h : Neutral b.content) (t : Table) :
    (b.statement h).applyTo t = t.addColumn b.defaulted := by
  have hstring : "string" ≠ "primary" ∧ "string" ≠ "constrained" := by decide
  have hdefault : "default" ≠ "primary" ∧ "default" ≠ "constrained" := by decide
  rw [(b.statement h).applyTo_eq ?_, column_statement]
  exact List.forall_mem_cons.2 ⟨hstring, List.forall_mem_singleton.2 hdefault⟩

variable (b)

/-- The state at the brace that closes the block, if the block begins in the state `r`. -/
def replayed (r : Replay) : Replay :=
  { r with
    schema := r.schema.setTable b.head.table (b.applyTo (r.schema.tableOrNew b.head.table))
    current := some b.head.table }

variable {b}

/-- The lines of the source. -/
theorem normalize_text (h : Neutral b.content) :
    Source.normalize b.text = b.before.lines.map String.ofList ++ (String.ofList b.head.text ::
      (((b.gap, b.statement h) :: b.statements).map (fun s => String.ofList s.2.text) ++
        String.ofList ['\x7d'] :: Source.normalize (String.ofList b.after))) := by
  have hwrites := (b.before.writes.append (b.head.isLine.writes.append
    ((BuilderStatement.writes_textOf ((b.gap, b.statement h) :: b.statements)).append
      (b.closing.property.append isLine_close.writes)))) b.after
  have hfirst : (b.statement h).text = chainText (defaultLinks b.column b.content) := rfl
  have htext : b.text.toList = b.before.text ++ (b.head.text ++
      (BuilderStatement.textOf ((b.gap, b.statement h) :: b.statements) ++
        (b.closing.val ++ ['\x7d']))) ++ b.after := by
    simp [text, BuilderStatement.textOf, hfirst, String.toList_ofList]
  rw [Source.normalize, htext, hwrites, Source.normalize, String.toList_ofList]
  simp

/-- The statements lead from the head of the block to the closing brace. -/
theorem through?_statements (h : Neutral b.content) (r : Replay) (source : String) (n : Nat) :
    Replay.through? source n
        { r with schema := r.schema.openTable b.head.table, current := some b.head.table }
        (((b.gap, b.statement h) :: b.statements).map fun s => String.ofList s.2.text) =
      some (b.replayed r) := by
  have hall : ∀ t, BuilderStatement.applyAll ((b.gap, b.statement h) :: b.statements) t =
      b.applyTo t := by
    intro t
    rw [applyTo, ← applyTo_statement h]
    rfl
  rw [Replay.through?_builders rfl (Schema.table?_openTable _ _), hall, replayed]
  simp only [Schema.setTable_openTable]

/-- **A default that is a neutral literal is kept word for word, and every statement behind it is
applied.** If a replay comes to the head of the block, it comes to the brace that closes it, and
there the table of the block is what the statements have made of it. If nothing more happens in the
source, this is what the source leaves. The column has the default, unless a statement behind it
adds the column once more. -/
theorem default_kept (h : Neutral b.content) {r r₁ : Replay} {name : String}
    (hbefore : Replay.through? name 1 { r with current := none }
      (b.before.lines.map String.ofList) = some r₁) :
    (∃ v ∈ r.visitsOf ⟨name, b.text⟩, v.text = "\x7d" ∧
        v.location = ⟨name, b.before.lines.length + b.statements.length + 3⟩ ∧
        v.before = b.replayed r₁) ∧
      (Replay.EndsForward (Source.normalize (String.ofList b.after)) →
        r.source ⟨name, b.text⟩ = ({ b.replayed r₁ with current := none }, .ok true)) ∧
      ((∀ s ∈ b.statements, s.2.column.name ≠ b.column) →
        ∃ t, (b.replayed r₁).schema.table? b.head.table = some t ∧
          t.columns.find? b.column = some b.defaulted) := by
  refine ⟨?_, fun hend => ?_, fun hother => ?_⟩
  · -- All lines in front of the brace are gone through.
    have hthrough : Replay.through? name 1 { r with current := none }
        (b.before.lines.map String.ofList ++ (String.ofList b.head.text ::
          ((b.gap, b.statement h) :: b.statements).map fun s => String.ofList s.2.text)) =
        some (b.replayed r₁) := by
      rw [Replay.through?_append, hbefore, Option.bind_some, Replay.through?, Replay.line_head]
      exact through?_statements h r₁ name _
    refine ⟨⟨b.replayed r₁, "\x7d", ⟨name, b.before.lines.length + b.statements.length + 3⟩⟩,
      ?_, rfl, rfl, rfl⟩
    rw [Replay.visitsOf, normalize_text h, ← List.cons_append, ← List.append_assoc,
      Replay.visits_append hthrough, Replay.visits]
    refine List.mem_append_right _ (List.mem_cons.2 (Or.inl ?_))
    have hlength : 1 + (b.before.lines.map String.ofList ++ (String.ofList b.head.text ::
        ((b.gap, b.statement h) :: b.statements).map fun s => String.ofList s.2.text)).length =
          b.before.lines.length + b.statements.length + 3 := by
      simp only [List.length_append, List.length_cons, List.length_map]
      omega
    rw [hlength]
  · obtain ⟨op, hop⟩ := Replay.exists_lines_append hbefore
    have hthrough := through?_statements h r₁ name
      (1 + (b.before.lines.map String.ofList).length + 1)
    obtain ⟨op', hop'⟩ := Replay.exists_lines_append hthrough
    -- The head makes the source a schema migration, whatever the lines before it are.
    rw [Replay.source, normalize_text h, hop, Replay.lines, Replay.line_head]
    simp only
    rw [hop', Replay.lines, Replay.line_close]
    simp only
    rw [Replay.lines_of_endsForward hend rfl]
    simp
  · refine ⟨_, Schema.table?_setTable _ _ _, ?_⟩
    rw [applyTo, BuilderStatement.find?_applyAll hother]
    exact Dict.find?_insert_self _ _ _

/-! ### A table with a motto -/

/-- A block in which one more statement stands behind the default. -/
def motto (content : String) (hcontent : isQuotable content.toList = true)
    (hunbroken : ∀ c ∈ content.toList, c ≠ '\n' ∧ c ≠ '\r') : DefaultBlock where
  before := .up
  head := .users
  gap := .lineBreak
  column := "motto"
  content := content
  statements := [(.lineBreak, BuilderCall.nickname.statement)]
  closing := .lineBreak
  after := ");\n\x7d\n".toList
  isColumn := by decide
  isContent := hcontent
  unbroken := hunbroken

/-- A motto with a quote and with the marks of comments. -/
def commentedMotto : DefaultBlock :=
  motto "it\\'s #1 // /* not */ a (comment)" (by decide) (by decide)

/-- The motto is kept, and the statement behind it is applied. -/
theorem default_kept_commentedMotto :
    Neutral commentedMotto.content ∧
      ({} : Replay).source ⟨"a.php", commentedMotto.text⟩ =
        ({ commentedMotto.replayed {} with current := none }, .ok true) ∧
      ∃ t, (commentedMotto.replayed {}).schema.table? "users" = some t ∧
        t.columns.find? "motto" = some
          { type := .builder .string, name := "motto",
            default := some "'it\\'s #1 // /* not */ a (comment)'" } := by
  have hneutral : Neutral commentedMotto.content :=
    ⟨by decide, by decide +kernel, by decide +kernel⟩
  have hbefore : Replay.through? "a.php" 1 { ({} : Replay) with current := none }
      (commentedMotto.before.lines.map String.ofList) = some {} := by
    decide +kernel
  obtain ⟨-, hsource, hcolumn⟩ := commentedMotto.default_kept hneutral hbefore
  refine ⟨hneutral, hsource ?_, hcolumn ?_⟩
  · -- Behind the block stand the rest of the call and the brace of the function.
    have hafter : Source.normalize (String.ofList commentedMotto.after) =
        [String.ofList [')', ';'], String.ofList ['\x7d']] := by
      decide +kernel
    have hquiet : Quiet [')', ';'] := quiet_of_not_isBlank (by decide)
    rw [hafter]
    refine .idle (fun l => Or.inl ?_) (.idle (fun l => Or.inr ?_) .nil)
    · rw [String.toList_ofList]
      exact recognize_silent hquiet ⟨by decide, by decide⟩ l
    · rw [String.toList_ofList, Statement.recognize_close]
  · have hname : BuilderCall.nickname.statement.column.name ≠ "motto" := by decide +kernel
    exact List.forall_mem_singleton.2 hname

/-- A motto with two braces. -/
def bracedMotto : DefaultBlock :=
  motto "\x7b\x7d" (by decide) (by decide)

/-- The table that the replay leaves: the default ends at the first brace, and the statement behind
it is lost. -/
def usersWithTornMotto : Table where
  name := "users"
  columns := Dict.ofList
    [("motto", { type := .builder .string, name := "motto", default := some "'\x7b" })]

/-- **A literal that is torn**: a logical line ends at each of its braces, the second one closes the
block of the table, and nothing is reported. -/
theorem bracedMotto_torn :
    ({} : Replay).source ⟨"a.php", bracedMotto.text⟩ =
      ({ schema := ⟨Dict.ofList [("users", usersWithTornMotto)]⟩, current := none,
         diagnostics := [] }, .ok true) := by
  decide +kernel

end DefaultBlock

end SchemaHistory

import SchemaHistory.Proofs.HeadLines
import SchemaHistory.Proofs.RebuiltTables
import SchemaHistory.Proofs.Visits
import SchemaHistory.Proofs.WrittenLines

/-!
# Statements as migrations write them

The statements of a migration name their tables and columns by identifiers: letters, digits,
underscores and characters beyond ASCII. Two kinds of statements are read here from end to end. A
**head** opens the block of a table (`SchemaHistory.Replay.line_head`), and a **builder statement**
adds a column to the table whose block is open (`SchemaHistory.Replay.line_builder`). The
simplest builder statement is a **builder call**, which names a type and a column
(`SchemaHistory.Replay.line_builderCall`). Outside of a block a statement on a table is passed over.
-/

namespace SchemaHistory

open Source Text

/-! ### Identifiers -/

/-- Whether a character can stand in an identifier. -/
def isIdentifierPart (c : Char) : Bool :=
  isAsciiWordPart c || (decide (0x80 ≤ c.toNat) && !isBlank c)

/-- Whether a string is an **identifier**. -/
def isIdentifier (s : String) : Bool :=
  !s.isEmpty && s.toList.all isIdentifierPart

theorem class_of_isIdentifierPart {c : Char} (h : isIdentifierPart c = true) :
    isInline c = true ∧ c ≠ '\'' ∧ c ≠ '\\' ∧ isBlank c = false := by
  rw [isIdentifierPart, Bool.or_eq_true, Bool.and_eq_true, decide_eq_true_eq,
    Bool.not_eq_true'] at h
  rcases h with h | ⟨h, hblank⟩
  · exact forall_isAsciiWordPart (P := fun c => isInline c = true ∧ c ≠ '\'' ∧ c ≠ '\\' ∧
      isBlank c = false) (by decide) h
  · -- Every character that matters is in ASCII.
    have hne : ∀ d : Char, d.toNat < 0x80 → c ≠ d := by
      rintro d hd rfl
      omega
    have hinline : isInline c = true := by
      simp [isInline, endsLine, hne '\x7b' (by decide), hne ';' (by decide), hne '\x7d' (by decide),
        hne '\n' (by decide), hne '\r' (by decide)]
    exact ⟨hinline, hne _ (by decide), hne _ (by decide), hblank⟩

/-- An identifier is read back as it was written. -/
theorem quoted_of_isIdentifier {s : String} (h : isIdentifier s = true) : Quoted s := by
  rw [isIdentifier, Bool.and_eq_true] at h
  have hclass : ∀ c ∈ s.toList, isInline c = true ∧ c ≠ '\'' ∧ c ≠ '\\' ∧ isBlank c = false :=
    fun c hc => class_of_isIdentifierPart (List.all_eq_true.1 h.2 c hc)
  refine ⟨⟨isQuotable_of_forall fun c hc => ?_, fun c hc => (hclass c hc).1⟩, ?_, ?_⟩
  · exact ⟨(hclass c hc).2.1, (hclass c hc).2.2.1⟩
  · exact fun hc => (hclass _ hc).2.2.1 rfl
  · refine quiet_of_not_isBlank fun c hc => ?_
    simp only [toList_literal, List.mem_cons, List.mem_append, List.not_mem_nil, or_false] at hc
    rcases hc with rfl | hc | rfl
    · decide
    · exact (hclass c hc).2.2.2
    · decide

/-! ### Builder statements -/

theorem isWord_of_ofCall? {call : String} {type : ColumnType}
    (h : ColumnType.ofCall? call = some type) : isWord call.toList = true := by
  rcases ColumnType.eq_of_ofCall? h with ⟨rfl, -⟩ | ⟨rfl, -⟩ | ⟨b, rfl, -⟩
  · decide
  · decide
  · exact b.isWord_name

/-- Links that are read as **one statement on the table**: no link reaches into the next one, and
none of the questions that are asked before about a line has an answer. -/
structure IsTableStatement (ls : List Link) : Prop where
  level : ∀ l ∈ ls, l.Level
  inline : ∀ l ∈ ls, ∀ c ∈ l.inside.toList, isInline c = true
  forward : Statement.opensDown (chainText ls) = false
  unaltered : Alteration.parse? (chainText ls) = none
  classless : Chain.ofClass? "Schema" (tokens (chainText ls)) = none

namespace IsTableStatement

variable {ls : List Link}

theorem of_tame (h : ∀ l ∈ ls, l.Tame) : IsTableStatement ls where
  level l hl := (h l hl).level
  inline l hl := (h l hl).inside.inline
  forward := (quiet_chainText h).opensDown_eq
  unaltered := (quiet_chainText h).parse?_eq
  classless := ofClass?_eq_none (noClass_chainText h)

theorem isLine (h : IsTableStatement ls) : IsLine (chainText ls) :=
  isLine_chainText (fun l hl => (h.level l hl).toProper) h.inline

theorem contains_brace (h : IsTableStatement ls) : (chainText ls).contains '\x7d' = false := by
  have hlast : (chainText ls).getLast? = some ';' := by
    rw [chainText, ← List.append_assoc, List.getLast?_concat]
  have hnot := h.isLine.toTerminated.not_mem_brace (by rw [hlast]; decide)
  simpa using hnot

/-- **Inside a block the statement is the calls of its links.** -/
theorem recognize_inside {k : Link} (h : IsTableStatement (k :: ls)) (l : Location) :
    Statement.recognize (chainText (k :: ls)) true l =
      .ok (some (.calls ⟨"$table", (k :: ls).map Link.call⟩)) := by
  rw [Statement.recognize, h.forward, h.contains_brace, h.unaltered, h.classless]
  simp only [Bool.false_eq_true, if_false, if_true, ofVariable?_chainText h.level]
  rfl

/-- Outside of blocks nothing is made of it. -/
theorem recognize_outside (h : IsTableStatement ls) (l : Location) :
    Statement.recognize (chainText ls) false l = .ok none := by
  rw [Statement.recognize, h.forward, h.contains_brace, h.unaltered, h.classless]
  simp only [Bool.false_eq_true, if_false]

end IsTableStatement

/-- A **builder statement**: a chain of calls on the table of which the first one names the type of
a column, and what is said of the column by its first call. -/
structure BuilderStatement where
  head : Link
  modifiers : List Link
  type : ColumnType
  base : Column
  isStatement : IsTableStatement (head :: modifiers)
  isType : ColumnType.ofCall? head.name = some type
  isBase : ∀ l, Column.ofHead type head.call l = .ok base

namespace BuilderStatement

variable (s : BuilderStatement)

/-- The statement as it is written. -/
def text : List Char :=
  chainText (s.head :: s.modifiers)

/-- The chain that it is read as. -/
def chain : Chain :=
  ⟨"$table", (s.head :: s.modifiers).map Link.call⟩

/-- The column that it adds. -/
def column : Column :=
  s.chain.modifiers.foldl Column.applyModifier s.base

/-- What it makes of a table: the column is added, and the primary key and a foreign key are set if
the modifiers say so. -/
def applyTo (t : Table) : Table :=
  let t :=
    if (s.chain.find? "primary").isSome then { t with primaryKey := some s.column.name } else t
  let t :=
    match Relationship.constrained? s.column s.chain with
    | some r => t.addRelationship r
    | none => t
  t.addColumn s.column

/-- Without the modifiers that do more, only the column is added. -/
theorem applyTo_eq (h : ∀ k ∈ s.head :: s.modifiers, k.name ≠ "primary" ∧ k.name ≠ "constrained")
    (t : Table) : s.applyTo t = t.addColumn s.column := by
  have hfind : ∀ name, (∀ k ∈ s.head :: s.modifiers, k.name ≠ name) →
      s.chain.find? name = none := by
    intro name hname
    refine List.find?_eq_none.2 fun c hc => ?_
    obtain ⟨k, hk, rfl⟩ := List.mem_map.1 hc
    simpa [Link.call, Call.ofTokens] using hname k hk
  rw [applyTo, hfind "primary" fun k hk => (h k hk).1, Relationship.constrained?,
    hfind "constrained" fun k hk => (h k hk).2]
  rfl

/-- Whatever else it does, of the columns it changes only its own. -/
theorem columns_applyTo (t : Table) :
    (s.applyTo t).columns = t.columns.insert s.column.name s.column := by
  rw [applyTo, Table.addColumn]
  cases Relationship.constrained? s.column s.chain with
  | none => by_cases h : (s.chain.find? "primary").isSome = true <;> simp [h]
  | some r =>
    by_cases h : (s.chain.find? "primary").isSome = true <;> simp [h, Table.addRelationship]

/-- **A builder statement succeeds on every table.** -/
theorem apply_eq (t : Table) (key : String) (l : Location) :
    t.apply key s.head.call s.chain l = .ok (s.applyTo t, []) := by
  have hcolumn : Column.ofChain s.type s.chain l = .ok s.column := by
    rw [Column.ofChain]
    simp only [chain, Chain.head?, List.map_cons, List.head?_cons, s.isBase]
    rfl
  have hname : s.head.call.name = s.head.name := rfl
  rw [Table.apply_ofCall? (hname ▸ s.isType), Table.define, hcolumn]
  rfl

end BuilderStatement

namespace Replay

variable {r : Replay}

/-- **Inside a block a builder statement is applied to the open table.** -/
theorem line_builder {name : String} {t : Table} (hname : r.current = some name)
    (ht : r.schema.table? name = some t) (s : BuilderStatement) (l : Location) :
    r.line (String.ofList s.text) l =
      ({ r with schema := r.schema.setTable name (s.applyTo t) }, .proceed false) := by
  have hread : Statement.recognize s.text true l = .ok (some (.calls s.chain)) :=
    s.isStatement.recognize_inside l
  have hhead : s.chain.head? = some s.head.call := rfl
  have hcall := call_inside hname ht hhead l
  have hinside : r.current.isSome = true := by rw [hname]; rfl
  rw [s.apply_eq] at hcall
  rw [line, String.toList_ofList, hinside, hread]
  simp only [step, hcall, report, List.append_nil]

/-- Outside of a block a builder statement is passed over. -/
theorem line_builder_outside (hname : r.current = none) (s : BuilderStatement) (l : Location) :
    r.line (String.ofList s.text) l = (r, .proceed false) := by
  have houtside : r.current.isSome = false := by rw [hname]; rfl
  rw [line, String.toList_ofList, houtside, BuilderStatement.text, s.isStatement.recognize_outside]

end Replay

/-! ### Builder calls -/

/-- A **builder call**: the statement that adds a column with an identifier for its name. -/
structure BuilderCall where
  call : String
  type : ColumnType
  name : String
  isType : ColumnType.ofCall? call = some type
  isName : isIdentifier name = true

namespace BuilderCall

variable (s : BuilderCall)

/-- The only link of the statement. -/
def link : Link :=
  ⟨s.call, literal s.name⟩

/-- The statement as it is written. -/
def text : List Char :=
  chainText [s.link]

/-- The column that the statement adds. A column that is named after its type keeps the argument as
a parameter. -/
def column : Column :=
  if s.type.isStructural then
    { Column.structural s.type with parameters := some (literal s.name) }
  else
    { type := s.type, name := s.name }

theorem tame : ∀ k ∈ [s.link], k.Tame := by
  intro k hk
  obtain rfl := List.mem_singleton.1 hk
  exact ⟨isWord_of_ofCall? s.isType, (quoted_of_isIdentifier s.isName).tame⟩

theorem isLine : IsLine s.text :=
  isLine_of_tame s.tame

theorem ofHead_call (l : Location) : Column.ofHead s.type s.link.call l = .ok s.column := by
  have hquoted := quoted_of_isIdentifier s.isName
  have hlegible : Legible (literal s.name) := hquoted.toQuotable.legible
  have hraw : s.link.call.rawArgs = literal s.name := Link.rawArgs_call hlegible
  have hstring : s.link.call.stringAt? 0 = some s.name := by
    rw [link, (Link.stringAt?_call hquoted.toQuotable).1, contentOf_eq hquoted.escapeFree]
  have htrailing : s.link.call.trailingArgs = none :=
    (Link.trailingArgs_call hquoted.toQuotable).1
  have hnonempty : Column.nonempty? (literal s.name) = some (literal s.name) := by
    rw [Column.nonempty?, if_neg]
    rw [String.isEmpty_iff]
    exact hlegible.nonempty
  rw [Column.ofHead, column, hraw, hstring, htrailing, hnonempty]
  split <;> rfl

/-- A builder call is a builder statement without modifiers. -/
def statement : BuilderStatement where
  head := s.link
  modifiers := []
  type := s.type
  base := s.column
  isStatement := .of_tame s.tame
  isType := s.isType
  isBase := s.ofHead_call

/-- **It only adds its column.** -/
theorem applyTo_statement (t : Table) : s.statement.applyTo t = t.addColumn s.column := by
  -- The names that would make it do more are no names of types.
  have hne : ∀ name, ColumnType.ofCall? name = none → s.call ≠ name := by
    rintro name hname rfl
    exact absurd (s.isType.symm.trans hname) (by simp)
  refine s.statement.applyTo_eq (fun k hk => ?_) t
  obtain rfl := List.mem_singleton.1 hk
  exact ⟨hne "primary" (by decide), hne "constrained" (by decide)⟩

end BuilderCall

namespace Replay

variable {r : Replay}

/-- **Inside a block a builder call adds its column to the open table.** -/
theorem line_builderCall {name : String} {t : Table} (hname : r.current = some name)
    (ht : r.schema.table? name = some t) (s : BuilderCall) (l : Location) :
    r.line (String.ofList s.text) l =
      ({ r with schema := r.schema.setTable name (t.addColumn s.column) }, .proceed false) := by
  rw [← s.applyTo_statement]
  exact line_builder hname ht s.statement l

/-- Outside of a block a builder call is passed over. -/
theorem line_builderCall_outside (hname : r.current = none) (s : BuilderCall) (l : Location) :
    r.line (String.ofList s.text) l = (r, .proceed false) :=
  line_builder_outside hname s.statement l

end Replay

/-! ### Heads -/

/-- The text of a call on the schema class with a closure that begins at the end of the line. -/
def headText (verb : TableVerb) (table closure : String) : List Char :=
  (directiveText verb table (closure ++ "\x7b")).toList

/-- The **head** of a block: a call on the schema class that opens a table, with a closure that
begins at the end of the line. -/
structure TableHead where
  verb : TableVerb
  table : String
  /-- What stands between the comma behind the table and the brace. -/
  closure : String
  opens : verb ≠ .drop
  isTable : isIdentifier table = true
  sealed : Sealed closure.toList
  inline : ∀ c ∈ closure.toList, isInline c = true
  forward : Statement.opensDown (headText verb table closure) = false
  unaltered : Alteration.parse? (headText verb table closure) = none

namespace TableHead

variable (h : TableHead)

/-- The head as it is written. -/
def text : List Char :=
  headText h.verb h.table h.closure

/-- The characters in front of the brace. -/
def stem : List Char :=
  "Schema".toList ++ ':' :: ':' :: (h.verb.callName.toList ++ '(' ::
    ((literal h.table).toList ++ ',' :: h.closure.toList))

theorem text_eq : h.text = h.stem ++ ['\x7b'] := by
  have hbrace : "\x7b".toList = ['\x7b'] := rfl
  rw [text, headText, toList_directiveText, String.toList_append, hbrace]
  delta stem
  rw [toList_literal]
  generalize "Schema".toList = u
  simp only [List.append_assoc, List.cons_append, List.nil_append]

theorem isInline_stem : ∀ c ∈ h.stem, isInline c = true := by
  have hliteral := (quoted_of_isIdentifier h.isTable).tame.inline
  have hschema : ∀ c ∈ "Schema".toList, isInline c = true := by decide
  have hname : ∀ c ∈ h.verb.callName.toList, isInline c = true := by
    cases h.verb <;> decide
  intro c hc
  delta stem at hc
  rw [List.mem_append, List.mem_cons, List.mem_cons, List.mem_append, List.mem_cons,
    List.mem_append, List.mem_cons] at hc
  rcases hc with hc | rfl | rfl | hc | rfl | hc | rfl | hc
  · exact hschema c hc
  · decide
  · decide
  · exact hname c hc
  · decide
  · exact hliteral c hc
  · decide
  · exact h.inline c hc

theorem sealed_text : Sealed h.text := by
  have hschema : ∀ c ∈ "Schema".toList, isInert c = true := by decide
  have hname : ∀ c ∈ h.verb.callName.toList, isInert c = true := by
    cases h.verb <;> decide
  have hclosure : Sealed (h.closure.toList ++ ['\x7b']) :=
    h.sealed.append (by decide) (by simp)
  have hrest : Sealed ((literal h.table).toList ++ ',' :: (h.closure.toList ++ ['\x7b'])) := by
    refine (quoted_of_isIdentifier h.isTable).tame.sealed.append ?_ (by simp)
    exact (Sealed.cons_iff (by decide)).2 hclosure
  rw [text_eq]
  delta stem
  generalize "Schema".toList = u at hschema
  simp only [List.append_assoc, List.cons_append]
  rw [Sealed.append_iff hschema, Sealed.cons_iff (by decide), Sealed.cons_iff (by decide),
    Sealed.append_iff hname, Sealed.cons_iff (by decide)]
  exact hrest

/-- **A head is one line.** -/
theorem isLine : IsLine h.text := by
  have hstart : ∀ c ∈ (h.stem ++ ['\x7b']).head?, isBlank c = false := by
    intro c hc
    delta stem at hc
    obtain rfl : 'S' = c := by simpa using hc
    decide
  have hsealed := h.sealed_text
  -- Only the brace at the end ends a line.
  rw [text_eq] at hsealed ⊢
  exact .of_inline hstart h.isInline_stem (by decide) hsealed

/-- **A head is recognised as the directive on its table**, inside and outside of blocks. -/
theorem recognize (inTable : Bool) (l : Location) :
    Statement.recognize h.text inTable l = .ok (some (.directive h.verb h.table)) := by
  have hquoted := quoted_of_isIdentifier h.isTable
  have hbrace : h.text.contains '\x7d' = false := by
    have hnot := h.isLine.toTerminated.not_mem_brace (by rw [text_eq, List.getLast?_concat]; decide)
    simpa using hnot
  obtain ⟨chain, hchain, hstatement⟩ := ofSchemaChain_directiveText h.verb hquoted.toQuotable
    (h.closure ++ "\x7b") l
  rw [contentOf_eq hquoted.escapeFree] at hstatement
  have hforward : Statement.opensDown h.text = false := h.forward
  have hunaltered : Alteration.parse? h.text = none := h.unaltered
  rw [Statement.recognize, hforward, hbrace, hunaltered]
  simp only [Bool.false_eq_true, if_false]
  rw [text, headText, hchain]
  simp only [hstatement, Except.map]

end TableHead

/-- **A head opens the block of its table.** -/
theorem Replay.line_head (r : Replay) (h : TableHead) (l : Location) :
    r.line (String.ofList h.text) l =
      ({ r with schema := r.schema.openTable h.table, current := some h.table },
        .proceed true) := by
  rw [line, String.toList_ofList, h.recognize]
  simp only [step, direct]
  cases hverb : h.verb with
  | create => rfl
  | alter => rfl
  | drop => exact absurd hverb h.opens

/-! ### Around blocks -/

/-- A text that writes no lines: blanks and comments. -/
def Gap : Type :=
  {g : List Char // Writes g []}

/-- What stands **before a block**: a text that writes lines of its own, of which none begins the
reverse direction. -/
structure Preamble where
  text : List Char
  lines : List (List Char)
  writes : Writes text lines
  forward : ∀ line ∈ lines, Statement.opensDown line = false

theorem Preamble.line_ne_stop (p : Preamble) {line : String}
    (h : line ∈ p.lines.map String.ofList) (r : Replay) (l : Location) :
    (r.line line l).2 ≠ .stop := by
  obtain ⟨u, hu, rfl⟩ := List.mem_map.1 h
  refine Replay.line_ne_stop ?_ r l
  rw [String.toList_ofList]
  exact p.forward u hu

theorem isLine_close : IsLine ['\x7d'] := by
  have hstart : ∀ c ∈ ['\x7d'].head?, isBlank c = false := by
    intro c hc
    obtain rfl : '\x7d' = c := by simpa using hc
    decide
  exact IsLine.of_inline (u := []) hstart (by simp) (by decide) (by decide)

theorem Statement.recognize_close (inTable : Bool) (l : Location) :
    recognize ['\x7d'] inTable l = .ok (some .blockClose) := by
  have hdown : opensDown ['\x7d'] = false := by decide
  rw [recognize, hdown]
  rfl

/-- A closing brace closes the block of a table, whichever brace it closes. -/
theorem Replay.line_close (r : Replay) (l : Location) :
    r.line (String.ofList ['\x7d']) l = ({ r with current := none }, .proceed false) := by
  rw [line, String.toList_ofList, Statement.recognize_close]
  rfl

/-! ### The pieces of a migration -/

/-- A line break, which writes no line. -/
def Gap.lineBreak : Gap :=
  ⟨['\n'], writes_of_isBlank (by decide)⟩

/-- The head of the forward direction. -/
def Preamble.up : Preamble where
  text := "public function up()\n\x7b\n".toList
  lines := ["public function up() \x7b".toList]
  writes := by
    have hlines : Source.lines "public function up()\n\x7b\n".toList =
        ["public function up() \x7b".toList] := by
      decide +kernel
    rw [← hlines]
    exact writes_of_code (by decide) (by decide) (by decide)
  forward := by decide +kernel

/-- The head of the block that creates a table of users. -/
def TableHead.users : TableHead where
  verb := .create
  table := "users"
  closure := " function (Blueprint $table) "
  opens := by decide
  isTable := by decide
  sealed := by decide
  inline := by decide
  forward := by decide +kernel
  unaltered := by decide +kernel

/-- The statement that adds a column for addresses. -/
def BuilderCall.email : BuilderCall :=
  ⟨"string", .builder .string, "email", by decide, by decide⟩

/-- The statement that adds a column for nicknames. -/
def BuilderCall.nickname : BuilderCall :=
  ⟨"string", .builder .string, "nickname", by decide, by decide⟩

end SchemaHistory

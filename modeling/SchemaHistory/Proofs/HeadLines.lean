import SchemaHistory.Proofs.PlainSchemas

/-!
# The lines before the statements

Before the statements of a table, a script has imports, the head of the class and the head of the
forward direction, and then the statement that opens the table.

The former mention no class with a double colon, so nothing is made of them as long as they are
quiet (`SchemaHistory.recognize_silent`). The latter is a call on the schema class, whose first
argument is the name of the table (`SchemaHistory.ofSchemaChain_createText`).
-/

namespace SchemaHistory

open Source Text

/-! ### Lines without a colon -/

/-- Only a colon starts a double colon. -/
theorem kind_startingWith_ne {c : Char} (hc : c ≠ ':') (s : List Char) :
    (Lexeme.startingWith c s).1.kind ≠ .doubleColon := by
  have hmark : ∀ d : Char, markKind d ≠ .doubleColon := by
    intro d
    unfold markKind
    split <;> decide
  unfold Lexeme.startingWith run
  repeat' split
  all_goals first
    | exact absurd rfl hc
    | exact hmark _
    | simp

/-- **A text without a colon has no double colon.** -/
theorem noClass_of_not_mem {s : List Char} (h : ':' ∉ s) : .doubleColon ∉ kinds s := by
  have hlexemes : ∀ l ∈ lexemes s, l.kind ≠ .doubleColon := by
    induction s using lexemes.induct with
    | case1 => simp [lexemes]
    | case2 c s ih =>
      have hc : c ≠ ':' := fun hc => h (by simp [hc])
      have hrest : ':' ∉ (Lexeme.startingWith c s).2 := by
        intro hmem
        have happend := Lexeme.startingWith_append c s
        exact h (happend ▸ List.mem_append_right _ hmem)
      rw [lexemes]
      intro l hl
      rcases List.mem_cons.1 hl with rfl | hl
      · exact kind_startingWith_ne hc s
      · exact ih hrest l hl
  rw [kinds, tokens, map_kind_tokensAfter]
  intro hmem
  obtain ⟨l, hl, hkind⟩ := List.mem_map.1 (List.mem_filter.1 hmem).1
  exact hlexemes l hl hkind

/-- Outside of tables nothing is made of a quiet line without a colon. -/
theorem recognize_silent {line : List Char} (hquiet : Quiet line)
    (hmarks : '\x7d' ∉ line ∧ ':' ∉ line) (l : Location) :
    Statement.recognize line false l = .ok none := by
  rw [Statement.recognize_of_quiet hquiet hmarks.1 (noClass_of_not_mem hmarks.2),
    if_neg (by simp)]

/-! ### The head of the class -/

namespace Table

/-- The class of a table with a name has nothing that is removed as a comment. -/
theorem classCode_of_isName {t : Table} (h : IsName t.name) :
    t.classCode = (t.classText.toList, false) := by
  have hparts := isAsciiWordPart_className h.parts
  have htext : t.classText.toList =
      "class ".toList ++ ((className t.name).toList ++ " extends Migration".toList) := by
    rw [classText, String.toList_append, String.toList_append, List.append_assoc]
  have hfilter : t.classText.toList.filter (· != '\r') = t.classText.toList := by
    refine List.filter_eq_self.2 fun c hc => ?_
    rw [htext, List.mem_append, List.mem_append] at hc
    rcases hc with hc | hc | hc
    · exact (by decide : ∀ c ∈ "class ".toList, (c != '\r') = true) c hc
    · exact forall_isAsciiWordPart (P := fun c => (c != '\r') = true) (by decide) (hparts c hc)
    · exact (by decide : ∀ c ∈ " extends Migration".toList, (c != '\r') = true) c hc
  have hsealed : Sealed t.classText.toList := by
    rw [htext, Sealed.append_iff (by decide),
      Sealed.append_iff fun c hc => (class_of_isAsciiWordPart (hparts c hc)).2.2.2.1]
    decide
  rw [classCode, strip, hfilter, if_neg (by simp), stripFrom_of_regionAfter hsealed]

/-- The head of the class and its brace. -/
theorem trimEnd_classText (t : Table) :
    trimEnd t.classText.toList ++ " \x7b".toList =
      "class ".toList ++ ((className t.name).toList ++ " extends Migration \x7b".toList) := by
  have hlast : " extends Migration".toList.getLast? = some 'n' := by decide
  have htight : Tight t.classText.toList := by
    intro c hc
    rw [classText, String.toList_append, List.getLast?_append, hlast, Option.some_or] at hc
    obtain rfl := Option.some.inj hc
    decide
  have hsplit : " extends Migration \x7b".toList =
      " extends Migration".toList ++ " \x7b".toList := by decide
  rw [trimEnd_of_tight htight, hsplit, classText, String.toList_append, String.toList_append]
  simp only [List.append_assoc]

/-- **The heads of the class and of the forward direction are quiet.** -/
theorem quiet_classLines {t : Table} (h : IsName t.name) :
    ∀ line ∈ t.classLines, Quiet line ∧ '\x7d' ∉ line ∧ ':' ∉ line := by
  have hparts := isAsciiWordPart_className h.parts
  have hstart : Quiet "class ".toList :=
    .of_run (v := .idle) (u := .idle) (by decide) (by decide) rfl rfl
  have hname : Quiet (className t.name).toList :=
    quiet_of_not_isBlank fun c hc => (class_of_isAsciiWordPart (hparts c hc)).2.1
  have hend : Quiet " extends Migration \x7b".toList :=
    .of_run (v := .idle) (u := .idle) (by decide) (by decide) rfl rfl
  have hmarks : ∀ c ∈ "class ".toList ++ ((className t.name).toList ++
      " extends Migration \x7b".toList), c ≠ '\x7d' ∧ c ≠ ':' := by
    intro c hc
    rw [List.mem_append, List.mem_append] at hc
    rcases hc with hc | hc | hc
    · exact (by decide : ∀ c ∈ "class ".toList, c ≠ '\x7d' ∧ c ≠ ':') c hc
    · exact forall_isAsciiWordPart (P := fun c => c ≠ '\x7d' ∧ c ≠ ':') (by decide) (hparts c hc)
    · exact (by decide : ∀ c ∈ " extends Migration \x7b".toList, c ≠ '\x7d' ∧ c ≠ ':') c hc
  have hlines : t.classLines = ["class ".toList ++ ((className t.name).toList ++
      " extends Migration \x7b".toList), "public function up() \x7b".toList] := by
    unfold classLines
    rw [classCode_of_isName h, ← trimEnd_classText]
    simp only [Bool.false_eq_true, if_false]
  intro line hline
  rw [hlines, List.mem_cons, List.mem_singleton] at hline
  rcases hline with rfl | rfl
  · exact ⟨hstart.append (hname.append hend), fun hc => (hmarks _ hc).1 rfl,
      fun hc => (hmarks _ hc).2 rfl⟩
  · exact ⟨.of_run (v := .idle) (u := .idle) (by decide) (by decide) rfl rfl, by decide, by decide⟩

end Table

/-! ### The statement that opens the table -/

/-- The call of a **table directive**. -/
def TableVerb.callName : TableVerb → String
  | create => "create"
  | alter => "table"
  | drop => "drop"

theorem TableVerb.isWord_callName (verb : TableVerb) : isWord verb.callName.toList = true := by
  cases verb <;> decide

/-- A chain on the schema class that starts with a table directive is one. -/
theorem Statement.ofSchemaChain_directive (verb : TableVerb) {call : Call}
    (hname : call.name = verb.callName) {table : String} (htable : call.stringAt? 0 = some table)
    (rest : List Call) (l : Location) :
    ofSchemaChain ⟨"Schema", call :: rest⟩ l = .ok (.directive verb table) := by
  have hcounts : (call.name != "connection") = true := by
    rw [hname]
    cases verb <;> decide
  have hcall : directiveCall? ⟨"Schema", call :: rest⟩ = some call := by
    simp [directiveCall?, hcounts]
  rw [ofSchemaChain, hcall]
  cases verb <;> simp only [ofDirectiveCall, hname, TableVerb.callName, tableDirective, htable]

/-- The text of a table directive on a name, with what follows the comma behind it. -/
def directiveText (verb : TableVerb) (name rest : String) : String :=
  "Schema::" ++ verb.callName ++ "(" ++ literal name ++ "," ++ rest

theorem toList_directiveText (verb : TableVerb) (name rest : String) :
    (directiveText verb name rest).toList = "Schema".toList ++ ':' :: ':' ::
      (verb.callName.toList ++ '(' :: '\'' :: (name.toList ++ '\'' :: ',' :: rest.toList)) := by
  have hopen : "Schema::".toList = "Schema".toList ++ [':', ':'] := by decide
  have hparen : "(".toList = ['('] := rfl
  have hcomma : ",".toList = [','] := rfl
  simp only [directiveText, String.toList_append, toList_literal, hopen, hparen, hcomma,
    List.append_assoc, List.cons_append, List.nil_append]

/-- The tokens of a table directive. -/
theorem tokens_directiveText (verb : TableVerb) {name : String} (h : Quotable name)
    (rest : String) :
    tokens (directiveText verb name rest).toList =
      ⟨[], ⟨.word, "Schema".toList⟩⟩ :: ⟨[], ⟨.doubleColon, [':', ':']⟩⟩ ::
        ⟨[], ⟨.word, verb.callName.toList⟩⟩ :: ⟨[], ⟨.openParen, ['(']⟩⟩ :: literalToken name ::
          ⟨[], ⟨.comma, [',']⟩⟩ :: tokens rest.toList := by
  have hclass : ∀ s, lexemes ("Schema".toList ++ ':' :: s) =
      ⟨.word, "Schema".toList⟩ :: lexemes (':' :: s) := lexemes_word (by decide) (by decide)
  have hcolons : ∀ s, lexemes (':' :: ':' :: s) = ⟨.doubleColon, [':', ':']⟩ :: lexemes s :=
    fun s => lexemes_cons rfl
  have hcall : ∀ s, lexemes (verb.callName.toList ++ '(' :: s) =
      ⟨.word, verb.callName.toList⟩ :: lexemes ('(' :: s) :=
    lexemes_word verb.isWord_callName (by decide)
  have hparen : ∀ s, lexemes ('(' :: s) = ⟨.openParen, ['(']⟩ :: lexemes s :=
    fun s => lexemes_cons rfl
  have hcomma : ∀ s, lexemes (',' :: s) = ⟨.comma, [',']⟩ :: lexemes s :=
    fun s => lexemes_cons rfl
  rw [tokens, toList_directiveText, hclass, hcolons, hcall, hparen, lexemes_quoted h.quotable,
    hcomma]
  rfl

/-- **A table directive is a call with the name of the table.** -/
theorem ofSchemaChain_directiveText (verb : TableVerb) {name : String} (h : Quotable name)
    (rest : String) (l : Location) :
    ∃ chain, Chain.ofClass? "Schema" (tokens (directiveText verb name rest).toList) = some chain ∧
      Statement.ofSchemaChain chain l = .ok (.directive verb (contentOf name)) := by
  rw [tokens_directiveText verb h]
  generalize tokens rest.toList = ts
  have hinside : (untilCloseParen 0 (literalToken name :: ⟨[], ⟨.comma, [',']⟩⟩ :: ts)).1 =
      literalToken name :: ⟨[], ⟨.comma, [',']⟩⟩ :: (untilCloseParen 0 ts).1 := rfl
  have hstring := stringAt?_ofTokens (s := name) (String.ofList verb.callName.toList)
    (Or.inr ⟨⟨[], ⟨.comma, [',']⟩⟩, (untilCloseParen 0 ts).1, rfl, rfl⟩)
  refine ⟨⟨"Schema", Call.ofTokens (String.ofList verb.callName.toList) (untilCloseParen 0
    (literalToken name :: ⟨[], ⟨.comma, [',']⟩⟩ :: ts)).1 :: Call.sequence (untilCloseParen 0
      (literalToken name :: ⟨[], ⟨.comma, [',']⟩⟩ :: ts)).2⟩, ?_, ?_⟩
  · rw [Chain.ofClass?, findReceiver?, if_pos (by decide), Option.bind_some,
      Chained.ofReceiver?, assignment?, if_neg (by simp [Token.kind]), Call.sequence,
      if_pos ⟨rfl, rfl, rfl⟩]
    rfl
  · rw [hinside]
    exact Statement.ofSchemaChain_directive verb (String.ofList_toList (s := verb.callName)) hstring
      _ l

namespace Table

theorem createText_eq (t : Table) :
    t.createText = directiveText .create t.name " function (Blueprint $table) \x7b" := by
  have hopen : "Schema::create('" = "Schema::" ++ TableVerb.create.callName ++ "(" ++ "'" := by
    decide
  have hclose : "', function (Blueprint $table) \x7b" =
      "'" ++ "," ++ " function (Blueprint $table) \x7b" := by decide
  delta createText directiveText literal
  rw [hopen, hclose]
  simp only [String.append_assoc]

/-- **The statement that opens a table is a call with its name.** -/
theorem ofSchemaChain_createText {t : Table} (h : Quotable t.name) (l : Location) :
    ∃ chain, Chain.ofClass? "Schema" (tokens t.createText.toList) = some chain ∧
      Statement.ofSchemaChain chain l =
        .ok (.directive .create (contentOf t.name)) := by
  rw [createText_eq]
  exact ofSchemaChain_directiveText .create h _ l

/-- **The statement that opens a table is recognised as such.** -/
theorem recognize_createText {t : Table} (h : Quoted t.name) (l : Location) :
    Statement.recognize t.createText.toList false l = .ok (some (.directive .create t.name)) := by
  have htext : t.createText.toList = "Schema::create(".toList ++ ((literal t.name).toList ++
      ", function (Blueprint $table) \x7b".toList) := by
    rw [toList_createText, toList_literal]
    simp only [List.append_assoc, List.cons_append, List.nil_append]
  have hquiet : Quiet t.createText.toList := by
    rw [htext]
    have hopen : Quiet "Schema::create(".toList := quiet_of_not_isBlank (by decide)
    have hclose : Quiet ", function (Blueprint $table) \x7b".toList :=
      .of_run (v := .idle) (u := .idle) (by decide) (by decide) rfl rfl
    exact hopen.append (h.quiet.append hclose)
  have hbrace : t.createText.toList.contains '\x7d' = false := by
    have hnot : ∀ c ∈ t.createText.toList, c ≠ '\x7d' := by
      intro c hc
      rw [htext, List.mem_append, List.mem_append] at hc
      rcases hc with hc | hc | hc
      · exact (by decide : ∀ c ∈ "Schema::create(".toList, c ≠ '\x7d') c hc
      · rintro rfl
        exact absurd (h.tame.inline _ hc) (by decide)
      · exact (by decide : ∀ c ∈ ", function (Blueprint $table) \x7b".toList, c ≠ '\x7d') c hc
    simpa using fun hmem => hnot _ hmem rfl
  obtain ⟨chain, hchain, hstatement⟩ := ofSchemaChain_createText h.toQuotable l
  rw [Statement.recognize, hquiet.opensDown_eq, hbrace, hquiet.parse?_eq, hchain]
  simp only [Bool.false_eq_true, if_false]
  rw [hstatement, contentOf_eq h.escapeFree]
  rfl

end Table

end SchemaHistory

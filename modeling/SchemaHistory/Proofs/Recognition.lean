import SchemaHistory.Proofs.Literals

/-!
# Recognising the statements of a script

Five questions are asked about every line, and a statement of a script must be passed on by the
first four of them to be taken for what it is. A line that is quiet, has no closing brace and
mentions no class is passed on (`SchemaHistory.Statement.recognize_of_quiet`).

Two shapes of lines remain. A chain whose arguments are tame is read as the calls of its links
(`SchemaHistory.recognize_chainText`), and a line that gives an option its value is read as an
assignment (`SchemaHistory.recognize_option`).
-/

namespace SchemaHistory

open Source Text

/-! ### Lines that are passed on -/

/-- Nothing is chained to a class without a double colon. -/
theorem findReceiver?_eq_none {p : Token → Token → Bool} {ts : List Token}
    (h : ∀ u ∈ ts, ∀ t, p t u = false) : findReceiver? p ts = none := by
  fun_induction findReceiver? p ts with
  | case1 t u rest hp =>
    rw [h u (by simp) t] at hp
    exact absurd hp (by simp)
  | case2 t u rest _ ih => exact ih fun v hv => h v (List.mem_cons_of_mem t hv)
  | case3 => rfl

theorem ofClass?_eq_none {name : String} {ts : List Token}
    (h : .doubleColon ∉ ts.map Token.kind) : Chain.ofClass? name ts = none := by
  rw [Chain.ofClass?, findReceiver?_eq_none]
  · rfl
  · intro u hu t
    have hkind : u.kind ≠ .doubleColon := fun hk => h (hk ▸ List.mem_map_of_mem hu)
    simp [hkind]

/-- **A quiet line without a closing brace and a class is left to the table.** -/
theorem Statement.recognize_of_quiet {line : List Char} (hquiet : Quiet line)
    (hbrace : '\x7d' ∉ line) (hclass : .doubleColon ∉ kinds line) (inTable : Bool) (l : Location) :
    recognize line inTable l =
      .ok (if inTable then (Chained.ofVariable? (tokens line)).map ofChained else none) := by
  have hcontains : line.contains '\x7d' = false := by simpa using hbrace
  rw [recognize, hquiet.opensDown_eq, hcontains, hquiet.parse?_eq, ofClass?_eq_none hclass]
  cases inTable <;> rfl

/-! ### Chains -/

/-- A link is **tame** if its arguments are. -/
structure Link.Tame (l : Link) : Prop where
  name : isWord l.name.toList = true
  inside : SchemaHistory.Tame l.inside.toList

namespace Link.Tame

variable {l : Link}

theorem level (h : l.Tame) : l.Level where
  name := h.name
  inside := h.inside.sealed
  level := h.inside.level
  tight := h.inside.tight

theorem writable (h : l.Tame) : l.Writable where
  name := h.name
  inside := h.inside.sealed
  inline := h.inside.inline

theorem quiet (h : l.Tame) : Quiet l.text := by
  have hname : Quiet ('-' :: '>' :: (l.name.toList ++ ['('])) := by
    refine quiet_of_not_isBlank fun c hc => ?_
    simp only [List.mem_cons, List.mem_append, List.not_mem_nil, or_false] at hc
    rcases hc with rfl | rfl | hc | rfl
    · decide
    · decide
    · exact (class_of_isAsciiWordPart (isAsciiWordPart_of_isWord h.name c hc)).2.1
    · decide
  have hend : Quiet [')'] := quiet_of_not_isBlank (by decide)
  have htext : l.text = '-' :: '>' :: (l.name.toList ++ ['(']) ++ (l.inside.toList ++ [')']) := by
    simp [text]
  rw [htext]
  exact hname.append (h.inside.quiet.append hend)

theorem noClass (h : l.Tame) : .doubleColon ∉ l.tokens.map Token.kind := by
  have hinside : .doubleColon ∉ (Source.tokens l.inside.toList).map Token.kind := h.inside.noClass
  rw [h.level.tokens_eq, callHead]
  simp only [List.map_cons, List.map_append, List.map_nil, Token.kind]
  simp only [List.mem_cons, List.mem_append, List.not_mem_nil, or_false, reduceCtorEq, false_or]
  exact hinside

end Link.Tame

section Chains

variable {ls : List Link} (h : ∀ l ∈ ls, l.Tame)
include h

theorem quiet_chainText : Quiet (chainText ls) := by
  have hlinks : Quiet (ls.flatMap Link.text) := by
    induction ls with
    | nil => exact .nil
    | cons l ls ih =>
      exact (h l List.mem_cons_self).quiet.append (ih fun k hk => h k (List.mem_cons_of_mem l hk))
  have hvariable : Quiet tableVariable := quiet_of_not_isBlank (by decide)
  have hend : Quiet [';'] := quiet_of_not_isBlank (by decide)
  exact hvariable.append (hlinks.append hend)

theorem noClass_chainText : .doubleColon ∉ kinds (chainText ls) := by
  rw [kinds, tokens_chainText fun l hl => (h l hl).level.toProper, List.map_cons, List.map_append,
    List.map_flatMap, List.mem_cons, List.mem_append, List.mem_flatMap]
  rintro (hk | ⟨l, hl, hk⟩ | hk)
  · exact absurd hk (by decide)
  · exact (h l hl).noClass hk
  · exact absurd hk (by decide)

theorem isLine_of_tame : IsLine (chainText ls) :=
  isLine_of_writable fun l hl => (h l hl).writable

end Chains

/-- One line has no closing brace unless it ends with it. -/
theorem Source.Terminated.not_mem_brace {s : List Char} (h : Terminated s)
    (hlast : s.getLast? ≠ some '\x7d') : '\x7d' ∉ s := by
  obtain ⟨u, e, rfl, -, hu⟩ := h.ends
  rw [List.getLast?_concat] at hlast
  intro hc
  rcases List.mem_append.1 hc with hc | hc
  · exact absurd (hu _ hc) (by decide)
  · exact hlast (congrArg some (List.mem_singleton.1 hc).symm)

/-- **A chain of tame links is recognised as the calls of its links.** -/
theorem recognize_chainText {l : Link} {ls : List Link} (h : ∀ k ∈ l :: ls, k.Tame)
    (location : Location) :
    Statement.recognize (chainText (l :: ls)) true location =
      .ok (some (.calls ⟨"$table", (l :: ls).map Link.call⟩)) := by
  have hbrace : '\x7d' ∉ chainText (l :: ls) := by
    refine (isLine_of_tame h).toTerminated.not_mem_brace ?_
    have hlast : (chainText (l :: ls)).getLast? = some ';' := by
      rw [chainText, ← List.append_assoc, List.getLast?_concat]
    rw [hlast]
    decide
  rw [Statement.recognize_of_quiet (quiet_chainText h) hbrace (noClass_chainText h),
    if_pos rfl, ofVariable?_chainText fun k hk => (h k hk).level]
  rfl

/-! ### Quoted texts -/

/-- What is written between quotes and read back unchanged. -/
structure Quoted (s : String) : Prop extends Quotable s where
  escapeFree : '\\' ∉ s.toList
  quiet : Quiet (literal s).toList

theorem tight_literal (s : String) : Tight (literal s).toList := by
  intro c hc
  rw [toList_literal, ← List.cons_append, List.getLast?_concat] at hc
  obtain rfl : '\'' = c := by simpa using hc
  decide

/-- A link whose argument is a string literal is level. -/
theorem Quotable.level {name s : String} (h : Quotable s) (hname : isWord name.toList = true) :
    Link.Level ⟨name, literal s⟩ where
  name := hname
  inside := h.copyable.sealed
  level := by
    rw [toList_literal, kinds_quoted h.quotable]
    exact .cons rfl rfl .nil
  tight := tight_literal s

/-- A string literal is read back from the arguments of a call as it was written. -/
theorem Quotable.legible {s : String} (h : Quotable s) : Legible (literal s) where
  toCopyable := h.copyable
  nonempty := by simp [← String.toList_eq_nil_iff, toList_literal]
  starts := by
    intro c hc
    obtain rfl : '\'' = c := by simpa [toList_literal] using hc
    decide
  tight := tight_literal s
  level := by
    rw [toList_literal, kinds_quoted h.quotable]
    exact .cons rfl rfl .nil

/-- A string literal is tame if it is quiet. -/
theorem Quoted.tame {s : String} (h : Quoted s) : Tame (literal s).toList where
  sealed := h.toQuotable.copyable.sealed
  inline := h.toQuotable.copyable.inline
  quiet := h.quiet
  level := by
    rw [toList_literal, kinds_quoted h.quotable]
    exact .cons rfl rfl .nil
  noClass := by
    rw [toList_literal, kinds_quoted h.quotable]
    decide
  starts := by
    intro c hc
    obtain rfl : '\'' = c := by simpa [toList_literal] using hc
    decide
  tight := tight_literal s

/-- The string of a link that was written between quotes. -/
theorem Quoted.firstString?_call {name s : String} (h : Quoted s) :
    (Link.call ⟨name, literal s⟩).firstString? = some s := by
  rw [Link.firstString?_call h.toQuotable, contentOf_eq h.escapeFree]

/-! ### Options -/

/-- The properties of a table that are options. -/
def Table.optionNames : List String :=
  ["engine", "charset", "collation"]

theorem lexemes_arrow (s : List Char) :
    lexemes ('-' :: '>' :: s) = ⟨.arrow, ['-', '>']⟩ :: lexemes s :=
  lexemes_cons rfl

theorem lexemes_tableVariable {s : List Char} (h : ∀ c ∈ s.head?, isVariablePart c = false) :
    lexemes (tableVariable ++ s) = ⟨.variable, tableVariable⟩ :: lexemes s :=
  lexemes_variable (v := tableVariable.tail) (by decide) h

theorem lexemes_equals (s : List Char) :
    lexemes (' ' :: '=' :: ' ' :: '\'' :: s) =
      ⟨.blank, [' ']⟩ :: ⟨.equals, ['=']⟩ :: ⟨.blank, [' ']⟩ :: lexemes ('\'' :: s) := by
  have h1 : lexemes (' ' :: '=' :: ' ' :: '\'' :: s) =
      ⟨.blank, [' ']⟩ :: lexemes ('=' :: ' ' :: '\'' :: s) := lexemes_cons rfl
  have h2 : lexemes ('=' :: ' ' :: '\'' :: s) =
      ⟨.equals, ['=']⟩ :: lexemes (' ' :: '\'' :: s) := lexemes_cons rfl
  have h3 : lexemes (' ' :: '\'' :: s) = ⟨.blank, [' ']⟩ :: lexemes ('\'' :: s) :=
    lexemes_cons rfl
  rw [h1, h2, h3]

theorem lexemes_quoted {u : List Char} (h : isQuotable u = true) (s : List Char) :
    lexemes ('\'' :: (u ++ '\'' :: s)) = ⟨.quoted, '\'' :: (u ++ ['\''])⟩ :: lexemes s := by
  have hstart : Lexeme.startingWith '\'' (u ++ '\'' :: s) =
      (⟨.quoted, '\'' :: (untilClosed '\'' (u ++ '\'' :: s)).1⟩,
        (untilClosed '\'' (u ++ '\'' :: s)).2) := rfl
  rw [untilClosed_of_isQuotable h] at hstart
  exact lexemes_cons hstart

/-- The tokens of a line that gives an option its value. -/
theorem tokens_optionText {property value : String} (hproperty : isWord property.toList = true)
    (hvalue : Quotable value) :
    tokens (optionText property value) =
      [⟨[], ⟨.variable, tableVariable⟩⟩, ⟨[], ⟨.arrow, ['-', '>']⟩⟩, ⟨[], ⟨.word, property.toList⟩⟩,
        ⟨[' '], ⟨.equals, ['=']⟩⟩, ⟨[' '], ⟨.quoted, '\'' :: (value.toList ++ ['\''])⟩⟩,
        ⟨[], ⟨.semicolon, [';']⟩⟩] := by
  have hend : lexemes [';'] = [⟨.semicolon, [';']⟩] := by
    have hsemicolon : lexemes [';'] = ⟨.semicolon, [';']⟩ :: lexemes [] := lexemes_cons rfl
    rw [hsemicolon, lexemes]
  have hstop : ∀ c ∈ ('-' :: '>' :: (property.toList ++ ' ' :: '=' :: ' ' ::
      '\'' :: (value.toList ++ '\'' :: [';']))).head?, isVariablePart c = false := by
    intro c hc
    obtain rfl : '-' = c := by simpa using hc
    decide
  rw [tokens, optionText, lexemes_tableVariable hstop, lexemes_arrow,
    lexemes_word hproperty (by decide), lexemes_equals, lexemes_quoted hvalue.quotable, hend]
  rfl

/-- A line that gives an option its value is an assignment. -/
theorem ofVariable?_optionText {property value : String}
    (hproperty : isWord property.toList = true) (hvalue : Quotable value) :
    Chained.ofVariable? (tokens (optionText property value)) =
      some (.assignment "$table" property (contentOf value)) := by
  have hassigned : assignedValue [⟨[' '], ⟨.quoted, '\'' :: (value.toList ++ ['\''])⟩⟩,
      ⟨[], ⟨.semicolon, [';']⟩⟩] = contentOf value := by
    simp [assignedValue, Token.kind, contentOf, literalToken]
  have hreceiver : String.ofList tableVariable = "$table" := by decide
  have hread : Chained.ofVariable? (tokens (optionText property value)) =
      some (.assignment (String.ofList tableVariable) (String.ofList property.toList)
        (assignedValue [⟨[' '], ⟨.quoted, '\'' :: (value.toList ++ ['\''])⟩⟩,
          ⟨[], ⟨.semicolon, [';']⟩⟩])) := by
    rw [tokens_optionText hproperty hvalue]
    rfl
  rw [hread, hassigned, hreceiver, String.ofList_toList]

theorem noClass_optionText {property value : String} (hproperty : isWord property.toList = true)
    (hvalue : Quotable value) : .doubleColon ∉ kinds (optionText property value) := by
  rw [kinds, tokens_optionText hproperty hvalue]
  simp [Token.kind]

/-- **A line that gives an option its value is recognised as an assignment.** -/
theorem recognize_option {property value : String} (hproperty : property ∈ Table.optionNames)
    (hvalue : Quoted value) (l : Location) :
    Statement.recognize (optionText property value) true l =
      .ok (some (.assignment property value)) := by
  have hproperty : property = "engine" ∨ property = "charset" ∨ property = "collation" := by
    simpa [Table.optionNames] using hproperty
  have hword : isWord property.toList = true := by
    rcases hproperty with rfl | rfl | rfl <;> decide
  have hbrace : '\x7d' ∉ optionText property value := by
    refine (isLine_option hword hvalue.toQuotable).toTerminated.not_mem_brace ?_
    have htext : optionText property value = (tableVariable ++ '-' :: '>' :: (property.toList ++
        ' ' :: '=' :: ' ' :: '\'' :: (value.toList ++ ['\'']))) ++ [';'] := by
      simp [optionText]
    rw [htext, List.getLast?_concat]
    decide
  have hquiet : Quiet (optionText property value) := by
    have hhead : Quiet (tableVariable ++ '-' :: '>' :: (property.toList ++ [' ', '=', ' '])) := by
      rcases hproperty with rfl | rfl | rfl
      · exact .of_run (v := .idle) (u := .idle) (by decide) (by decide) rfl rfl
      · exact .of_run (v := .idle) (u := .idle) (by decide) (by decide) rfl rfl
      · exact .of_run (v := .idle) (u := .idle) (by decide) (by decide) rfl rfl
    have htext : optionText property value = (tableVariable ++ '-' :: '>' :: (property.toList ++
        [' ', '=', ' '])) ++ ((literal value).toList ++ [';']) := by
      simp [optionText, toList_literal]
    rw [htext]
    exact hhead.append (hvalue.quiet.append (quiet_of_not_isBlank (by decide)))
  rw [Statement.recognize_of_quiet hquiet hbrace (noClass_optionText hword hvalue.toQuotable),
    if_pos rfl, ofVariable?_optionText hword hvalue.toQuotable, contentOf_eq hvalue.escapeFree]
  rfl

end SchemaHistory

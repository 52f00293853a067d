import SchemaHistory.Proofs.AlterWords

/-!
# Alterations as SQL writes them

Behind the verb of an alteration there are three forms (`SchemaHistory.Sql.Form`): a column and its
type for `MODIFY` and for `CHANGE`, and for `CHANGE` also a column, its new name and its type. The
word `COLUMN` may stand in front of the column.

The beginning of a statement, up to and including the type, is its **stem**
(`SchemaHistory.Sql.Stem`), and it decides all but the parameters and the attributes. A stem is read
in two steps. The pattern takes the names and leaves the rest to be cut at the end of the statement
(`SchemaHistory.Sql.Stem.match?_before`); the definition is then taken apart word by word
(`SchemaHistory.Sql.Stem.ofMatch?_before`). Two words could be taken for others: `COLUMN`, if a
column has that name, and the type behind `CHANGE`, if it were taken for a new name. A stem says
what keeps them apart, and nothing else is needed.

So every statement is read as what it was written from, alone or in a call that hands it to the
database (`SchemaHistory.Sql.AlterStatement.parse?_text`).
-/

namespace SchemaHistory

open Text Source

namespace Sql

open Alteration

/-! ### Stems -/

/-- The **form** of a statement. -/
inductive Form
  /-- `MODIFY c type` -/
  | modify (verb : Keyword "modify")
  /-- `CHANGE c type` -/
  | change (verb : Keyword "change")
  /-- `CHANGE c n type`, with a new name that is no type. -/
  | rename (verb : Keyword "change") (new : Name isNamePart) (gap : Gap)
      (isNoType : isSqlType new.text = false)

namespace Form

/-- The verb as it is written. -/
def verb : Form → List Char
  | modify verb => verb.text
  | change verb => verb.text
  | rename verb _ _ _ => verb.text

/-- Whether the verb is `CHANGE`. -/
def isChange : Form → Bool
  | modify _ => false
  | change _ => true
  | rename _ _ _ _ => true

/-- The new name of the column. -/
def renamed : Form → Option (List Char)
  | rename _ new _ _ => some new.text
  | _ => none

/-- The new name as it is written, in front of the type. -/
def beforeType : Form → List Char → List Char
  | rename _ new gap _, s => new.written ++ (gap.text ++ s)
  | _, s => s

/-- Whether a word can be the type: `CHANGE` without a new name needs one that is known. -/
def admits : Form → List Char → Prop
  | change _, type => isSqlType type = true
  | _, _ => True

end Form

/-- The **stem** of a statement: `ALTER TABLE t`, the verb, the column, and its type. -/
structure Stem where
  alter : Keyword "alter"
  afterAlter : Gap
  tableWord : Keyword "table"
  afterTableWord : Gap
  table : Name isTablePart
  afterTable : Gap
  form : Form
  afterVerb : Gap
  /-- The word `COLUMN` and the gap behind it. -/
  columnWord : Option (Keyword "column" × Gap)
  column : Name isNamePart
  afterColumn : Gap
  type : List Char
  type_ne_nil : type ≠ []
  isTypePart_of_mem : ∀ c ∈ type, (isAsciiLetter c || isDigit c) = true
  /-- A column that is not told apart from the keyword by backticks does not have its name. -/
  column_ne : columnWord = none → column.ticked = false →
    column.text.map Char.toLower ≠ "column".toList
  admits : form.admits type

namespace Stem

/-- The column, behind the word `COLUMN` or not, in front of a text. -/
def beforeDefinition (w : Stem) (s : List Char) : List Char :=
  match w.columnWord with
  | some (k, gap) => k.text ++ (gap.text ++ (w.column.written ++ s))
  | none => w.column.written ++ s

/-- The new name, if there is one, and the type, in front of a text. -/
def definition (w : Stem) (s : List Char) : List Char :=
  w.form.beforeType (w.type ++ s)

/-- A stem in front of a text. -/
def before (w : Stem) (s : List Char) : List Char :=
  w.alter.text ++ (w.afterAlter.text ++ (w.tableWord.text ++ (w.afterTableWord.text ++
    (w.table.written ++ (w.afterTable.text ++ (w.form.verb ++ (w.afterVerb.text ++
      w.beforeDefinition (w.afterColumn.text ++ w.definition s))))))))

/-- The alteration that a stem describes together with the parameters and the attributes. -/
def alteration (w : Stem) (r : Option (List Char) × List Char) : Alteration where
  table := String.ofList w.table.text
  column := String.ofList w.column.text
  renamed := w.form.renamed.map String.ofList
  sqlType := String.ofList w.type
  parameters := r.1.map String.ofList
  attributes := String.ofList (trim r.2)

end Stem

/-! ### The pattern -/

/-- The verb is read, whichever it is. -/
theorem Form.verb?_append (f : Form) (g : Gap) {s : List Char}
    (hs : ∀ c ∈ s.head?, isBlank c = false) :
    verb? (f.verb ++ (g.text ++ s)) = some (f.isChange, s) := by
  have hchange : ∀ k : Keyword "change",
      verb? (k.text ++ (g.text ++ s)) = some (true, s) := by
    intro k
    obtain ⟨c, text, htext, hc, -⟩ :
        ∃ c text, k.text = c :: text ∧ c.toLower = 'c' ∧ text.map Char.toLower = "hange".toList :=
      List.map_eq_cons_iff.1 k.spells
    have hmodify : afterKeywordAndBlanks? "modify".toList (k.text ++ (g.text ++ s)) = none := by
      have hne : c.toLower ≠ 'm' := by rw [hc]; decide
      have hfirst : afterKeyword? "modify".toList (c :: (text ++ (g.text ++ s))) = none :=
        if_neg hne
      rw [htext, List.cons_append, afterKeywordAndBlanks?, hfirst, Option.bind_none]
    rw [verb?, hmodify, k.afterKeywordAndBlanks?_append g hs]
    rfl
  cases f with
  | modify k =>
    rw [verb, verb?, k.afterKeywordAndBlanks?_append g hs]
    rfl
  | change k => exact hchange k
  | rename k _ _ _ => exact hchange k

theorem Form.isBlank_head (f : Form) (s : List Char) :
    ∀ c ∈ (f.verb ++ s).head?, isBlank c = false := by
  cases f with
  | modify k => exact k.isBlank_head (by decide) s
  | change k => exact k.isBlank_head (by decide) s
  | rename k _ _ _ => exact k.isBlank_head (by decide) s

/-- **The name of a column is not taken for the keyword** if it is in backticks or another word. -/
theorem Name.afterColumnWord?_eq_none (n : Name isNamePart) (g : Gap)
    (h : n.ticked = false → n.text.map Char.toLower ≠ "column".toList) (s : List Char) :
    afterKeywordAndBlanks? "column".toList (n.written ++ (g.text ++ s)) = none := by
  cases hticked : n.ticked with
  | true =>
    rw [written, tick, if_pos hticked]
    rfl
  | false =>
    have hwritten : n.written = n.text := by
      rw [written, tick, if_neg (by simp [hticked]), List.nil_append, List.append_nil]
    refine Option.eq_none_iff_forall_ne_some.2 fun r hr => h hticked ?_
    obtain ⟨u, b, bs, hu, hb, -, heq⟩ := eq_append_of_afterKeywordAndBlanks? hr
    -- The first gap ends the name and the keyword alike, so the one is the other.
    have hname : (n.written ++ (g.text ++ s)).takeWhile (fun c => !isBlank c) = n.text := by
      rw [hwritten]
      refine (takeWhile_dropWhile_append (fun c hc => ?_) fun c hc => ?_).1
      · rw [isBlank_of_endsWord_eq_false
          (n.class_of_mem isTablePart_of_isNamePart hc).1]
        rfl
      · rw [g.isBlank_head s c hc]
        rfl
    have hword : (u ++ (b :: bs ++ r)).takeWhile (fun c => !isBlank c) = u := by
      refine (takeWhile_dropWhile_append (fun c hc => ?_) fun c hc => ?_).1
      · rw [(not_isBlank_of_isAsciiLetter (isAsciiLetter_of_map hu (by decide) c hc)).1]
        rfl
      · obtain rfl : b = c := by simpa using hc
        rw [hb]
        rfl
    rw [← hname, heq, hword, hu]

namespace Stem

variable (w : Stem)

theorem isBlank_head_beforeDefinition (s : List Char) :
    ∀ c ∈ (w.beforeDefinition s).head?, isBlank c = false := by
  rw [beforeDefinition]
  split
  · rename_i k _ _
    exact k.isBlank_head (by decide) _
  · exact w.column.isBlank_head isTablePart_of_isNamePart s

/-- The column is read, behind the keyword or without it. -/
theorem column?_beforeDefinition (g : Gap) (s : List Char) :
    column? (w.beforeDefinition (g.text ++ s)) = some (w.column.text, g.text ++ s) := by
  have hpart := isTablePart_of_isNamePart
  rw [beforeDefinition, column?]
  cases hword : w.columnWord with
  | some word =>
    simp only [word.1.afterKeywordAndBlanks?_append word.2 (w.column.isBlank_head hpart _),
      Option.bind_some, w.column.name?_append hpart]
  | none =>
    simp only [w.column.afterColumnWord?_eq_none g (w.column_ne hword), Option.bind_none,
      w.column.name?_append hpart]

/-- **The pattern takes the names off a stem**, and leaves all behind the column on its line. -/
theorem match?_before (s : List Char) :
    match? (w.before s) = some {
      table := w.table.text
      change := w.form.isChange
      column := w.column.text
      tail := (w.afterColumn.text ++ w.definition s).takeWhile (· != '\n') } := by
  have hpart : ∀ c, isTablePart c = true → isTablePart c = true := fun _ => id
  simp only [match?, before, Option.bind_eq_bind, Option.pure_def]
  rw [w.alter.afterKeywordAndBlanks?_append w.afterAlter (w.tableWord.isBlank_head (by decide) _),
    Option.bind_some,
    w.tableWord.afterKeywordAndBlanks?_append w.afterTableWord (w.table.isBlank_head hpart _),
    Option.bind_some, w.table.name?_append hpart, Option.bind_some]
  simp only [w.afterTable.afterBlanks?_append (w.form.isBlank_head _),
    w.form.verb?_append w.afterVerb (w.isBlank_head_beforeDefinition _),
    w.column?_beforeDefinition, Option.bind_some]

end Stem

/-! ### The definition -/

namespace Stem

variable (w : Stem)

theorem class_of_mem_type {c : Char} (hc : c ∈ w.type) :
    endsWord c = false ∧ c ≠ '\x60' ∧ goesOn c = true := by
  have hpart :=
    isTablePart_of_isNamePart c (isNamePart_of_isTypePart (w.isTypePart_of_mem c hc))
  obtain ⟨hword, htick, -⟩ := class_of_isTablePart hpart
  exact ⟨hword, htick, goesOn_of_isTablePart hpart⟩

theorem definition_append (s t : List Char) : w.definition (s ++ t) = w.definition s ++ t := by
  rw [definition, definition]
  cases w.form <;> simp [Form.beforeType]

theorem goesOn_of_mem_definition {s : List Char} (hs : ∀ c ∈ s, goesOn c = true) :
    ∀ c ∈ w.definition s, goesOn c = true := by
  have htype : ∀ c ∈ w.type ++ s, goesOn c = true := by
    intro c hc
    rcases List.mem_append.1 hc with hc | hc
    · exact (w.class_of_mem_type hc).2.2
    · exact hs c hc
  rw [definition]
  cases w.form with
  | modify k => exact htype
  | change k => exact htype
  | rename k new gap h =>
    intro c hc
    rw [Form.beforeType, List.mem_append, List.mem_append] at hc
    rcases hc with hc | hc | hc
    · exact new.goesOn_of_mem isTablePart_of_isNamePart hc
    · exact gap.goesOn_of_mem hc
    · exact htype c hc

theorem isBlank_head_type (s : List Char) : ∀ c ∈ (w.type ++ s).head?, isBlank c = false :=
  head?_append_of_ne_nil w.type_ne_nil
    (fun _ hc => isBlank_of_endsWord_eq_false (w.class_of_mem_type hc).1) s

theorem isBlank_head_definition (s : List Char) :
    ∀ c ∈ (w.definition s).head?, isBlank c = false := by
  rw [definition]
  cases w.form with
  | modify k => exact w.isBlank_head_type s
  | change k => exact w.isBlank_head_type s
  | rename k new gap h => exact new.isBlank_head isTablePart_of_isNamePart _

theorem trimEnd_type_ne_nil (s : List Char) : trimEnd (w.type ++ s) ≠ [] := by
  have hhead := w.isBlank_head_type s
  cases htype : w.type with
  | nil => exact absurd htype w.type_ne_nil
  | cons c type =>
    rw [htype] at hhead
    rw [List.cons_append, trimEnd_cons (hhead c rfl)]
    exact List.cons_ne_nil _ _

section After

variable {after : List Char} (hafter : ∀ c ∈ after.head?, endsWord c = true)
include hafter

theorem splitWord_type : splitWord (w.type ++ after) = (w.type, after) := by
  have htrim := trimTicks_append (t := []) (r := []) (by simp) w.type_ne_nil
    (fun c hc => (w.class_of_mem_type hc).2.1) (by simp)
  rw [List.nil_append, List.append_nil] at htrim
  rw [splitWord_append (fun c hc => (w.class_of_mem_type hc).1) hafter, htrim]

/-- **The new name is split off, and the type is not taken for one.** -/
theorem splitNewName_definition :
    splitNewName w.form.isChange (w.definition after) = (w.form.renamed, w.type ++ after) := by
  have hadmits := w.admits
  rw [splitNewName, definition]
  cases hform : w.form with
  | modify k => rfl
  | change k =>
    rw [hform] at hadmits
    have hname : isNewName w.type after = false := by
      have htype : isSqlType w.type = true := hadmits
      simp [isNewName, htype]
    simp [Form.beforeType, Form.renamed, w.splitWord_type hafter, hname]
  | rename k new gap hnew =>
    have hgap : ∀ c ∈ (gap.text ++ (w.type ++ after)).head?, endsWord c = true := by
      intro c hc
      simp [endsWord, gap.isBlank_head _ c hc]
    have htrim := gap.trimStart_append (w.isBlank_head_type after)
    have hname : isNewName new.text (gap.text ++ (w.type ++ after)) = true := by
      have hparen : (gap.text ++ (w.type ++ after)).head? ≠ some '(' := by
        intro hc
        exact absurd (gap.isBlank_head _ '(' hc) (by decide)
      have hsome : trim (gap.text ++ (w.type ++ after)) ≠ [] := by
        rw [trim, htrim]
        exact w.trimEnd_type_ne_nil after
      rw [isNewName, hnew]
      simp only [List.isEmpty_eq_false_iff.2 new.ne_nil, List.isEmpty_eq_false_iff.2 hsome,
        bne_iff_ne.2 hparen, Bool.not_false, Bool.and_self]
    simp [Form.beforeType, Form.isChange, Form.renamed,
      new.splitWord_append isTablePart_of_isNamePart hgap, hname, htrim]

/-- **All that a stem decides is read off it**: what follows the type decides the parameters and the
attributes, and what stands behind the end of the statement decides nothing. -/
theorem ofMatch?_before {behind : List Char} (hgoes : ∀ c ∈ after, goesOn c = true)
    (hbehind : ∀ c ∈ behind.head?, endsStatement c = true) :
    (match? (w.before (after ++ behind))).bind ofMatch? =
      some (w.alteration (splitParameters after)) := by
  have hcut : ((w.afterColumn.text ++ w.definition (after ++ behind)).takeWhile
      (· != '\n')).takeWhile (fun c => !endsStatement c) =
        w.afterColumn.text ++ w.definition after := by
    rw [w.definition_append, ← List.append_assoc]
    refine takeWhile_goesOn (fun c hc => ?_) hbehind
    rcases List.mem_append.1 hc with hc | hc
    · exact w.afterColumn.goesOn_of_mem hc
    · exact w.goesOn_of_mem_definition hgoes c hc
  rw [w.match?_before, Option.bind_some, ofMatch?]
  simp only [hcut, w.afterColumn.trimStart_append (w.isBlank_head_definition after),
    w.splitNewName_definition hafter, w.splitWord_type hafter,
    List.isEmpty_eq_false_iff.2 w.type_ne_nil, Bool.false_eq_true, if_false]
  rfl

end After

end Stem

theorem parse?_of_match? {s : List Char} (h : (match? s).isSome = true) :
    parse? s = (match? s).bind ofMatch? := by
  obtain ⟨m, hm⟩ := Option.isSome_iff_exists.1 h
  rw [parse?]
  cases s with
  | nil => rfl
  | cons c s => rw [firstMatch?, hm]

namespace Stem

variable (w : Stem)

theorem before_append (s t : List Char) : w.before (s ++ t) = w.before s ++ t := by
  have hdefinition : ∀ u, w.beforeDefinition (u ++ w.definition (s ++ t)) =
      w.beforeDefinition (u ++ w.definition s) ++ t := by
    intro u
    rw [beforeDefinition, beforeDefinition, w.definition_append]
    cases w.columnWord <;> simp
  simp only [before, hdefinition, List.append_assoc]

/-- **A statement is read as its stem says**, up to where it ends. -/
theorem parse?_before {after behind : List Char} (hafter : ∀ c ∈ after.head?, endsWord c = true)
    (hgoes : ∀ c ∈ after, goesOn c = true) (hbehind : ∀ c ∈ behind.head?, endsStatement c = true) :
    parse? (w.before (after ++ behind)) = some (w.alteration (splitParameters after)) := by
  have hmatch := w.ofMatch?_before hafter hgoes hbehind
  rw [← hmatch]
  refine parse?_of_match? ?_
  rw [w.match?_before]
  rfl

end Stem

/-! ### Whole statements -/

/-- Parameters go on to the first closing parenthesis, or to the end. -/
theorem splitParameters_append {p s : List Char} (hp : ∀ c ∈ p, c ≠ ')')
    (hs : ∀ c ∈ s.head?, c = ')') :
    splitParameters ('(' :: (p ++ s)) =
      (if (trim p).isEmpty then none else some (trim p), s.drop 1) := by
  obtain ⟨htake, hdrop⟩ := takeWhile_dropWhile_append (p := (· != ')')) (u := p) (s := s)
    (fun c hc => by simp [hp c hc]) fun c hc => by simp [hs c hc]
  have hstart : trimStart ('(' :: (p ++ s)) = '(' :: (p ++ s) :=
    trimStart_of_head (by simp; decide)
  rw [splitParameters, hstart]
  simp only [htake, hdrop]

theorem splitParameters_of_head {s : List Char} (h : (trimStart s).head? ≠ some '(') :
    splitParameters s = (none, trimStart s) := by
  rw [splitParameters]
  split
  · rename_i heq
    rw [heq] at h
    exact absurd rfl h
  · rfl

/-- The **parameters** of a type. -/
structure Parameters where
  text : List Char
  ne_nil : text ≠ []
  trim_eq : trim text = text
  isPart_of_mem : ∀ c ∈ text, c ≠ ')' ∧ goesOn c = true

/-- A **statement** that alters a column. -/
structure AlterStatement extends Stem where
  parameters : Option Parameters
  /-- What stands in front of the attributes. -/
  gap : List Char
  isBlank_of_mem_gap : ∀ c ∈ gap, isBlank c = true ∧ c ≠ '\n'
  attributes : List Char
  trim_attributes : trim attributes = attributes
  goesOn_of_mem_attributes : ∀ c ∈ attributes, goesOn c = true
  /-- Attributes right behind the type stand apart from it, -/
  gap_ne_nil : parameters = none → attributes ≠ [] → gap ≠ []
  /-- and are not taken for parameters. -/
  head_attributes_ne : parameters = none → attributes.head? ≠ some '('

namespace AlterStatement

variable (w : AlterStatement)

/-- What is written behind the type. -/
def afterType : List Char :=
  match w.parameters with
  | some p => '(' :: (p.text ++ ')' :: (w.gap ++ w.attributes))
  | none => w.gap ++ w.attributes

/-- The **text** of a statement. -/
def text : List Char :=
  w.before w.afterType

/-- The alteration that a statement was written from. -/
def alteration : Alteration where
  table := String.ofList w.table.text
  column := String.ofList w.column.text
  renamed := w.form.renamed.map String.ofList
  sqlType := String.ofList w.type
  parameters := w.parameters.map fun p => String.ofList p.text
  attributes := String.ofList w.attributes

theorem goesOn_of_mem_afterType : ∀ c ∈ w.afterType, goesOn c = true := by
  have hrest : ∀ c ∈ w.gap ++ w.attributes, goesOn c = true := by
    intro c hc
    rcases List.mem_append.1 hc with hc | hc
    · obtain ⟨hblank, hne⟩ := w.isBlank_of_mem_gap c hc
      exact goesOn_of_isBlank hblank hne
    · exact w.goesOn_of_mem_attributes c hc
  intro c hc
  rw [afterType] at hc
  split at hc
  · rename_i p _
    rw [List.mem_cons, List.mem_append, List.mem_cons] at hc
    rcases hc with rfl | hc | rfl | hc
    · decide
    · exact (p.isPart_of_mem c hc).2
    · decide
    · exact hrest c hc
  · exact hrest c hc

theorem endsWord_head_afterType : ∀ c ∈ w.afterType.head?, endsWord c = true := by
  rw [afterType]
  split
  · intro c hc
    obtain rfl : '(' = c := by simpa using hc
    decide
  · rename_i hnone
    have hgap := w.gap_ne_nil hnone
    intro c hc
    cases hg : w.gap with
    | nil =>
      have hnil : w.attributes = [] := by
        by_contra hne
        exact hgap hne hg
      rw [hg, hnil] at hc
      exact absurd hc (by simp)
    | cons d gap =>
      rw [hg] at hc
      obtain rfl : d = c := by simpa using hc
      have hblank := (w.isBlank_of_mem_gap d (by rw [hg]; exact List.mem_cons_self)).1
      rw [endsWord, hblank]
      rfl

/-- The parameters and the attributes come back apart. -/
theorem splitParameters_afterType :
    (splitParameters w.afterType).1 = w.parameters.map (·.text) ∧
      trim (splitParameters w.afterType).2 = w.attributes := by
  have hgap : ∀ c ∈ w.gap, isBlank c = true := fun c hc => (w.isBlank_of_mem_gap c hc).1
  have htrim : trim (w.gap ++ w.attributes) = w.attributes := by
    rw [trim_append hgap, w.trim_attributes]
  rw [afterType]
  cases hp : w.parameters with
  | some p =>
    simp only
    rw [splitParameters_append (fun c hc => (p.isPart_of_mem c hc).1) (by simp), p.trim_eq,
      List.isEmpty_eq_false_iff.2 p.ne_nil]
    exact ⟨rfl, htrim⟩
  | none =>
    have hstart : trimStart (w.gap ++ w.attributes) = w.attributes := by
      rw [trimStart_append hgap, trimStart_of_trim_eq w.trim_attributes]
    simp only
    rw [splitParameters_of_head (by rw [hstart]; exact w.head_attributes_ne hp)]
    exact ⟨rfl, by rw [hstart, w.trim_attributes]⟩

/-- **Reading a statement gives back what it was written from**, in any letter case of its keywords
and with any gaps between its words, alone or in a call, in quotes of one kind or the other. -/
theorem parse?_text :
    parse? w.text = some w.alteration ∧ parse? (call '\'' w.text) = some w.alteration ∧
      parse? (call '"' w.text) = some w.alteration := by
  obtain ⟨hparameters, hattributes⟩ := w.splitParameters_afterType
  have hread : ∀ behind, (∀ c ∈ behind.head?, endsStatement c = true) →
      parse? (w.text ++ behind) = some w.alteration := by
    intro behind hbehind
    rw [text, ← w.before_append,
      w.parse?_before w.endsWord_head_afterType w.goesOn_of_mem_afterType hbehind,
      Stem.alteration, hparameters, hattributes, Option.map_map]
    rfl
  refine ⟨?_, ?_, ?_⟩
  · rw [← List.append_nil w.text]
    exact hread [] (by simp)
  · rw [parse?_call (by decide)]
    exact hread _ (by simp; decide)
  · rw [parse?_call (by decide)]
    exact hread _ (by simp; decide)

/-- A statement in which every word could be another one: a column with the name of the keyword gets
a new name in front of its type. -/
def renamedColumn : AlterStatement where
  alter := ⟨"Alter".toList, by decide⟩
  afterAlter := .space
  tableWord := ⟨"Table".toList, by decide⟩
  afterTableWord := ⟨[' ', ' '], by decide, by decide, by decide⟩
  table := ⟨"shop.orders".toList, by decide, by decide, true⟩
  afterTable := .space
  form := .rename ⟨"change".toList, by decide⟩ ⟨"status".toList, by decide, by decide, true⟩ .space
    (by decide)
  afterVerb := .space
  columnWord := some (⟨"Column".toList, by decide⟩, ⟨['\t'], by decide, by decide, by decide⟩)
  column := ⟨"column".toList, by decide, by decide, false⟩
  afterColumn := .space
  type := "varchar".toList
  type_ne_nil := by decide
  isTypePart_of_mem := by decide
  column_ne := nofun
  admits := trivial
  parameters := some ⟨"16".toList, by decide, by decide, by decide⟩
  gap := [' ']
  isBlank_of_mem_gap := by decide
  attributes := "not null".toList
  trim_attributes := by decide
  goesOn_of_mem_attributes := by decide
  gap_ne_nil := nofun
  head_attributes_ne := nofun

theorem parse?_text_renamedColumn :
    renamedColumn.text =
      ("Alter Table  \x60shop.orders\x60 change Column\tcolumn " ++
        "\x60status\x60 varchar(16) not null").toList ∧
    parse? (call '"' renamedColumn.text) = some {
      table := "shop.orders"
      column := "column"
      renamed := some "status"
      sqlType := "varchar"
      parameters := some "16"
      attributes := "not null" } :=
  ⟨by decide, renamedColumn.parse?_text.2.2.trans (by decide)⟩

end AlterStatement

end Sql

end SchemaHistory

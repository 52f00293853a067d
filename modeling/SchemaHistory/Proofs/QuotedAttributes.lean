import SchemaHistory.Proofs.AlterStatements
import SchemaHistory.Proofs.Phrases
import SchemaHistory.Replay.Definition

/-!
# Literals in an alteration

SQL has literals of its own: the values of an enumeration are parameters in single quotes, and a
default is an attribute with one. The reader of alterations does not know them. It looks for the end
of the call around a statement, and for it the statement ends at the first quote of any kind. So a
statement with literals (`SchemaHistory.Sql.QuotedStatement`) is read up to the first of them
(`SchemaHistory.Sql.QuotedStatement.parse?_call_text`).

Of what a statement says, the nullability suffers most, since a column admits the absence of a value
unless `NOT NULL` is found. It is found in the attributes in front of the first literal, and nowhere
else. So the nullability is the one that the statement asks for exactly if it does not ask for
`NOT NULL`, or does so in front of all literals
(`SchemaHistory.Sql.QuotedStatement.isNullable_iff`).
-/

namespace SchemaHistory

open Text Source

/-- A column that is altered admits the absence of a value if the alteration does. -/
theorem Column.nullable_altered (a : Alteration) (c : Option Column) (name : String) :
    (altered c name a).nullable = a.isNullable := rfl

namespace Sql

open Alteration

/-- A text with **literals** in single quotes. -/
structure QuotedText where
  /-- What stands in front of the first literal. -/
  first : List Char
  /-- The literals, and behind each of them what stands in front of the next one. -/
  rest : List (List Char × List Char)
  goesOn_of_mem : ∀ s ∈ first :: rest.map Prod.snd, ∀ c ∈ s, goesOn c = true
  isAsciiWordPart_of_mem : ∀ e ∈ rest, ∀ c ∈ e.1, isAsciiWordPart c = true

namespace QuotedText

variable (t : QuotedText)

/-- The pieces of a text outside its literals. -/
def plain : List (List Char) :=
  t.first :: t.rest.map Prod.snd

/-- The first literal and all behind it. -/
def behind : List Char :=
  t.rest.flatMap fun e => '\'' :: (e.1 ++ '\'' :: e.2)

/-- The text as it is written. -/
def text : List Char :=
  t.first ++ t.behind

theorem behind_eq_nil (h : t.rest = []) : t.behind = [] := by
  rw [behind, h, List.flatMap_nil]

/-- What stands behind the first piece begins with a quote. -/
theorem exists_behind_eq (h : t.rest ≠ []) : ∃ s, t.behind = '\'' :: s := by
  obtain ⟨e, rest, hrest⟩ := List.exists_cons_of_ne_nil h
  rw [behind, hrest, List.flatMap_cons]
  exact ⟨_, rfl⟩

theorem goesOn_of_mem_first : ∀ c ∈ t.first, goesOn c = true :=
  t.goesOn_of_mem t.first List.mem_cons_self

end QuotedText

/-- A **statement with literals**, among its parameters or its attributes. -/
structure QuotedStatement extends Stem where
  parameters : Option QuotedText
  attributes : QuotedText
  paren_not_mem : ∀ p ∈ parameters, ∀ s ∈ p.plain, ')' ∉ s
  /-- Attributes right behind the type stand apart from it, -/
  isBlank_head_attributes : parameters = none → ∀ c ∈ attributes.first.head?, isBlank c = true
  /-- and are not taken for parameters. -/
  head_attributes_ne : parameters = none → (trimStart attributes.first).head? ≠ some '('

namespace QuotedStatement

variable (w : QuotedStatement)

/-- What is written behind the type. -/
def afterType : List Char :=
  match w.parameters with
  | some p => '(' :: (p.text ++ ')' :: w.attributes.text)
  | none => w.attributes.text

/-- The **text** of a statement. -/
def text : List Char :=
  w.before w.afterType

/-- The pieces behind the type outside all literals. -/
def plain : List (List Char) :=
  w.parameters.elim [] QuotedText.plain ++ w.attributes.plain

/-- A statement **asks for `NOT NULL`** if it says so behind the type, outside all literals. -/
def AsksNotNull : Prop :=
  ∃ s ∈ w.plain, Says "not null".toList s

/-- A statement asks for `NOT NULL` **in front** if it does among the attributes and no literal
stands before it. -/
def AsksNotNullInFront : Prop :=
  (∀ p ∈ w.parameters, p.rest = []) ∧ Says "not null".toList w.attributes.first

theorem asksNotNull_of_inFront (h : w.AsksNotNullInFront) : w.AsksNotNull :=
  ⟨w.attributes.first, List.mem_append_right _ List.mem_cons_self, h.2⟩

/-! ### What is read -/

/-- What the reader takes for the text behind the type: all in front of the first literal. -/
def inFront : List Char :=
  match w.parameters with
  | some p =>
    if p.rest = [] then '(' :: (p.first ++ ')' :: w.attributes.first) else '(' :: p.first
  | none => w.attributes.first

/-- The rest is empty or begins with the quote of a literal. -/
theorem exists_afterType_eq :
    ∃ s, w.afterType = w.inFront ++ s ∧ ∀ c ∈ s.head?, endsStatement c = true := by
  have hquote : ∀ t : QuotedText, ∀ s, t.rest ≠ [] →
      ∀ c ∈ (t.behind ++ s).head?, endsStatement c = true := by
    intro t s hrest c hc
    obtain ⟨r, hr⟩ := t.exists_behind_eq hrest
    rw [hr] at hc
    obtain rfl : '\'' = c := by simpa using hc
    decide
  have hattributes : ∀ c ∈ w.attributes.behind.head?, endsStatement c = true := by
    by_cases hrest : w.attributes.rest = []
    · rw [w.attributes.behind_eq_nil hrest]
      simp
    · rw [← List.append_nil w.attributes.behind]
      exact hquote _ _ hrest
  rw [afterType, inFront]
  cases w.parameters with
  | none => exact ⟨w.attributes.behind, rfl, hattributes⟩
  | some p =>
    by_cases hrest : p.rest = []
    · refine ⟨w.attributes.behind, ?_, hattributes⟩
      simp [hrest, QuotedText.text, p.behind_eq_nil hrest]
    · refine ⟨p.behind ++ ')' :: w.attributes.text, ?_, hquote p _ hrest⟩
      simp [hrest, QuotedText.text]

theorem goesOn_of_mem_inFront : ∀ c ∈ w.inFront, goesOn c = true := by
  have hattributes := w.attributes.goesOn_of_mem_first
  rw [inFront]
  split
  · rename_i p _
    have hfirst := p.goesOn_of_mem_first
    intro c hc
    split at hc
    · rw [List.mem_cons, List.mem_append, List.mem_cons] at hc
      rcases hc with rfl | hc | rfl | hc
      · decide
      · exact hfirst c hc
      · decide
      · exact hattributes c hc
    · rcases List.mem_cons.1 hc with rfl | hc
      · decide
      · exact hfirst c hc
  · exact hattributes

theorem endsWord_head_inFront : ∀ c ∈ w.inFront.head?, endsWord c = true := by
  rw [inFront]
  split
  · intro c hc
    obtain rfl : '(' = c := by
      split at hc <;> simpa using hc
    decide
  · rename_i hnone
    intro c hc
    rw [endsWord, w.isBlank_head_attributes hnone c hc]
    rfl

/-- **A statement in a call is read up to its first literal.** -/
theorem parse?_call_text :
    parse? (call '"' w.text) = some (w.alteration (splitParameters w.inFront)) := by
  obtain ⟨s, hs, hhead⟩ := w.exists_afterType_eq
  have hbehind : ∀ c ∈ (s ++ '"' :: ");".toList).head?, endsStatement c = true := by
    cases s with
    | nil => simp; decide
    | cons d s => simpa using hhead
  rw [parse?_call (by decide), text, ← w.before_append, hs, List.append_assoc,
    w.parse?_before w.endsWord_head_inFront w.goesOn_of_mem_inFront hbehind]

/-! ### Nullability -/

/-- What is read as attributes says `NOT NULL` if the statement does so in front of all literals. -/
theorem says_attributes_iff :
    Says "not null".toList (splitParameters w.inFront).2 ↔ w.AsksNotNullInFront := by
  rw [inFront, AsksNotNullInFront]
  cases hparameters : w.parameters with
  | none =>
    simp only
    rw [splitParameters_of_head (w.head_attributes_ne hparameters),
      says_trimStart_iff (by decide) (by decide)]
    simp
  | some p =>
    have hfirst : ∀ c ∈ p.first, c ≠ ')' := by
      rintro c hc rfl
      exact w.paren_not_mem p hparameters p.first List.mem_cons_self hc
    by_cases hrest : p.rest = []
    · have hsplit := splitParameters_append (s := ')' :: w.attributes.first) hfirst (by simp)
      simp only [hrest, if_true, hsplit, List.drop_succ_cons, List.drop_zero, Option.mem_def,
        Option.some.injEq, forall_eq', true_and]
    · -- The parenthesis behind the literal is not seen, so all that is read is parameters.
      have hsplit := splitParameters_append (s := []) hfirst (by simp)
      rw [List.append_nil] at hsplit
      have hnone : ¬Says "not null".toList [] := by
        rintro ⟨v, hv, hmap⟩
        rw [List.infix_nil.1 hv] at hmap
        exact absurd hmap (by decide)
      simp only [hrest, if_false, hsplit, List.drop_nil, hnone, Option.mem_def, Option.some.injEq,
        forall_eq', false_and]

/-- **The nullability that is read** is the one that the statement asks for exactly if it does not
ask for `NOT NULL` only behind a literal or among its parameters. -/
theorem isNullable_iff :
    ∃ a, parse? (call '"' w.text) = some a ∧
      (∀ c name, (Column.altered c name a).nullable = a.isNullable) ∧
      (a.isNullable = true ↔ ¬w.AsksNotNullInFront) ∧
      ((a.isNullable = true ↔ ¬w.AsksNotNull) ↔ (w.AsksNotNull → w.AsksNotNullInFront)) := by
  have hnullable : (w.alteration (splitParameters w.inFront)).isNullable = true ↔
      ¬w.AsksNotNullInFront := by
    have hphrase : ∀ k ∈ "not null".toList, isAsciiImage k = true := by decide
    have hattributes : (w.alteration (splitParameters w.inFront)).attributes.toList =
        trim (splitParameters w.inFront).2 := String.toList_ofList
    rw [isNullable, Bool.not_eq_true', ← Bool.not_eq_true, mentions, hattributes,
      occursIn_lower_iff hphrase (by decide), says_trim_iff (by decide) (by decide) (by decide),
      says_attributes_iff]
  refine ⟨_, w.parse?_call_text, Column.nullable_altered _, hnullable, ?_⟩
  rw [hnullable, not_iff_not]
  exact ⟨fun h hasks => h.2 hasks, fun h => ⟨w.asksNotNull_of_inFront, h⟩⟩

/-- The stem of two statements on one column. -/
def stateStem : Stem where
  alter := ⟨"ALTER".toList, by decide⟩
  afterAlter := .space
  tableWord := ⟨"TABLE".toList, by decide⟩
  afterTableWord := .space
  table := ⟨"posts".toList, by decide, by decide, false⟩
  afterTable := .space
  form := .modify ⟨"MODIFY".toList, by decide⟩
  afterVerb := .space
  columnWord := none
  column := ⟨"state".toList, by decide, by decide, false⟩
  afterColumn := .space
  type := "VARCHAR".toList
  type_ne_nil := by decide
  isTypePart_of_mem := by decide
  column_ne := fun _ _ => by decide
  admits := trivial

/-- A statement that asks for `NOT NULL` in front of a default. -/
def orderedState : QuotedStatement where
  toStem := stateStem
  parameters := some ⟨"20".toList, [], by decide, by decide⟩
  attributes := ⟨" NOT NULL DEFAULT ".toList, [("x".toList, [])], by decide, by decide⟩
  paren_not_mem := by decide
  isBlank_head_attributes := nofun
  head_attributes_ne := nofun

theorem isNullable_iff_orderedState :
    orderedState.text = "ALTER TABLE posts MODIFY state VARCHAR(20) NOT NULL DEFAULT 'x'".toList ∧
      orderedState.AsksNotNullInFront ∧
      ∃ a, parse? (call '"' orderedState.text) = some a ∧ a.isNullable = false := by
  have hfront : orderedState.AsksNotNullInFront :=
    ⟨by decide, "NOT NULL".toList, ⟨[' '], " DEFAULT ".toList, rfl⟩, by decide⟩
  obtain ⟨a, ha, -, hread, -⟩ := orderedState.isNullable_iff
  refine ⟨by decide, hfront, a, ha, ?_⟩
  rw [← Bool.not_eq_true, hread, not_not]
  exact hfront

/-- A statement that asks for `NOT NULL` behind a default. -/
def defaultedState : QuotedStatement where
  toStem := stateStem
  parameters := some ⟨"20".toList, [], by decide, by decide⟩
  attributes := ⟨" DEFAULT ".toList, [("x".toList, " NOT NULL".toList)], by decide, by decide⟩
  paren_not_mem := by decide
  isBlank_head_attributes := nofun
  head_attributes_ne := nofun

/-- **A `NOT NULL` behind a default is overlooked.** -/
theorem isNullable_defaultedState :
    defaultedState.text = "ALTER TABLE posts MODIFY state VARCHAR(20) DEFAULT 'x' NOT NULL".toList ∧
      defaultedState.AsksNotNull ∧
      (parse? (call '"' defaultedState.text)).map isNullable = some true := by
  have hasks : defaultedState.AsksNotNull :=
    ⟨" NOT NULL".toList, by decide, "NOT NULL".toList, ⟨[' '], [], rfl⟩, by decide⟩
  refine ⟨by decide, hasks, ?_⟩
  rw [parse?_call_text]
  decide

end QuotedStatement

end Sql

end SchemaHistory

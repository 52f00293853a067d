import SchemaHistory.Proofs.Keyed
import SchemaHistory.Proofs.Recognition

/-!
# Plain schemas

Not every schema survives being written out and read back: a name with a quote in it, or a default
that is half a string, comes back as something else. A schema is **plain**
(`SchemaHistory.Schema.Plain`) if its names are made of letters, digits and underscores, its column
types have builder calls, and what is copied word for word is made of literals.

What a plain column or relationship writes is a chain of tame links
(`SchemaHistory.Column.Plain.tame_links`, `SchemaHistory.Relationship.Plain.tame_links`), which is
all that reading it back needs.
-/

namespace SchemaHistory

open Source Text

/-! ### Names and actions -/

/-- A **name**: ASCII letters, digits and underscores, and at least one of them. -/
structure IsName (s : String) : Prop where
  nonempty : s ≠ ""
  parts : ∀ c ∈ s.toList, isAsciiWordPart c = true

/-- A **referential action**: one name, or two with a space between them. -/
def IsAction (s : String) : Prop :=
  IsName s ∨ ∃ first second, IsName first ∧ IsName second ∧ s = first ++ " " ++ second

/-- The characters of a name do not matter to any reader. -/
theorem IsName.class_of_mem {s : String} (h : IsName s) {c : Char} (hc : c ∈ s.toList) :
    c ≠ '\'' ∧ c ≠ '\\' ∧ c ≠ '(' ∧ isInline c = true ∧ isBlank c = false := by
  obtain ⟨hinline, hinert, hblank, hescape, hparen⟩ :=
    class_of_isNamePart (isNamePart_of_isAsciiWordPart (h.parts c hc))
  exact ⟨(isInert_iff.1 hinert).1, hescape, hparen, hinline, hblank⟩

/-- A name can be quoted. -/
theorem IsName.quoted {s : String} (h : IsName s) : Quoted s where
  quotable := isQuotable_of_forall fun _ hc => ⟨(h.class_of_mem hc).1, (h.class_of_mem hc).2.1⟩
  inline := fun _ hc => (h.class_of_mem hc).2.2.2.1
  escapeFree := fun hc => (h.class_of_mem hc).2.1 rfl
  quiet := by
    refine quiet_of_not_isBlank fun c hc => ?_
    rw [toList_literal, List.mem_cons, List.mem_append, List.mem_singleton] at hc
    rcases hc with rfl | hc | rfl
    · decide
    · exact (h.class_of_mem hc).2.2.2.2
    · decide

/-- An action can be quoted. -/
theorem IsAction.quoted {s : String} (h : IsAction s) : Quoted s := by
  rcases h with h | ⟨u, v, hu, hv, rfl⟩
  · exact h.quoted
  have htext : (u ++ " " ++ v).toList = u.toList ++ ' ' :: v.toList := by
    simp [String.toList_append]
  have hchars : ∀ c ∈ (u ++ " " ++ v).toList, c ≠ '\'' ∧ c ≠ '\\' ∧ isInline c = true := by
    intro c hc
    rw [htext, List.mem_append, List.mem_cons] at hc
    rcases hc with hc | rfl | hc
    · obtain ⟨h1, h2, -, h3, -⟩ := hu.class_of_mem hc
      exact ⟨h1, h2, h3⟩
    · decide
    · obtain ⟨h1, h2, -, h3, -⟩ := hv.class_of_mem hc
      exact ⟨h1, h2, h3⟩
  refine ⟨⟨?_, fun c hc => (hchars c hc).2.2⟩, fun hc => (hchars _ hc).2.1 rfl, ?_⟩
  · exact isQuotable_of_forall fun c hc => ⟨(hchars c hc).1, (hchars c hc).2.1⟩
  · have hfirst : ∀ c ∈ u.toList, isBlank c = false := fun _ hc => (hu.class_of_mem hc).2.2.2.2
    have hsecond : ∀ c ∈ v.toList, isBlank c = false ∧ c ≠ '(' := fun _ hc =>
      ⟨(hv.class_of_mem hc).2.2.2.2, (hv.class_of_mem hc).2.2.1⟩
    have hquoted := quiet_quoted hfirst hsecond
    rw [toList_literal, htext]
    simpa using hquoted

/-! ### Literals as strings -/

theorem copyable_of_tame {s : String} (h : Tame s.toList) : Copyable s :=
  ⟨h.sealed, h.inline⟩

/-- What is tame and not empty is read back as it was copied. -/
theorem legible_of_tame {s : String} (h : Tame s.toList) (hne : s.toList ≠ []) : Legible s where
  toCopyable := copyable_of_tame h
  nonempty := fun hs => hne (String.toList_eq_nil_iff.2 hs)
  starts := h.starts
  tight := h.tight
  level := h.level

theorem IsLiteral.legible {s : String} (h : IsLiteral s.toList) : Legible s :=
  legible_of_tame h.tame h.ne_nil

theorem IsLiteralList.legible {s : String} (h : IsLiteralList s.toList) : Legible s :=
  legible_of_tame h.tame h.ne_nil

/-! ### Plain columns -/

/-- A **plain** column. -/
structure Column.Plain (c : Column) : Prop where
  builder : ∃ b, c.type = .builder b
  name : IsName c.name
  /-- A structural column is named after its type. -/
  structural : c.isStructural = true → c.name = c.type.name
  parameters : ∀ text ∈ c.parameters, IsLiteralList text.toList
  default : ∀ text ∈ c.default, IsLiteral text.toList

namespace Column.Plain

variable {c : Column}

theorem writable (h : c.Plain) : c.Writable where
  builder := h.builder
  name := fun _ => h.name.quoted.toQuotable
  parameters := fun text htext => copyable_of_tame (h.parameters text htext).tame
  default := fun text htext => copyable_of_tame (h.default text htext).tame

/-- The arguments of the call that defines a plain column are tame. -/
theorem tame_argumentsText (h : c.Plain) : Tame c.argumentsText.toList := by
  rw [argumentsText]
  cases hs : c.isStructural with
  | true =>
    rw [if_pos rfl]
    cases hp : c.parameters with
    | none => exact .nil
    | some text => exact (h.parameters text hp).tame
  | false =>
    rw [if_neg (by simp)]
    cases hp : c.parameters with
    | none => exact h.name.quoted.tame
    | some text =>
      have hlist := h.parameters text hp
      have htext : (literal c.name ++ ", " ++ text).toList =
          (literal c.name).toList ++ ',' :: ([' '] ++ text.toList) := by
        simp [String.toList_append]
      have hspaces : ∀ d ∈ [' '], d = ' ' := by simp
      change Tame (literal c.name ++ ", " ++ text).toList
      rw [htext]
      exact h.name.quoted.tame.comma hlist.tame hlist.ne_nil hspaces

theorem tame_links (h : c.Plain) : ∀ l ∈ c.links, l.Tame := by
  obtain ⟨b, hb⟩ := h.builder
  have hdefault : isWord "default".toList = true := by decide
  intro l hl
  rcases mem_links hl with rfl | ⟨flag, hflag, rfl⟩ | ⟨text, htext, rfl⟩
  · exact ⟨by rw [hb]; exact b.isWord_name, h.tame_argumentsText⟩
  · exact ⟨isWord_of_mem_flagNames hflag, .nil⟩
  · exact ⟨hdefault, (h.default text htext).tame⟩

end Column.Plain

/-! ### Plain relationships, tables and schemas -/

/-- A **plain** relationship. -/
structure Relationship.Plain (r : Relationship) : Prop where
  localColumn : IsName r.localColumn
  foreignColumn : IsName r.foreignColumn
  foreignTable : IsName r.foreignTable
  onDelete : ∀ action ∈ r.onDelete, IsAction action
  onUpdate : ∀ action ∈ r.onUpdate, IsAction action

namespace Relationship.Plain

variable {r : Relationship}

theorem writable (h : r.Plain) : r.Writable where
  localColumn := h.localColumn.quoted.toQuotable
  foreignColumn := h.foreignColumn.quoted.toQuotable
  foreignTable := h.foreignTable.quoted.toQuotable
  onDelete := fun action ha => (h.onDelete action ha).quoted.toQuotable
  onUpdate := fun action ha => (h.onUpdate action ha).quoted.toQuotable

theorem tame_links (h : r.Plain) : ∀ l ∈ r.links, l.Tame := by
  intro l hl
  obtain ⟨call, value, hcall, rfl, hvalue⟩ := mem_links hl
  have hquoted : Quoted value := by
    rcases hvalue with rfl | rfl | rfl | ha | ha
    · exact h.localColumn.quoted
    · exact h.foreignColumn.quoted
    · exact h.foreignTable.quoted
    · exact (h.onDelete value ha).quoted
    · exact (h.onUpdate value ha).quoted
  exact ⟨hcall, hquoted.tame⟩

end Relationship.Plain

/-- A **plain** table. -/
structure Table.Plain (t : Table) : Prop where
  name : IsName t.name
  engine : ∀ value ∈ t.engine, IsName value
  charset : ∀ value ∈ t.charset, IsName value
  collation : ∀ value ∈ t.collation, IsName value
  primaryKey : ∀ key ∈ t.primaryKey, IsName key
  columns : ∀ c ∈ t.columns.values, c.Plain
  /-- The columns are stored under their names. -/
  keys : ∀ e ∈ t.columns.entries, e.2.name = e.1
  relationships : ∀ r ∈ t.relationships, r.Plain
  /-- No two relationships belong to one column. -/
  distinct : (t.relationships.map (·.localColumn)).Nodup

theorem Table.Plain.writable {t : Table} (h : t.Plain) : t.Writable where
  name := h.name.quoted.toQuotable
  engine := fun value hv => (h.engine value hv).quoted.toQuotable
  charset := fun value hv => (h.charset value hv).quoted.toQuotable
  collation := fun value hv => (h.collation value hv).quoted.toQuotable
  columns := fun c hc => (h.columns c hc).writable
  primaryKey := fun key hk => (h.primaryKey key hk).quoted.toQuotable
  relationships := fun r hr => (h.relationships r hr).writable

/-- A **plain** schema: plain tables, stored under their names. -/
structure Schema.Plain (s : Schema) : Prop where
  keyed : s.Keyed
  tables : ∀ t ∈ s.tables.values, t.Plain

end SchemaHistory

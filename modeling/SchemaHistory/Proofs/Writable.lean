import SchemaHistory.Proofs.ChainText
import SchemaHistory.Proofs.ScriptLines

/-!
# Tables that can be written

The script of a table puts names between quotes and copies the parameters and defaults of columns
word for word. It says what it is meant to say only if a name is quotable, so that its string ends
where it should, and if a copied text is sealed, so that no string and no comment goes on behind
it; and neither may end a line. A table of which all this holds is **writable**
(`SchemaHistory.Table.Writable`), and each of its statements is then one logical line
(`SchemaHistory.Table.Writable.isLine`).

The statements for columns, for the primary key and for relationships are chains, and the links of
each are given here (`SchemaHistory.Column.links` and the like).
-/

namespace SchemaHistory

open Source Text

/-! ### Texts that can be written -/

/-- A text that can be written **between quotes**. -/
structure Quotable (s : String) : Prop where
  quotable : isQuotable s.toList = true
  inline : ∀ c ∈ s.toList, isInline c = true

/-- A text that can be written **word for word**. -/
structure Copyable (s : String) : Prop where
  sealed : Sealed s.toList
  inline : ∀ c ∈ s.toList, isInline c = true

theorem toList_literal (s : String) : (literal s).toList = '\'' :: (s.toList ++ ['\'']) := by
  rw [literal, String.toList_append, String.toList_append]
  rfl

theorem copyable_empty : Copyable "" := by
  constructor
  · decide
  · decide

/-- A string literal can be written word for word, also in front of more that can. -/
theorem Quotable.sealed_append {s : String} (h : Quotable s) {t : List Char} (ht : Sealed t) :
    Sealed ((literal s).toList ++ t) := by
  have htext : (literal s).toList ++ t = '\'' :: (s.toList ++ '\'' :: t) := by
    simp [toList_literal]
  rw [htext, Sealed, regionAfter_quote _ (by decide), regionAfter_of_isQuotable h.quotable]
  exact ht

theorem Quotable.copyable {s : String} (h : Quotable s) : Copyable (literal s) where
  sealed := by
    have hs := h.sealed_append .nil
    rwa [List.append_nil] at hs
  inline := by
    intro c hc
    rw [toList_literal, List.mem_cons, List.mem_append, List.mem_singleton] at hc
    rcases hc with rfl | hc | rfl
    · decide
    · exact h.inline c hc
    · decide

/-- A string literal, a comma and a text that can be written word for word. -/
theorem Quotable.copyable_append {s t : String} (h : Quotable s) (ht : Copyable t) :
    Copyable (literal s ++ ", " ++ t) where
  sealed := by
    rw [String.toList_append, String.toList_append, List.append_assoc]
    refine h.sealed_append ?_
    exact (Sealed.cons_iff (by decide)).2 ((Sealed.cons_iff (by decide)).2 ht.sealed)
  inline := by
    intro c hc
    rw [String.toList_append, String.toList_append, List.append_assoc, List.mem_append,
      List.mem_append] at hc
    rcases hc with hc | hc | hc
    · exact h.copyable.inline c hc
    · exact (by decide : ∀ c ∈ ", ".toList, isInline c = true) c hc
    · exact ht.inline c hc

/-! ### Links -/

/-- The links for the modifiers of a column. -/
def Column.modifierLinks (c : Column) : List Link :=
  (if c.unsigned then [⟨"unsigned", ""⟩] else []) ++
    ((if c.nullable then [⟨"nullable", ""⟩] else []) ++
      ((if c.unique then [⟨"unique", ""⟩] else []) ++
        (c.default.map fun text => ⟨"default", text⟩).toList))

/-- The **links** of the statement that defines a column. -/
def Column.links (c : Column) : List Link :=
  ⟨c.type.name, c.argumentsText⟩ :: c.modifierLinks

/-- The link that says what happens to a relationship, if anything is said. -/
def Relationship.actionLinks (call : String) (action : Option String) : List Link :=
  (action.map fun a => ⟨call, literal a⟩).toList

/-- The **links** of the statement that defines a relationship. -/
def Relationship.links (r : Relationship) : List Link :=
  ⟨"foreign", literal r.localColumn⟩ :: ⟨"references", literal r.foreignColumn⟩ ::
    ⟨"on", literal r.foreignTable⟩ ::
      (actionLinks "onDelete" r.onDelete ++ actionLinks "onUpdate" r.onUpdate)

/-- A link as a string. -/
def Link.string (l : Link) : String :=
  "->" ++ l.name ++ "(" ++ l.inside ++ ")"

theorem Link.toList_string (l : Link) : l.string.toList = l.text := by
  rw [string]
  simp only [String.toList_append, List.append_assoc]
  rfl

theorem Column.toList_modifiersText (c : Column) :
    c.modifiersText.toList = c.modifierLinks.flatMap Link.text := by
  have hunsigned : "->unsigned()" = Link.string ⟨"unsigned", ""⟩ := by decide
  have hnullable : "->nullable()" = Link.string ⟨"nullable", ""⟩ := by decide
  have hunique : "->unique()" = Link.string ⟨"unique", ""⟩ := by decide
  have hconst : "->default(" = "->" ++ "default" ++ "(" := by decide
  have hdefault : ∀ text, "->default(" ++ text ++ ")" = Link.string ⟨"default", text⟩ := by
    intro text
    rw [hconst]
    rfl
  simp only [modifiersText, modifierLinks, hunsigned, hnullable, hunique, hdefault,
    String.toList_append, List.flatMap_append, List.append_assoc]
  congr 1
  · split <;> simp [Link.toList_string]
  congr 1
  · split <;> simp [Link.toList_string]
  congr 1
  · split <;> simp [Link.toList_string]
  · cases c.default with
    | none => rfl
    | some text => simp [Link.toList_string]

theorem toList_tableVariable : "$table".toList = tableVariable := by
  decide

/-- The statement for a column is a chain. -/
theorem Column.toList_statement (c : Column) : c.statement.toList = chainText c.links := by
  have hhead : "$table->" = "$table" ++ "->" := by decide
  have hstatement : c.statement =
      "$table" ++ (Link.string ⟨c.type.name, c.argumentsText⟩ ++ (c.modifiersText ++ ";")) := by
    unfold statement Link.string
    simp only [hhead, String.append_assoc]
  simp only [hstatement, String.toList_append, toList_tableVariable, Link.toList_string,
    toList_modifiersText, chainText, links, List.flatMap_cons, List.append_assoc]
  rfl

theorem Relationship.toList_actionText (call : String) (action : Option String) :
    (actionText call action).toList = (actionLinks call action).flatMap Link.text := by
  cases action with
  | none => rfl
  | some a =>
    have htext : actionText call (some a) = Link.string ⟨call, literal a⟩ := rfl
    simp [htext, Link.toList_string, actionLinks]

/-- The statement for a relationship is a chain. -/
theorem Relationship.toList_statement (r : Relationship) :
    r.statement.toList = chainText r.links := by
  have hforeign : "$table->foreign(" = "$table" ++ ("->" ++ "foreign" ++ "(") := by decide
  have hreferences : ")->references(" = ")" ++ ("->" ++ "references" ++ "(") := by decide
  have hon : ")->on(" = ")" ++ ("->" ++ "on" ++ "(") := by decide
  have hstatement : r.statement = "$table" ++
      (Link.string ⟨"foreign", literal r.localColumn⟩ ++
        (Link.string ⟨"references", literal r.foreignColumn⟩ ++
          (Link.string ⟨"on", literal r.foreignTable⟩ ++
            (actionText "onDelete" r.onDelete ++ (actionText "onUpdate" r.onUpdate ++ ";"))))) := by
    unfold statement Link.string
    simp only [hforeign, hreferences, hon, String.append_assoc]
  simp only [hstatement, String.toList_append, toList_tableVariable, Link.toList_string,
    toList_actionText, chainText, links, List.flatMap_cons, List.flatMap_append, List.append_assoc]
  rfl

/-- The statement for the primary key is a chain. -/
theorem toList_primary (key : String) :
    ("$table->primary(" ++ literal key ++ ");").toList = chainText [⟨"primary", literal key⟩] := by
  have hprimary : "$table->primary(" = "$table" ++ ("->" ++ "primary" ++ "(") := by decide
  have hend : ");" = ")" ++ ";" := by decide
  have hstatement : "$table->primary(" ++ literal key ++ ");" =
      "$table" ++ (Link.string ⟨"primary", literal key⟩ ++ ";") := by
    unfold Link.string
    simp only [hprimary, hend, String.append_assoc]
  simp only [hstatement, String.toList_append, toList_tableVariable, Link.toList_string, chainText,
    List.flatMap_cons, List.flatMap_nil, List.append_nil]
  rfl

/-- The statement that gives an option its value. -/
def optionText (property value : String) : List Char :=
  tableVariable ++ '-' :: '>' :: (property.toList ++ ' ' :: '=' :: ' ' ::
    '\'' :: (value.toList ++ '\'' :: [';']))

theorem toList_option (property value : String) :
    ("$table->" ++ property ++ " = " ++ literal value ++ ";").toList = optionText property value := by
  have hhead : "$table->".toList = tableVariable ++ ['-', '>'] := by decide
  have hequals : " = ".toList = [' ', '=', ' '] := by decide
  have hend : ";".toList = [';'] := by decide
  simp only [String.toList_append, hhead, hequals, hend, toList_literal, optionText,
    List.append_assoc, List.cons_append, List.nil_append]

/-! ### Writable tables -/

/-- A column that can be written: its type has a call, and its texts can be written. -/
structure Column.Writable (c : Column) : Prop where
  builder : ∃ b, c.type = .builder b
  /-- A structural column is written without its name. -/
  name : c.isStructural = false → Quotable c.name
  parameters : ∀ text ∈ c.parameters, Copyable text
  default : ∀ text ∈ c.default, Copyable text

/-- A relationship that can be written. -/
structure Relationship.Writable (r : Relationship) : Prop where
  localColumn : Quotable r.localColumn
  foreignColumn : Quotable r.foreignColumn
  foreignTable : Quotable r.foreignTable
  onDelete : ∀ action ∈ r.onDelete, Quotable action
  onUpdate : ∀ action ∈ r.onUpdate, Quotable action

/-- A table that can be **written**. -/
structure Table.Writable (t : Table) : Prop where
  name : Quotable t.name
  engine : ∀ value ∈ t.engine, Quotable value
  charset : ∀ value ∈ t.charset, Quotable value
  collation : ∀ value ∈ t.collation, Quotable value
  columns : ∀ c ∈ t.columns.values, c.Writable
  primaryKey : ∀ key ∈ t.primaryKey, Quotable key
  relationships : ∀ r ∈ t.relationships, r.Writable

/-- A link that can be written. -/
structure Link.Writable (l : Link) : Prop extends l.Proper where
  inline : ∀ c ∈ l.inside.toList, isInline c = true

theorem Copyable.link {name inside : String} (h : Copyable inside)
    (hname : isWord name.toList = true) : Link.Writable ⟨name, inside⟩ where
  name := hname
  inside := h.sealed
  inline := h.inline

theorem isLine_of_writable {ls : List Link} (h : ∀ l ∈ ls, l.Writable) : IsLine (chainText ls) :=
  isLine_chainText (fun l hl => (h l hl).toProper) fun l hl => (h l hl).inline

theorem Builder.isWord_name (b : Builder) : isWord b.name.toList = true := by
  cases b <;> decide

theorem Column.Writable.copyable_argumentsText {c : Column} (h : c.Writable) :
    Copyable c.argumentsText := by
  rw [Column.argumentsText]
  cases hs : c.isStructural with
  | true =>
    rw [if_pos rfl]
    cases hp : c.parameters with
    | none => exact copyable_empty
    | some text => exact h.parameters text hp
  | false =>
    rw [if_neg (by simp)]
    cases hp : c.parameters with
    | none => exact (h.name hs).copyable
    | some text => exact (h.name hs).copyable_append (h.parameters text hp)

/-- The names of the links that have no arguments. -/
def Column.flagNames : List String :=
  ["unsigned", "nullable", "unique"]

/-- The links of a column: its call, its flags, and its default. -/
theorem Column.mem_links {c : Column} {l : Link} (h : l ∈ c.links) :
    l = ⟨c.type.name, c.argumentsText⟩ ∨ (∃ flag ∈ flagNames, l = ⟨flag, ""⟩) ∨
      ∃ text, c.default = some text ∧ l = ⟨"default", text⟩ := by
  have hflag : ∀ {flag : Bool} {name : String}, name ∈ flagNames →
      l ∈ (if flag then [⟨name, ""⟩] else []) → ∃ f ∈ flagNames, l = ⟨f, ""⟩ := by
    intro flag name hname hl
    cases flag with
    | true => exact ⟨name, hname, by simpa using hl⟩
    | false => simp at hl
  rcases List.mem_cons.1 h with rfl | h
  · exact Or.inl rfl
  simp only [modifierLinks, List.mem_append, Option.mem_toList, Option.map_eq_some_iff] at h
  rcases h with h | h | h | ⟨text, htext, rfl⟩
  · exact Or.inr (Or.inl (hflag (by decide) h))
  · exact Or.inr (Or.inl (hflag (by decide) h))
  · exact Or.inr (Or.inl (hflag (by decide) h))
  · exact Or.inr (Or.inr ⟨text, htext, rfl⟩)

theorem Column.isWord_of_mem_flagNames {flag : String} (h : flag ∈ flagNames) :
    isWord flag.toList = true := by
  have hall : ∀ flag ∈ flagNames, isWord flag.toList = true := by decide
  exact hall flag h

theorem Column.Writable.links {c : Column} (h : c.Writable) : ∀ l ∈ c.links, l.Writable := by
  obtain ⟨b, hb⟩ := h.builder
  intro l hl
  rcases Column.mem_links hl with rfl | ⟨flag, hflag, rfl⟩ | ⟨text, htext, rfl⟩
  · exact h.copyable_argumentsText.link (by rw [hb]; exact b.isWord_name)
  · exact copyable_empty.link (Column.isWord_of_mem_flagNames hflag)
  · exact (h.default text htext).link (by decide)

/-- The links of a relationship: each has one string for its argument. -/
theorem Relationship.mem_links {r : Relationship} {l : Link} (h : l ∈ r.links) :
    ∃ call value, isWord call.toList = true ∧ l = ⟨call, literal value⟩ ∧
      (value = r.localColumn ∨ value = r.foreignColumn ∨ value = r.foreignTable ∨
        r.onDelete = some value ∨ r.onUpdate = some value) := by
  simp only [Relationship.links, List.mem_cons, List.mem_append, actionLinks, Option.mem_toList,
    Option.map_eq_some_iff] at h
  rcases h with rfl | rfl | rfl | ⟨a, ha, rfl⟩ | ⟨a, ha, rfl⟩
  · exact ⟨_, _, by decide, rfl, by simp⟩
  · exact ⟨_, _, by decide, rfl, by simp⟩
  · exact ⟨_, _, by decide, rfl, by simp⟩
  · exact ⟨_, _, by decide, rfl, by simp [ha]⟩
  · exact ⟨_, _, by decide, rfl, by simp [ha]⟩

/-- What a relationship that can be written has between quotes is quotable. -/
theorem Relationship.Writable.exists_of_mem_links {r : Relationship} (h : r.Writable) {l : Link}
    (hl : l ∈ r.links) :
    ∃ call value, isWord call.toList = true ∧ Quotable value ∧ l = ⟨call, literal value⟩ := by
  obtain ⟨call, value, hcall, rfl, hvalue⟩ := Relationship.mem_links hl
  refine ⟨call, value, hcall, ?_, rfl⟩
  rcases hvalue with rfl | rfl | rfl | ha | ha
  · exact h.localColumn
  · exact h.foreignColumn
  · exact h.foreignTable
  · exact h.onDelete value ha
  · exact h.onUpdate value ha

/-- Whatever a relationship has between quotes can stand there. -/
theorem Relationship.Writable.links {r : Relationship} (h : r.Writable) :
    ∀ l ∈ r.links, l.Writable := by
  intro l hl
  obtain ⟨call, value, hcall, hvalue, rfl⟩ := h.exists_of_mem_links hl
  exact hvalue.copyable.link hcall

/-! ### The lines of a writable table -/

theorem isLine_option {property value : String} (hp : isWord property.toList = true)
    (hv : Quotable value) : IsLine (optionText property value) := by
  have htext : optionText property value = (tableVariable ++ '-' :: '>' :: (property.toList ++
      ' ' :: '=' :: ' ' :: '\'' :: (value.toList ++ ['\'']))) ++ [';'] := by
    simp [optionText]
  have hname := isAsciiWordPart_of_isWord hp
  rw [htext]
  refine .of_inline ?_ ?_ (by decide) ?_
  · intro c hc
    obtain rfl : '$' = c := by simpa [tableVariable] using hc
    decide
  · intro c hc
    simp only [List.mem_append, List.mem_cons, List.not_mem_nil, or_false] at hc
    rcases hc with hc | rfl | rfl | hc | rfl | rfl | rfl | rfl | hc | rfl
    · exact (by decide : ∀ c ∈ tableVariable, isInline c = true) c hc
    · decide
    · decide
    · exact isInline_of_isAsciiWordPart (hname c hc)
    · decide
    · decide
    · decide
    · decide
    · exact hv.inline c hc
    · decide
  · have hinert : ∀ c ∈ property.toList, isInert c = true := fun c hc =>
      (class_of_isAsciiWordPart (hname c hc)).2.2.2.1
    rw [← htext, optionText, Sealed.append_iff (by decide), Sealed.cons_iff (by decide),
      Sealed.cons_iff (by decide), Sealed.append_iff hinert, Sealed.cons_iff (by decide),
      Sealed.cons_iff (by decide), Sealed.cons_iff (by decide), Sealed,
      regionAfter_quote _ (by decide), regionAfter_of_isQuotable hv.quotable]
    decide

namespace Table

/-- The statements of a table are of four kinds. -/
theorem mem_statements {t : Table} {st : String} (h : st ∈ t.statements) :
    (∃ property value, (property = "engine" ∧ t.engine = some value ∨
        property = "charset" ∧ t.charset = some value ∨
        property = "collation" ∧ t.collation = some value) ∧
        st.toList = optionText property value) ∨
      (∃ c ∈ t.columns.values, st.toList = chainText c.links) ∨
      (∃ key, t.primaryKey = some key ∧ st.toList = chainText [⟨"primary", literal key⟩]) ∨
      ∃ r ∈ t.relationships, st.toList = chainText r.links := by
  have hoption : ∀ {property : String} {value : Option String},
      st ∈ (optionStatement? property value).toList →
        ∃ v, value = some v ∧ st.toList = optionText property v := by
    intro property value hst
    obtain ⟨v, hv, rfl⟩ := Option.map_eq_some_iff.1 (Option.mem_toList.1 hst)
    exact ⟨v, hv, toList_option property v⟩
  simp only [statements, List.mem_append] at h
  rcases h with ((((h | h) | h) | h) | h) | h
  · obtain ⟨v, hv, hst⟩ := hoption h
    exact Or.inl ⟨_, v, Or.inl ⟨rfl, hv⟩, hst⟩
  · obtain ⟨v, hv, hst⟩ := hoption h
    exact Or.inl ⟨_, v, Or.inr (Or.inl ⟨rfl, hv⟩), hst⟩
  · obtain ⟨v, hv, hst⟩ := hoption h
    exact Or.inl ⟨_, v, Or.inr (Or.inr ⟨rfl, hv⟩), hst⟩
  · obtain ⟨c, hc, rfl⟩ := List.mem_map.1 h
    exact Or.inr (Or.inl ⟨c, hc, c.toList_statement⟩)
  · obtain ⟨key, hkey, hst⟩ := Option.bind_eq_some_iff.1 (Option.mem_toList.1 h)
    have hprimary : st = "$table->primary(" ++ literal key ++ ");" := by
      split at hst
      · split at hst
        · exact absurd hst (by simp)
        · exact (Option.some.inj hst).symm
      · exact (Option.some.inj hst).symm
    exact Or.inr (Or.inr (Or.inl ⟨key, hkey, hprimary ▸ toList_primary key⟩))
  · obtain ⟨r, hr, rfl⟩ := List.mem_map.1 h
    exact Or.inr (Or.inr (Or.inr ⟨r, hr, r.toList_statement⟩))

/-- **Each statement of a writable table is one line.** -/
theorem Writable.isLine {t : Table} (h : t.Writable) : ∀ st ∈ t.statements, IsLine st.toList := by
  intro st hst
  rcases mem_statements hst with ⟨property, value, hoption, hst⟩ | ⟨c, hc, hst⟩ | ⟨key, hkey, hst⟩ |
      ⟨r, hr, hst⟩ <;> rw [hst]
  · rcases hoption with ⟨rfl, hv⟩ | ⟨rfl, hv⟩ | ⟨rfl, hv⟩
    · exact isLine_option (by decide) (h.engine value hv)
    · exact isLine_option (by decide) (h.charset value hv)
    · exact isLine_option (by decide) (h.collation value hv)
  · exact isLine_of_writable (h.columns c hc).links
  · refine isLine_of_writable fun l hl => ?_
    obtain rfl := List.mem_singleton.1 hl
    exact (h.primaryKey key hkey).copyable.link (by decide)
  · exact isLine_of_writable (h.relationships r hr).links

/-- The text of the statement that opens a table. -/
theorem toList_createText (t : Table) : t.createText.toList =
    "Schema::create(".toList ++ '\'' :: (t.name.toList ++ '\'' ::
      ", function (Blueprint $table) \x7b".toList) := by
  have hopen : "Schema::create('".toList = "Schema::create(".toList ++ ['\''] := by decide
  have hclose : "', function (Blueprint $table) \x7b".toList =
      '\'' :: ", function (Blueprint $table) \x7b".toList := by decide
  unfold createText
  simp only [String.toList_append, hopen, hclose, List.append_assoc, List.cons_append,
    List.nil_append]

/-- The statement that opens a writable table is one line. -/
theorem Writable.isLine_createText {t : Table} (h : t.Writable) : IsLine t.createText.toList := by
  have hlast : ", function (Blueprint $table) \x7b".toList =
      ", function (Blueprint $table) ".toList ++ ['\x7b'] := by decide
  have htext : t.createText.toList = ("Schema::create(".toList ++ '\'' :: (t.name.toList ++
      '\'' :: ", function (Blueprint $table) ".toList)) ++ ['\x7b'] := by
    simp only [toList_createText, hlast, List.append_assoc, List.cons_append]
  have hsealed : Sealed t.createText.toList := by
    rw [toList_createText, Sealed.append_iff (by decide), Sealed, regionAfter_quote _ (by decide),
      regionAfter_of_isQuotable h.name.quotable]
    decide
  rw [htext] at hsealed ⊢
  refine .of_inline ?_ ?_ (by decide) hsealed
  · intro c hc
    obtain rfl : 'S' = c := Option.some.inj hc
    decide
  · intro c hc
    rw [List.mem_append, List.mem_cons, List.mem_append, List.mem_cons] at hc
    rcases hc with hc | rfl | hc | rfl | hc
    · exact (by decide : ∀ c ∈ "Schema::create(".toList, isInline c = true) c hc
    · decide
    · exact h.name.inline c hc
    · decide
    · exact (by decide : ∀ c ∈ ", function (Blueprint $table) ".toList, isInline c = true) c hc

/-- The name of the class of a writable table neither ends lines nor breaks them. -/
theorem Writable.className_inline {t : Table} (h : t.Writable) :
    ∀ c ∈ (className t.name).toList, endsLine c = false ∧ c ≠ '\n' := by
  have hmark : ∀ m, isMark m = true ∧ m ≠ '_' → isInline m = false →
      m ∉ (className t.name).toList := by
    intro m hm hinline hmem
    have hname := h.name.inline m (mem_of_mem_className hm.1 hm.2 hmem)
    rw [hinline] at hname
    exact absurd hname (by simp)
  intro c hc
  refine ⟨?_, ?_⟩
  · cases he : endsLine c with
    | false => rfl
    | true =>
      have hends : c = '\x7b' ∨ c = ';' ∨ c = '\x7d' := by simpa [endsLine, or_assoc] using he
      refine absurd hc (hmark c ?_ (by simp [isInline, he]))
      rcases hends with rfl | rfl | rfl <;> decide
  · rintro rfl
    exact hmark '\n' (by decide) (by decide) hc

end Table

end SchemaHistory

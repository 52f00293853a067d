import SchemaHistory.Proofs.HarmlessLines
import SchemaHistory.Proofs.UnbrokenSchemas

/-!
# Tables whose scripts can be replayed

Not every table that a replay can build has a script that a replay takes back. A type that only
SQL has a name for is written as a call that no table knows; a name is written between quotes
without escapes, and a parameter or a default word for word. A table is **replayable**
(`SchemaHistory.Table.Replayable`) if nothing of that kind stands in its script: it may hold escapes
and any brackets in its texts, as long as its strings end where they should.

Together with what every replay keeps out of a schema, namely line breaks and closing braces, this
is enough for the script to have one logical line for each statement
(`SchemaHistory.Table.Replayable.writable`), and for each of them to be harmless
(`SchemaHistory.Table.Replayable.harmless`).
-/

namespace SchemaHistory

open Source Text

/-! ### Replayable tables -/

/-- A text that a script can hold **between quotes**: a backslash stands before each of its
quotes, and no logical line ends in it. -/
structure Enclosable (s : String) : Prop where
  quotable : isQuotable s.toList = true
  undivided : ∀ c ∈ s.toList, c ≠ ';' ∧ c ≠ '\x7b'

/-- A text that a script can hold **word for word**: its strings are closed, no logical line ends
in it, and it makes no call on the schema class. -/
structure Embeddable (s : String) : Prop where
  sealed : Sealed s.toList
  undivided : ∀ c ∈ s.toList, c ≠ ';' ∧ c ≠ '\x7b'
  noCall : Chain.ofClass? "Schema" (tokens s.toList) = none

/-- A **replayable** column: its type has a call, and its texts can be held. -/
structure Column.Replayable (c : Column) : Prop where
  builder : ∃ b, c.type = .builder b
  /-- A structural column is written without its name. -/
  name : c.isStructural = false → Enclosable c.name
  parameters : ∀ text ∈ c.parameters, Embeddable text
  default : ∀ text ∈ c.default, Embeddable text

/-- A **replayable** relationship. -/
structure Relationship.Replayable (r : Relationship) : Prop where
  localColumn : Enclosable r.localColumn
  foreignColumn : Enclosable r.foreignColumn
  foreignTable : Enclosable r.foreignTable
  onDelete : ∀ action ∈ r.onDelete, Enclosable action
  onUpdate : ∀ action ∈ r.onUpdate, Enclosable action

/-- A **replayable** table. -/
structure Table.Replayable (t : Table) : Prop where
  name : Enclosable t.name
  /-- The name is part of the name of the class, which stands outside of strings. -/
  noColon : ':' ∉ t.name.toList
  engine : ∀ value ∈ t.engine, Enclosable value
  charset : ∀ value ∈ t.charset, Enclosable value
  collation : ∀ value ∈ t.collation, Enclosable value
  primaryKey : ∀ key ∈ t.primaryKey, Enclosable key
  columns : ∀ c ∈ t.columns.values, c.Replayable
  relationships : ∀ r ∈ t.relationships, r.Replayable

/-! ### Each statement is one line -/

theorem isInline_of_isUnbroken {c : Char} (h : IsUnbroken c) (hc : c ≠ ';' ∧ c ≠ '\x7b') :
    isInline c = true := by
  obtain ⟨hbreak, hreturn, hclose⟩ := h
  simp [isInline, endsLine, hbreak, hreturn, hclose, hc]

theorem Enclosable.toQuotable {s : String} (h : Enclosable s) (hs : SpeltIn IsUnbroken s) :
    Quotable s :=
  ⟨h.quotable, fun c hc => isInline_of_isUnbroken (hs c hc) (h.undivided c hc)⟩

theorem Embeddable.toCopyable {s : String} (h : Embeddable s) (hs : SpeltIn IsUnbroken s) :
    Copyable s :=
  ⟨h.sealed, fun c hc => isInline_of_isUnbroken (hs c hc) (h.undivided c hc)⟩

theorem Column.Replayable.writable {c : Column} (h : c.Replayable) (hc : c.Over IsUnbroken) :
    c.Writable where
  builder := h.builder
  name hs := (h.name hs).toQuotable hc.name
  parameters text htext := (h.parameters text htext).toCopyable (hc.parameters text htext)
  default text htext := (h.default text htext).toCopyable (hc.default text htext)

theorem Relationship.Replayable.writable {r : Relationship} (h : r.Replayable)
    (hr : r.Over IsUnbroken) : r.Writable where
  localColumn := h.localColumn.toQuotable hr.localColumn
  foreignColumn := h.foreignColumn.toQuotable hr.foreignColumn
  foreignTable := h.foreignTable.toQuotable hr.foreignTable
  onDelete action ha := (h.onDelete action ha).toQuotable (hr.onDelete action ha)
  onUpdate action ha := (h.onUpdate action ha).toQuotable (hr.onUpdate action ha)

/-- **A replayable table can be written** if its texts do not break lines. -/
theorem Table.Replayable.writable {t : Table} (h : t.Replayable) (ht : t.Over IsUnbroken) :
    t.Writable where
  name := h.name.toQuotable ht.name
  engine value hv := (h.engine value hv).toQuotable (ht.engine value hv)
  charset value hv := (h.charset value hv).toQuotable (ht.charset value hv)
  collation value hv := (h.collation value hv).toQuotable (ht.collation value hv)
  primaryKey key hkey := (h.primaryKey key hkey).toQuotable (ht.primaryKey key hkey)
  columns := by
    intro c hc
    obtain ⟨e, he, rfl⟩ := List.mem_map.1 hc
    exact (h.columns _ hc).writable (ht.columns e he)
  relationships r hr := (h.relationships r hr).writable (ht.relationships r hr)

/-! ### Each statement is harmless -/

/-- The first call of a chain is that of its first link, whatever its brackets are. -/
theorem exists_ofVariable?_chainText {l : Link} {ls : List Link} (h : ∀ k ∈ l :: ls, k.Proper) :
    ∃ us rest, Chained.ofVariable? (tokens (chainText (l :: ls))) =
      some (.calls ⟨"$table", Call.ofTokens l.name
        (untilCloseParen 0 (tokens (l.inside.toList ++ [')']) ++ us)).1 :: rest⟩) := by
  have hsequence := fun us => sequence_callHead l.name.toList
    (tokens (l.inside.toList ++ [')']) ++ us)
  simp only [String.ofList_toList] at hsequence
  rw [tokens_chainText h, List.flatMap_cons, List.append_assoc, l.tokens_append,
    ofVariable?_of_sequence (hsequence _)]
  exact ⟨_, _, rfl⟩

/-- The string that the first link of a chain starts with is the first argument of its call. -/
theorem Quotable.stringAt?_head {s : String} (h : Quotable s) (name : String) (us : List Token) :
    (Call.ofTokens name (untilCloseParen 0
        (tokens ((literal s).toList ++ [')']) ++ us)).1).stringAt? 0 = some (contentOf s) ∧
      ∀ text : String, (Call.ofTokens name (untilCloseParen 0
        (tokens ((literal s ++ ", " ++ text).toList ++ [')']) ++ us)).1).stringAt? 0 =
          some (contentOf s) := by
  have hparen : tokens [')'] = [⟨[], ⟨.closeParen, [')']⟩⟩] := by
    have hfirst : Lexeme.startingWith ')' [] = (⟨.closeParen, [')']⟩, []) := rfl
    rw [tokens_cons hfirst (by decide), tokens_nil]
  refine ⟨?_, fun text => ?_⟩
  · rw [tokens_literal_append h, hparen]
    exact stringAt?_ofTokens name (Or.inl rfl)
  · have hcomma : tokens (',' :: ' ' :: (text.toList ++ [')'])) =
        ⟨[], ⟨.comma, [',']⟩⟩ :: tokens (' ' :: (text.toList ++ [')'])) :=
      tokens_cons rfl (by decide)
    have htext : (literal s ++ ", " ++ text).toList ++ [')'] =
        (literal s).toList ++ ',' :: ' ' :: (text.toList ++ [')']) := by
      simp [String.toList_append]
    rw [htext, tokens_literal_append h, hcomma]
    exact stringAt?_ofTokens name (Or.inr ⟨_, _, rfl, rfl⟩)

/-- A chain is accepted if its first call is one of the builder and names its column. -/
theorem accepted_of_builder {b : Builder} {head : Call} (hname : head.name = b.name)
    (hstring : b.isStructural = false → ∃ s, head.stringAt? 0 = some s) (receiver : String)
    (rest : List Call) : Chain.Accepted ⟨receiver, head :: rest⟩ := by
  intro head' hhead t key l
  obtain rfl := Option.some.inj hhead
  have hcolumn : ∃ d, Column.ofHead (.builder b) head l = .ok d := by
    rw [Column.ofHead]
    cases hs : b.isStructural with
    | true => exact ⟨_, if_pos hs⟩
    | false =>
      obtain ⟨s, hs'⟩ := hstring hs
      have hnot : ¬(ColumnType.builder b).isStructural = true := by
        simp [ColumnType.isStructural, hs]
      rw [if_neg hnot, hs']
      exact ⟨_, rfl⟩
  obtain ⟨d, hd⟩ := hcolumn
  have hread : Column.ofChain (.builder b) ⟨receiver, head :: rest⟩ l =
      (Column.ofHead (.builder b) head l).map (rest.foldl Column.applyModifier ·) := rfl
  rw [Table.apply_builder hname, Table.define, hread, hd]
  exact ⟨_, rfl⟩

/-- The chain of a column is accepted, since its first call names a type and a column. -/
theorem Column.Writable.accepted {c : Column} (h : c.Writable) {chain : Chain}
    (hchain : Chained.ofVariable? (tokens (chainText c.links)) = some (.calls chain)) :
    chain.Accepted := by
  obtain ⟨b, hb⟩ := h.builder
  obtain ⟨us, rest, hread⟩ := exists_ofVariable?_chainText fun k hk => (h.links k hk).toProper
  rw [Column.links, hread] at hchain
  obtain rfl := Chained.calls.inj (Option.some.inj hchain)
  refine accepted_of_builder (b := b) (by rw [hb]; rfl) (fun hs => ?_) _ rest
  have hstructural : c.isStructural = false := by rw [isStructural, hb]; exact hs
  obtain ⟨halone, hmore⟩ := (h.name hstructural).stringAt?_head c.type.name us
  refine ⟨contentOf c.name, ?_⟩
  rw [argumentsText, hstructural]
  cases c.parameters with
  | none => exact halone
  | some text => exact hmore text

/-- **The statement of a column is harmless.** -/
theorem Column.Replayable.harmless {c : Column} (h : c.Replayable) (hw : c.Writable) {text : String}
    (htext : text.toList = chainText c.links) : Replay.Harmless text := by
  have harguments : Chain.ofClass? "Schema" (tokens c.argumentsText.toList) = none := by
    rw [argumentsText]
    cases hs : c.isStructural with
    | true =>
      rw [if_pos rfl]
      cases hp : c.parameters with
      | none => exact congrArg _ tokens_nil
      | some text => exact (h.parameters text hp).noCall
    | false =>
      obtain ⟨halone, hmore⟩ := (hw.name hs).noCall
      rw [if_neg (by simp)]
      cases hp : c.parameters with
      | none => exact halone
      | some text => exact hmore text (h.parameters text hp).noCall
  have hnone : Chain.ofClass? "Schema" (tokens text.toList) = none := by
    rw [htext]
    refine ofClass?_chainText (fun l hl => (hw.links l hl).toProper) fun l hl => ?_
    rcases mem_links hl with rfl | ⟨flag, -, rfl⟩ | ⟨value, hvalue, rfl⟩
    · exact harguments
    · exact congrArg _ tokens_nil
    · exact (h.default value hvalue).noCall
  refine Replay.harmless_of (fun chain hchain => ?_) fun _ chain hchain => ?_
  · exact absurd (hnone.symm.trans hchain) (by simp)
  · exact hw.accepted (htext ▸ hchain)

/-- The lines that are chains of string literals are harmless if their calls are accepted. -/
theorem Replay.harmless_of_literals {l : Link} {ls : List Link}
    (h : ∀ k ∈ l :: ls, ∃ name value, isWord name.toList = true ∧ Quotable value ∧
      k = ⟨name, literal value⟩)
    (haccepted : Chain.Accepted ⟨"$table", (l :: ls).map Link.call⟩) {text : String}
    (htext : text.toList = chainText (l :: ls)) : Harmless text := by
  have hlevel : ∀ k ∈ l :: ls, k.Level := by
    intro k hk
    obtain ⟨name, value, hname, hvalue, rfl⟩ := h k hk
    exact hvalue.level hname
  have hnone : Chain.ofClass? "Schema" (tokens text.toList) = none := by
    rw [htext]
    refine ofClass?_chainText (fun k hk => (hlevel k hk).toProper) fun k hk => ?_
    obtain ⟨name, value, -, hvalue, rfl⟩ := h k hk
    exact hvalue.noCall.1
  refine harmless_of (fun chain hchain => ?_) fun _ chain hchain => ?_
  · exact absurd (hnone.symm.trans hchain) (by simp)
  · rw [htext, ofVariable?_chainText hlevel] at hchain
    obtain rfl := Chained.calls.inj (Option.some.inj hchain)
    exact haccepted

/-- **The statement of a relationship is harmless.** -/
theorem Relationship.Writable.harmless {r : Relationship} (h : r.Writable) {text : String}
    (htext : text.toList = chainText r.links) : Replay.Harmless text := by
  have hlinks : ∀ k ∈ r.links, ∃ name value, isWord name.toList = true ∧ Quotable value ∧
      k = ⟨name, literal value⟩ := fun _ => h.exists_of_mem_links
  have haccepted : r.chain.Accepted := by
    intro head hhead t key l
    obtain rfl := Option.some.inj hhead
    have hlocal : r.chain.head?.bind Call.firstString? = some (contentOf r.localColumn) :=
      Link.firstString?_call h.localColumn
    have hreferences : (r.chain.find? "references").bind Call.firstString? =
        some (contentOf r.foreignColumn) := Link.firstString?_call h.foreignColumn
    have hon : (r.chain.find? "on").bind Call.firstString? = some (contentOf r.foreignTable) :=
      Link.firstString?_call h.foreignTable
    rw [Table.apply_of_foreign t key r.chain l rfl, ofChain, hlocal, hreferences, hon]
    exact ⟨_, rfl⟩
  exact Replay.harmless_of_literals hlinks haccepted htext

/-- **The statement for the primary key is harmless.** -/
theorem Quotable.harmless_primary {key : String} (h : Quotable key) {text : String}
    (htext : text.toList = chainText [⟨"primary", literal key⟩]) : Replay.Harmless text := by
  refine Replay.harmless_of_literals ?_ ?_ htext
  · intro k hk
    obtain rfl := List.mem_singleton.1 hk
    exact ⟨_, key, by decide, h, rfl⟩
  · intro head hhead t name l
    obtain rfl := Option.some.inj hhead
    exact ⟨_, Table.apply_of_primary t name _ l rfl⟩

/-- **The statement for an option is harmless.** -/
theorem Quotable.harmless_option {property value : String} (h : Quotable value)
    (hproperty : isWord property.toList = true) {text : String}
    (htext : text.toList = optionText property value) : Replay.Harmless text := by
  have hnone : Chain.ofClass? "Schema" (tokens text.toList) = none := by
    rw [htext]
    exact ofClass?_eq_none (noClass_optionText hproperty h)
  refine Replay.harmless_of (fun chain hchain => ?_) fun _ chain hchain => ?_
  · exact absurd (hnone.symm.trans hchain) (by simp)
  · rw [htext, ofVariable?_optionText hproperty h] at hchain
    exact absurd (Option.some.inj hchain) (by simp)

namespace Table

/-- **The statement that opens a table is harmless.** -/
theorem harmless_createText {t : Table} (h : Quotable t.name) : Replay.Harmless t.createText := by
  refine Replay.harmless_of (fun chain hchain l => ?_) fun hnone chain _ => ?_
  · obtain ⟨chain', hchain', hstatement⟩ := ofSchemaChain_createText h l
    obtain rfl := Option.some.inj (hchain'.symm.trans hchain)
    exact ⟨_, hstatement⟩
  · obtain ⟨chain', hchain', -⟩ := ofSchemaChain_createText h default
    exact absurd (hnone.symm.trans hchain') (by simp)

/-- **The statements of a replayable table are harmless.** -/
theorem Replayable.harmless {t : Table} (h : t.Replayable) (hw : t.Writable) :
    ∀ st ∈ t.statements, Replay.Harmless st := by
  intro st hst
  rcases mem_statements hst with ⟨property, value, hoption, hst⟩ | ⟨c, hc, hst⟩ | ⟨key, hkey, hst⟩ |
      ⟨r, hr, hst⟩
  · rcases hoption with ⟨rfl, hv⟩ | ⟨rfl, hv⟩ | ⟨rfl, hv⟩
    · exact (hw.engine value hv).harmless_option (by decide) hst
    · exact (hw.charset value hv).harmless_option (by decide) hst
    · exact (hw.collation value hv).harmless_option (by decide) hst
  · exact (h.columns c hc).harmless (hw.columns c hc) hst
  · exact (hw.primaryKey key hkey).harmless_primary hst
  · exact (hw.relationships r hr).harmless hst

end Table

end SchemaHistory

import SchemaHistory.Proofs.LineCharacters
import SchemaHistory.Proofs.Replays

/-!
# The characters of a schema

The texts of a schema come from the sources it was replayed from, but for a few constants such as
the names of structural columns. So if the logical lines of all sources are spelt in an alphabet
that has the letters and the space, every schema that a replay reaches is spelt in it too.

This is an invariant of the replay. It is shown for one thing after the other: the columns and the
relationships that a chain defines, the tables that a call changes
(`SchemaHistory.Table.over_apply`), and the replay that a statement leaves
(`SchemaHistory.Replay.over_step`).
-/

namespace SchemaHistory

open Source Text

/-- A string is **spelt** in an alphabet if all of its characters are in it. -/
def SpeltIn (A : Char → Prop) (s : String) : Prop :=
  ∀ c ∈ s.toList, A c

/-- A column whose texts are spelt in an alphabet. -/
structure Column.Over (A : Char → Prop) (c : Column) : Prop where
  name : SpeltIn A c.name
  parameters : ∀ text ∈ c.parameters, SpeltIn A text
  default : ∀ text ∈ c.default, SpeltIn A text

/-- A relationship whose texts are spelt in an alphabet. -/
structure Relationship.Over (A : Char → Prop) (r : Relationship) : Prop where
  localColumn : SpeltIn A r.localColumn
  foreignColumn : SpeltIn A r.foreignColumn
  foreignTable : SpeltIn A r.foreignTable
  onDelete : ∀ action ∈ r.onDelete, SpeltIn A action
  onUpdate : ∀ action ∈ r.onUpdate, SpeltIn A action

/-- A table whose texts are spelt in an alphabet. -/
structure Table.Over (A : Char → Prop) (t : Table) : Prop where
  name : SpeltIn A t.name
  engine : ∀ value ∈ t.engine, SpeltIn A value
  charset : ∀ value ∈ t.charset, SpeltIn A value
  collation : ∀ value ∈ t.collation, SpeltIn A value
  primaryKey : ∀ key ∈ t.primaryKey, SpeltIn A key
  columns : ∀ e ∈ t.columns.entries, e.2.Over A
  relationships : ∀ r ∈ t.relationships, r.Over A

/-- A schema is **over** an alphabet if the texts of its tables are spelt in it. -/
def Schema.Over (A : Char → Prop) (s : Schema) : Prop :=
  ∀ e ∈ s.tables.entries, e.2.Over A

/-- A replay whose schema is over an alphabet, and whose open table has a name in it. -/
structure Replay.Over (A : Char → Prop) (r : Replay) : Prop where
  schema : r.schema.Over A
  current : ∀ name ∈ r.current, SpeltIn A name

variable {A : Char → Prop} {line : List Char}

/-! ### Columns and relationships -/

section Definitions

variable (hA : ∀ c, isAsciiLetter c = true ∨ c = ' ' → A c) (hline : ∀ c ∈ line, A c)

include hA in
/-- The constants that a replay adds are made of letters and spaces. -/
theorem speltIn_constant {s : String} (h : ∀ c ∈ s.toList, isAsciiLetter c = true ∨ c = ' ') :
    SpeltIn A s := fun c hc => hA c (h c hc)

include hline in
theorem speltIn_of_subset {s : String} (h : s.toList ⊆ line) : SpeltIn A s := fun c hc =>
  hline c (h hc)

theorem Builder.isAsciiLetter_name (b : Builder) : ∀ c ∈ b.name.toList, isAsciiLetter c = true := by
  cases b <;> decide

namespace Column

include hline in
theorem over_applyModifier {c : Column} (h : c.Over A) {m : Call} (hm : m.Within line) :
    (c.applyModifier m).Over A := by
  unfold applyModifier
  split
  · exact { h with }
  · exact { h with }
  · exact { h with }
  · refine { h with default := ?_ }
    rintro text htext
    obtain rfl := Option.some.inj htext
    exact speltIn_of_subset hline hm.rawArgs
  · exact h

include hA hline in
theorem over_ofHead {type : ColumnType} {head : Call} {l : Location} {c : Column}
    (hhead : head.Within line) (h : ofHead type head l = .ok c) : c.Over A := by
  rw [ofHead] at h
  split at h
  · rename_i hs
    obtain rfl := Except.ok.inj h
    refine ⟨?_, ?_, by simp [structural]⟩
    · cases type with
      | builder b => exact speltIn_constant hA fun c hc => Or.inl (b.isAsciiLetter_name c hc)
      | other name => exact absurd hs (by simp [ColumnType.isStructural])
    · intro text htext
      have hraw : text = head.rawArgs := by
        have htext : nonempty? head.rawArgs = some text := htext
        rw [nonempty?] at htext
        split at htext
        · exact absurd htext (by simp)
        · exact (Option.some.inj htext).symm
      rw [hraw]
      exact speltIn_of_subset hline hhead.rawArgs
  · split at h
    · rename_i name hname
      obtain rfl := Except.ok.inj h
      refine ⟨?_, fun text htext => speltIn_of_subset hline (hhead.trailingArgs text htext), by simp⟩
      rcases Option.or_eq_some_iff.1 hname with hname | ⟨-, hname⟩
      · exact speltIn_of_subset hline (hhead.stringAt? hname)
      · rw [impliedName?] at hname
        split at hname
        · obtain rfl := Option.some.inj hname
          have hid : SpeltIn A "id" := speltIn_constant hA (by decide)
          exact hid
        · exact absurd hname (by simp)
    · exact absurd h (by simp)

include hA hline in
/-- The column that a chain defines is spelt like its line. -/
theorem over_ofChain {type : ColumnType} {chain : Chain} {l : Location} {c : Column}
    (hchain : ∀ m ∈ chain.calls, m.Within line) (h : ofChain type chain l = .ok c) : c.Over A := by
  have hfold : ∀ (ms : List Call) (d : Column), (∀ m ∈ ms, m.Within line) → d.Over A →
      (ms.foldl applyModifier d).Over A := by
    intro ms
    induction ms with
    | nil => exact fun d _ hd => hd
    | cons m ms ih =>
      intro d hms hd
      exact ih _ (fun k hk => hms k (List.mem_cons_of_mem m hk))
        (over_applyModifier hline hd (hms m List.mem_cons_self))
  rw [ofChain] at h
  split at h
  · exact absurd h (by simp)
  · rename_i head hhead
    cases hc : ofHead type head l with
    | error f => rw [hc] at h; exact absurd h (by simp [Except.map])
    | ok d =>
      rw [hc] at h
      obtain rfl := Except.ok.inj h
      exact hfold _ d (fun m hm => hchain m (List.mem_of_mem_tail hm))
        (over_ofHead hA hline (hchain head (List.mem_of_head? hhead)) hc)

include hline in
/-- The column that a raw alteration leaves is spelt like its line and like the column before. -/
theorem over_altered {existing : Option Column} (h : ∀ c ∈ existing, c.Over A) {name : String}
    (hname : SpeltIn A name) {a : Alteration} (ha : a.Within line) :
    (altered existing name a).Over A := by
  refine ⟨?_, ?_, ?_⟩
  · cases existing with
    | none => exact hname
    | some c => exact (h c rfl).name
  · intro text htext
    have htext : text ∈ a.parameters := by
      simp only [altered] at htext
      split at htext
      · exact htext
      · exact absurd htext (by simp)
    exact speltIn_of_subset hline (ha.parameters text htext)
  · cases existing with
    | none => simp [altered]
    | some c => exact (h c rfl).default

end Column

namespace Relationship

include hA hline in
theorem over_applyModifiers {r : Relationship} (h : r.Over A) {chain : Chain}
    (hchain : ∀ m ∈ chain.calls, m.Within line) : (r.applyModifiers chain).Over A := by
  have hstep : ∀ (m : Call) (s : Relationship), m.Within line → s.Over A →
      (s.applyModifier m).Over A := by
    intro m s hm hs
    have hfirst : ∀ action ∈ m.firstString?, SpeltIn A action := fun action haction =>
      speltIn_of_subset hline (hm.firstString? haction)
    have hconstant : ∀ a : String, (∀ c ∈ a.toList, isAsciiLetter c = true ∨ c = ' ') →
        ∀ action ∈ some a, SpeltIn A action := by
      intro a ha action haction
      obtain rfl := Option.some.inj haction
      exact speltIn_constant hA ha
    unfold applyModifier
    split
    · exact { hs with onDelete := hfirst }
    · exact { hs with onUpdate := hfirst }
    · exact { hs with onDelete := hconstant _ (by decide) }
    · exact { hs with onUpdate := hconstant _ (by decide) }
    · exact { hs with onDelete := hconstant _ (by decide) }
    · exact { hs with onDelete := hconstant _ (by decide) }
    · exact hs
  have hfold : ∀ (ms : List Call) (s : Relationship), (∀ m ∈ ms, m.Within line) → s.Over A →
      (ms.foldl applyModifier s).Over A := by
    intro ms
    induction ms with
    | nil => exact fun s _ hs => hs
    | cons m ms ih =>
      intro s hms hs
      exact ih _ (fun k hk => hms k (List.mem_cons_of_mem m hk))
        (hstep m s (hms m List.mem_cons_self) hs)
  exact hfold _ r (fun m hm => hchain m (List.mem_of_mem_tail hm)) h

include hA hline in
/-- The foreign key that a chain writes out is spelt like its line. -/
theorem over_ofChain {chain : Chain} {l : Location} {r : Relationship}
    (hchain : ∀ m ∈ chain.calls, m.Within line) (h : ofChain chain l = .ok r) : r.Over A := by
  have hfind : ∀ {name s : String}, (chain.find? name).bind Call.firstString? = some s →
      SpeltIn A s := by
    intro name s hs
    obtain ⟨m, hm, hs⟩ := Option.bind_eq_some_iff.1 hs
    exact speltIn_of_subset hline ((hchain m (List.mem_of_find?_eq_some hm)).firstString? hs)
  rw [ofChain] at h
  split at h
  · rename_i localColumn foreignColumn foreignTable hlocal hcolumn htable
    obtain rfl := Except.ok.inj h
    obtain ⟨head, hhead, hlocal⟩ := Option.bind_eq_some_iff.1 hlocal
    have hname := (hchain head (List.mem_of_head? hhead)).firstString? hlocal
    exact over_applyModifiers hA hline
      ⟨speltIn_of_subset hline hname, hfind hcolumn, hfind htable, by simp, by simp⟩ hchain
  · exact absurd h (by simp)

include hA in
/-- The conventional table of a column is spelt like the column. -/
theorem speltIn_conventionalTable {column : String} (h : SpeltIn A column) :
    SpeltIn A (conventionalTable column) := by
  have hs : SpeltIn A "s" := speltIn_constant hA (by decide)
  intro c hc
  unfold conventionalTable at hc
  split at hc
  · rename_i stem hstem
    rw [String.toList_append, String.toList_ofList, List.mem_append] at hc
    rcases hc with hc | hc
    · refine h c ?_
      rw [beforeSuffix?_eq_some_iff.1 hstem]
      exact List.mem_append_left _ hc
    · exact hs c hc
  · rw [String.toList_append, List.mem_append] at hc
    exact hc.elim (h c) (hs c)

include hA hline in
/-- The foreign key behind a column is spelt like its line. -/
theorem over_constrained? {column : Column} (hcolumn : column.Over A) {chain : Chain}
    {r : Relationship} (hchain : ∀ m ∈ chain.calls, m.Within line)
    (h : constrained? column chain = some r) : r.Over A := by
  obtain ⟨m, hm, rfl⟩ := Option.map_eq_some_iff.1 h
  have hwithin := hchain m (List.mem_of_find?_eq_some hm)
  have hgetD : ∀ (i : Nat) {other : String}, SpeltIn A other →
      SpeltIn A ((m.stringAt? i).getD other) := by
    intro i other hother
    cases hs : m.stringAt? i with
    | none => exact hother
    | some s => exact speltIn_of_subset hline (hwithin.stringAt? hs)
  exact over_applyModifiers hA hline ⟨hcolumn.name, hgetD 1 (speltIn_constant hA (by decide)),
    hgetD 0 (speltIn_conventionalTable hA hcolumn.name), by simp, by simp⟩ hchain

end Relationship

/-! ### Tables -/

namespace Table

variable {t : Table}

theorem over_of_columns (h : t.Over A) {columns : Dict String Column}
    (hcolumns : ∀ e ∈ columns.entries, e.2.Over A) : Over A { t with columns } :=
  { h with columns := hcolumns }

theorem over_addColumn (h : t.Over A) {c : Column} (hc : c.Over A) : (t.addColumn c).Over A :=
  over_of_columns h fun e he => by
    rcases Dict.mem_entries_insert he with rfl | he
    · exact hc
    · exact h.columns e he

theorem over_dropColumns (h : t.Over A) (names : List String) : (t.dropColumns names).Over A := by
  induction names generalizing t with
  | nil => exact h
  | cons name names ih =>
    exact ih (over_of_columns h fun e he => h.columns e (Dict.mem_entries_of_mem_erase he))

theorem over_renameColumn? (h : t.Over A) {old new : String} (hnew : SpeltIn A new) {t' : Table}
    (ht : t.renameColumn? old new = some t') : t'.Over A := by
  rw [renameColumn?_eq_some ht]
  refine { h with primaryKey := ?_, columns := ?_, relationships := ?_ }
  · intro key hkey
    simp only at hkey
    split at hkey
    · obtain rfl := Option.some.inj hkey
      exact hnew
    · exact h.primaryKey key hkey
  · intro e he
    obtain ⟨a, ha, rfl⟩ := List.mem_map.1 he
    have ha : a ∈ t.columns.entries := by
      split at ha
      · exact ha
      · exact Dict.mem_entries_of_mem_erase ha
    split
    · exact { h.columns a ha with name := hnew }
    · exact h.columns a ha
  · intro r hr
    obtain ⟨s, hs, rfl⟩ := List.mem_map.1 hr
    unfold relocate
    split
    · exact { h.relationships s hs with localColumn := hnew }
    · exact h.relationships s hs

theorem over_addRelationship (h : t.Over A) {r : Relationship} (hr : r.Over A) :
    (t.addRelationship r).Over A := by
  have hreplace : ∀ (p : Relationship → Bool) (rs : List Relationship), (∀ s ∈ rs, s.Over A) →
      ∀ s ∈ replaceFirst p r rs, s.Over A := by
    intro p rs hrs
    induction rs with
    | nil => simpa [replaceFirst] using hr
    | cons u rs ih =>
      have htail : ∀ s ∈ rs, s.Over A := fun s hs => hrs s (List.mem_cons_of_mem u hs)
      rw [replaceFirst]
      split
      · exact List.forall_mem_cons.2 ⟨hr, htail⟩
      · exact List.forall_mem_cons.2 ⟨hrs u List.mem_cons_self, ih htail⟩
  exact { h with relationships := hreplace _ _ h.relationships }

theorem over_dropRelationships (h : t.Over A) (names : List String) :
    (t.dropRelationships names).Over A := by
  induction names generalizing t with
  | nil => exact h
  | cons name names ih =>
    exact ih (t := t.dropRelationship name)
      { h with relationships := fun r hr => h.relationships r (List.eraseP_subset hr) }

include hA hline in
/-- **A call keeps the table in the alphabet** of its line. -/
theorem over_apply (h : t.Over A) {key : String} {head : Call} {chain : Chain} {l : Location}
    (hhead : head ∈ chain.calls) (hchain : ∀ m ∈ chain.calls, m.Within line)
    {e : Table × List Failure} (he : t.apply key head chain l = .ok e) : e.1.Over A := by
  cases answers_of_apply he with
  | primary name hname =>
    refine { h with primaryKey := fun key hkey => ?_ }
    rcases hname with rfl | rfl
    · exact speltIn_of_subset hline ((hchain head hhead).firstString? hkey)
    · exact absurd hkey (by simp)
  | report => exact h
  | unique name =>
    refine over_of_columns h fun e he => ?_
    obtain ⟨c, hc, hec⟩ := Dict.mem_entries_modify he
    rw [hec]
    split
    · exact { h.columns _ hc with }
    · exact h.columns _ hc
  | rename old new t' _ _ hnew hrename =>
    exact over_renameColumn? h (speltIn_of_subset hline ((hchain head hhead).stringAt? hnew)) hrename
  | dropColumns names => exact over_dropColumns h names
  | foreign r hr => exact over_addRelationship h (Relationship.over_ofChain hA hline hchain hr)
  | dropRelationships names => exact over_dropRelationships h names
  | define type e _ hdefine =>
    obtain ⟨c, hc, -, t', he, ht', hkey, hrelationships⟩ := define_eq_ok hdefine
    have hcolumn := Column.over_ofChain hA hline hchain hc
    have ht : t'.Over A := by
      rw [ht']
      refine { h with primaryKey := ?_, relationships := ?_ }
      · rcases hkey with hkey | hkey <;> rw [hkey]
        · exact h.primaryKey
        · intro key hmem
          obtain rfl := Option.some.inj hmem
          exact hcolumn.name
      · rcases hrelationships with hr | ⟨r, hr, hadded⟩
        · rw [hr]
          exact h.relationships
        · rw [hadded]
          exact (over_addRelationship h
            (Relationship.over_constrained? hA hline hcolumn hchain hr)).relationships
    rw [he]
    exact over_addColumn ht hcolumn

theorem over_assign (h : t.Over A) (property : String) {value : String} (hvalue : SpeltIn A value) :
    (t.assign property value).Over A := by
  have hsome : ∀ v ∈ some value, SpeltIn A v := fun v hv => Option.some.inj hv ▸ hvalue
  unfold assign
  split
  · exact { h with engine := hsome }
  · exact { h with charset := hsome }
  · exact { h with collation := hsome }
  · exact h

include hline in
theorem over_alter (h : t.Over A) {a : Alteration} (ha : a.Within line) (l : Location) :
    (t.alter a l).1.Over A := by
  have hname : SpeltIn A (a.renamed.getD a.column) := by
    cases hr : a.renamed with
    | none => exact speltIn_of_subset hline ha.column
    | some new => exact speltIn_of_subset hline (ha.renamed new hr)
  obtain ⟨u, hu, heq⟩ : ∃ u : Table, u.Over A ∧ (t.alter a l).1 = u.addColumn
      (Column.altered (u.columns.find? (a.renamed.getD a.column)) (a.renamed.getD a.column) a) := by
    cases hr : a.renamed with
    | none => exact ⟨t, h, by simp [alter, hr]⟩
    | some new =>
      refine ⟨(t.renameColumn? a.column new).getD t, ?_, by simp [alter, hr]⟩
      have hnew := speltIn_of_subset hline (ha.renamed new hr)
      cases hmoved : t.renameColumn? a.column new with
      | none => exact h
      | some t' => exact over_renameColumn? h hnew hmoved
  rw [heq]
  refine over_addColumn hu (Column.over_altered hline ?_ hname ha)
  exact fun c hc => hu.columns _ (Dict.find?_eq_some_iff.1 hc)

end Table

/-! ### Schemas and replays -/

namespace Schema

variable {s : Schema}

theorem over_empty : ({} : Schema).Over A := by
  intro e he
  simp at he

theorem over_setTable (h : s.Over A) (name : String) {t : Table} (ht : t.Over A) :
    (s.setTable name t).Over A := by
  intro e he
  rcases Dict.mem_entries_insert he with rfl | he
  · exact ht
  · exact h e he

/-- A table without anything but a name. -/
theorem over_name {name : String} (hname : SpeltIn A name) : ({ name } : Table).Over A :=
  ⟨hname, by simp, by simp, by simp, by simp, by simp, by simp⟩

theorem over_openTable (h : s.Over A) {name : String} (hname : SpeltIn A name) :
    (s.openTable name).Over A := by
  rw [openTable]
  split
  · exact h
  · exact over_setTable h name (over_name hname)

theorem over_tableOrNew (h : s.Over A) {name : String} (hname : SpeltIn A name) :
    (s.tableOrNew name).Over A := by
  rw [tableOrNew]
  cases ht : s.table? name with
  | none => exact over_name hname
  | some t => exact h _ (Dict.find?_eq_some_iff.1 ht)

theorem over_modifyTable (h : s.Over A) (name : String) {f : Table → Table}
    (hf : ∀ t : Table, t.Over A → (f t).Over A) : (s.modifyTable name f).Over A := by
  intro e he
  obtain ⟨t, ht, het⟩ := Dict.mem_entries_modify he
  rw [het]
  split
  · exact hf t (h _ ht)
  · exact h _ ht

theorem over_drop (h : s.Over A) (name : String) : (s.drop name).Over A := by
  intro e he
  obtain ⟨a, ha, rfl | rfl⟩ := exists_of_mem_drop he
  · exact h _ ha
  · exact { h a ha with
      relationships := fun r hr => (h a ha).relationships r (List.mem_filter.1 hr).1 }

theorem over_rename (h : s.Over A) {old new : String} (hnew : SpeltIn A new) {renamed : Renamed}
    (hr : s.rename? old new = some renamed) : renamed.schema.Over A := by
  intro e he
  obtain ⟨a, rfl, ha⟩ := exists_of_mem_rename hr he
  have hmoved : a.2.Over A := by
    rcases ha with ⟨t, ht, rfl⟩ | ha
    · exact { h _ (Dict.find?_eq_some_iff.1 ht) with name := hnew }
    · exact h a ha
  refine { hmoved with relationships := fun r hr => ?_ }
  obtain ⟨q, hq, rfl⟩ := List.mem_map.1 hr
  have hover := hmoved.relationships q hq
  unfold retarget
  split
  · exact { hover with foreignTable := hnew }
  · exact hover

end Schema

namespace Replay

variable {r : Replay}

theorem over_empty : ({} : Replay).Over A :=
  ⟨Schema.over_empty, by simp⟩

theorem over_close (h : r.Over A) : Over A { r with current := none } :=
  ⟨h.schema, by simp⟩

include hA hline in
theorem over_call (h : r.Over A) {chain : Chain} (hchain : ∀ m ∈ chain.calls, m.Within line)
    (l : Location) : (r.call chain l).1.Over A := by
  unfold call
  split
  · rename_i head name hhead hcurrent
    have hname := h.current name hcurrent
    have hopen := Schema.over_openTable h.schema hname
    have htable := Schema.over_tableOrNew hopen hname
    simp only
    split
    · rename_i e he
      have happly := Table.over_apply hA hline htable (List.mem_of_head? hhead) hchain he
      exact ⟨Schema.over_setTable hopen name happly, h.current⟩
    · exact ⟨hopen, h.current⟩
  · exact h

include hline in
theorem over_rename (h : r.Over A) (old : String) {new : String} (hnew : new.toList ⊆ line)
    (l : Location) : (r.rename old new l).Over A := by
  have hspelt : SpeltIn A new := speltIn_of_subset hline hnew
  rw [rename]
  split
  · exact ⟨h.schema, h.current⟩
  · rename_i renamed hrenamed
    refine ⟨Schema.over_rename h.schema hspelt hrenamed, fun name hname => ?_⟩
    simp only at hname
    split at hname
    · obtain rfl := Option.some.inj hname
      exact hspelt
    · exact h.current name hname

include hA hline in
/-- **A statement keeps the replay in the alphabet** of its line. -/
theorem over_step (h : r.Over A) {s : Statement} (hs : s.Within line) (l : Location) :
    (r.step s l).1.Over A := by
  cases s with
  | downBoundary => exact h
  | blockClose => exact over_close h
  | query verb => exact h
  | alteration a =>
    have hread : (r.step (.alteration a) l).1 = r.alter a l := rfl
    rw [hread, alter]
    split
    · exact ⟨h.schema, h.current⟩
    · rename_i t ht
      have htable := h.schema _ (Dict.find?_eq_some_iff.1 ht)
      exact ⟨Schema.over_setTable h.schema a.table (Table.over_alter hline htable hs l), h.current⟩
  | renameTable old new => exact over_rename hline h old hs l
  | directive verb table =>
    have htable : SpeltIn A table := speltIn_of_subset hline hs
    have hopen : Over A { r with schema := r.schema.openTable table, current := some table } :=
      ⟨Schema.over_openTable h.schema htable, fun name hname => Option.some.inj hname ▸ htable⟩
    cases verb with
    | create => exact hopen
    | alter => exact hopen
    | drop => exact ⟨Schema.over_drop h.schema table, by simp [step, direct]⟩
  | assignment property value =>
    have hvalue : SpeltIn A value := speltIn_of_subset hline hs
    simp only [step, assign]
    split
    · exact h
    · rename_i name _
      exact ⟨Schema.over_modifyTable h.schema name fun t ht => Table.over_assign ht property hvalue,
        h.current⟩
  | calls chain =>
    rw [fst_step_calls]
    exact over_call hA hline h hs l

end Replay

end Definitions

end SchemaHistory

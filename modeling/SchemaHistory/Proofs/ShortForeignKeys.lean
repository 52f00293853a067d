import SchemaHistory.Proofs.ModifierOrder
import SchemaHistory.Proofs.Replays

/-!
# Foreign keys in short form

A foreign key can be written in two ways. In short form it is a modifier of the column that it
belongs to, `constrained`. Written out it is a statement of its own, which begins with `foreign` and
names the columns and the table. The short form may leave the table out if the name of the column
tells it, and the column of that table if it is `id` (`SchemaHistory.RefersTo`).

Both give the same table. The relationship is added before the column in short form and behind it
otherwise, but a table keeps columns and relationships apart. What is said about deletion and update
stands among the modifiers of the column in short form, where other modifiers stand as well, and a
foreign key passes over those. So the short form can be taken out of the modifiers, and a foreign
key can be written out behind the column with all modifiers that remain
(`SchemaHistory.Replay.step_constrained`).
-/

namespace SchemaHistory

/-! ### The two forms -/

/-- A call **spells** a name and texts, if it has that name and its arguments are these texts as
quoted strings. -/
structure Call.Spells (c : Call) (name : String) (texts : List String) : Prop where
  name : c.name = name
  args : c.args = texts.map Argument.string

/-- A call **names a column** if it is the call of a type whose columns are named by their
migration, and its first argument is a name. -/
structure Call.NamesColumn (head : Call) (type : ColumnType) (column : String) : Prop where
  read : ColumnType.ofCall? head.name = some type
  written : type.isStructural = false
  column : head.stringAt? 0 = some column

/-- The texts in a short form behind a column, with the **table and column that they refer to**. -/
inductive RefersTo (column : String) : List String → String → String → Prop
  /-- Table and column are written. -/
  | written (table foreign : String) : RefersTo column [table, foreign] table foreign
  /-- The table is written. -/
  | table (table : String) : RefersTo column [table] table "id"
  /-- Nothing is written behind a column that is called after a table. -/
  | convention (stem : String) (h : column = stem ++ "_id") : RefersTo column [] (stem ++ "s") "id"
  /-- Nothing is written behind another column. -/
  | plural (h : ∀ stem, column ≠ stem ++ "_id") : RefersTo column [] (column ++ "s") "id"

namespace Call.Spells

variable {c : Call} {name : String} {texts : List String}

theorem stringAt? (h : c.Spells name texts) (i : Nat) : c.stringAt? i = texts[i]? := by
  rw [Call.stringAt?, h.args, List.getElem?_map]
  cases texts[i]? <;> rfl

theorem firstString? {text : String} (h : c.Spells name [text]) : c.firstString? = some text := by
  rw [Call.firstString?, h.args]
  rfl

end Call.Spells

namespace Relationship

theorem conventionalTable_append (stem : String) :
    conventionalTable (stem ++ "_id") = stem ++ "s" := by
  have hbefore : Text.beforeSuffix? "_id".toList (stem ++ "_id").toList = some stem.toList :=
    Text.beforeSuffix?_eq_some_iff.2 String.toList_append
  simp only [conventionalTable, hbefore, String.ofList_toList]

theorem conventionalTable_of_ne {column : String} (h : ∀ stem, column ≠ stem ++ "_id") :
    conventionalTable column = column ++ "s" := by
  cases hbefore : Text.beforeSuffix? "_id".toList column.toList with
  | none => simp only [conventionalTable, hbefore]
  | some stem =>
    refine absurd ?_ (h (String.ofList stem))
    rw [← String.toList_inj, String.toList_append, String.toList_ofList]
    exact Text.beforeSuffix?_eq_some_iff.1 hbefore

variable {column table foreign : String} {short : Call} {texts : List String}

/-- What the replay reads off a short form is what it refers to. -/
theorem referred_eq (hshort : short.Spells "constrained" texts)
    (h : RefersTo column texts table foreign) :
    (short.stringAt? 0).getD (conventionalTable column) = table ∧
      (short.stringAt? 1).getD "id" = foreign := by
  rw [hshort.stringAt?, hshort.stringAt?]
  cases h with
  | written => exact ⟨rfl, rfl⟩
  | table => exact ⟨rfl, rfl⟩
  | convention stem hstem => exact ⟨by rw [hstem]; exact conventionalTable_append stem, rfl⟩
  | plural hplural => exact ⟨conventionalTable_of_ne hplural, rfl⟩

/-- The calls that name the column and the table of a foreign key say nothing else about it. -/
theorem applyModifier_of_name {m : Call}
    (hname : m.name = "constrained" ∨ m.name = "references" ∨ m.name = "on") (k : Relationship) :
    k.applyModifier m = k := by
  rcases hname with h | h | h <;> simp [applyModifier, h]

end Relationship

namespace Column

/-- A column passes over a foreign key in short form. -/
theorem applyModifier_constrained {m : Call} (hname : m.name = "constrained") (c : Column) :
    c.applyModifier m = c := by
  simp [applyModifier, hname]

end Column

/-! ### A column with a foreign key -/

/-- The call of a column is no foreign key in short form. -/
theorem Call.NamesColumn.ne_constrained {head : Call} {type : ColumnType} {column : String}
    (h : head.NamesColumn type column) : head.name ≠ "constrained" := by
  intro hname
  have hread := h.read
  rw [hname] at hread
  cases hread

section Column

variable {column table foreign : String} {type : ColumnType} {texts : List String}
  {head short : Call} {before after : List Call} (hhead : head.NamesColumn type column)
include hhead

/-- The column that a chain defines has its name from the first call. -/
theorem Column.ofChain_named (receiver : String) (ms : List Call) (l : Location) :
    Column.ofChain type ⟨receiver, head :: ms⟩ l =
      .ok (ms.foldl applyModifier { type, name := column, parameters := head.trailingArgs }) := by
  simp only [ofChain, Chain.head?, List.head?_cons, ofHead, hhead.written, hhead.column,
    Option.some_or, Chain.modifiers, List.tail_cons, Bool.false_eq_true, if_false, Except.map]

variable (hms : ∀ m ∈ before ++ after, m.name ≠ "constrained")
include hms

/-- Without a short form there is no foreign key. -/
theorem Relationship.constrained?_eq_none (c : Column) (receiver : String) :
    constrained? c ⟨receiver, head :: (before ++ after)⟩ = none := by
  have hnone : Chain.find? ⟨receiver, head :: (before ++ after)⟩ "constrained" = none :=
    List.find?_eq_none.2 <| List.forall_mem_cons.2
      ⟨by simpa using hhead.ne_constrained, fun m hm => by simpa using hms m hm⟩
  rw [constrained?, hnone, Option.map_none]

variable (hshort : short.Spells "constrained" texts) (hrefers : RefersTo column texts table foreign)
include hshort hrefers

/-- The foreign key of a short form, with what all other modifiers say about it. -/
theorem Relationship.constrained?_eq_some {c : Column} (hname : c.name = column)
    (receiver : String) :
    constrained? c ⟨receiver, head :: (before ++ short :: after)⟩ =
      some ((before ++ after).foldl applyModifier ⟨column, foreign, table, none, none⟩) := by
  have hfound : Chain.find? ⟨receiver, head :: (before ++ short :: after)⟩ "constrained" =
      some short := by
    have hbefore : before.find? (·.name == "constrained") = none :=
      List.find?_eq_none.2 fun m hm => by simpa using hms m (List.mem_append_left after hm)
    simp [Chain.find?, hhead.ne_constrained, hbefore, hshort.name]
  obtain ⟨htable, hforeign⟩ := referred_eq hshort hrefers
  simp only [constrained?, hfound, Option.map_some, hname, htable, hforeign, applyModifiers,
    Chain.modifiers, List.tail_cons, List.foldl_append, List.foldl_cons,
    applyModifier_of_name (Or.inl hshort.name)]

/-- **A column with a foreign key in short form** is the column without it, and a relationship that
is added to the table. -/
theorem Table.define_constrained (t : Table) (receiver : String) (l : Location) :
    ∃ t' : Table, t.define type ⟨receiver, head :: (before ++ after)⟩ l = .ok (t', []) ∧
      t.define type ⟨receiver, head :: (before ++ short :: after)⟩ l =
        .ok (t'.addRelationship ((before ++ after).foldl Relationship.applyModifier
          ⟨column, foreign, table, none, none⟩), []) := by
  let c := (before ++ after).foldl Column.applyModifier
    { type, name := column, parameters := head.trailingArgs }
  have hname : c.name = column := Column.name_foldl_applyModifier _ _
  -- The column does not see the short form, and neither does the primary key.
  have hplain := Column.ofChain_named hhead receiver (before ++ after) l
  have hcolumn : Column.ofChain type ⟨receiver, head :: (before ++ short :: after)⟩ l = .ok c := by
    rw [Column.ofChain_named hhead, List.foldl_append, List.foldl_cons,
      Column.applyModifier_constrained hshort.name, ← List.foldl_append]
  have hprimary : Chain.find? ⟨receiver, head :: (before ++ short :: after)⟩ "primary" =
      Chain.find? ⟨receiver, head :: (before ++ after)⟩ "primary" := by
    simp [Chain.find?, List.find?_cons, List.find?_append, hshort.name]
  have hnone := Relationship.constrained?_eq_none hhead hms c receiver
  have hsome := Relationship.constrained?_eq_some hhead hms hshort hrefers hname receiver
  refine ⟨(if (Chain.find? ⟨receiver, head :: (before ++ after)⟩ "primary").isSome then
    { t with primaryKey := some column } else t).addColumn c, ?_, ?_⟩
  · simp only [define, hplain, hnone, hname, Except.map, c]
  · simp only [define, hcolumn, hprimary, hsome, hname, Except.map]
    rfl

end Column

/-! ### The foreign key written out -/

section WrittenOut

variable {column table foreign : String} {head references on : Call}
  (hhead : head.Spells "foreign" [column]) (hreferences : references.Spells "references" [foreign])
  (hon : on.Spells "on" [table])
include hhead hreferences hon

/-- **A foreign key that is written out** is added to the table, with what all modifiers behind it
say about it. -/
theorem Table.apply_foreign (t : Table) (receiver key : String) (ms : List Call) (l : Location) :
    t.apply key head ⟨receiver, head :: references :: on :: ms⟩ l =
      .ok (t.addRelationship (ms.foldl Relationship.applyModifier
        ⟨column, foreign, table, none, none⟩), []) := by
  have hread : Relationship.ofChain ⟨receiver, head :: references :: on :: ms⟩ l =
      .ok (ms.foldl Relationship.applyModifier ⟨column, foreign, table, none, none⟩) := by
    simp [Relationship.ofChain, Chain.head?, Chain.find?, hhead.name, hreferences.name, hon.name,
      hhead.firstString?, hreferences.firstString?, hon.firstString?, Relationship.applyModifiers,
      Chain.modifiers, Relationship.applyModifier_of_name (Or.inr (Or.inl hreferences.name)),
      Relationship.applyModifier_of_name (Or.inr (Or.inr hon.name))]
  rw [apply_of_foreign t key _ l hhead.name, hread]
  rfl

end WrittenOut

/-! ### Both forms in a replay -/

namespace Replay

/-- **A foreign key in short form is the foreign key written out behind the column.** Let a call
name a column, with any modifiers but short forms behind it, and let a short form be put in among
them. The step of this chain leads from every state with an open table to the state that two steps
lead to: that of the chain without the short form, and that of the foreign key written out with the
same modifiers behind it. None of the steps fails or reports anything, and they change nothing but
the open table. -/
theorem step_constrained (r : Replay) {key : String} (hkey : r.current = some key)
    {column table foreign : String} {type : ColumnType} {texts : List String}
    {head short written references on : Call} {before after : List Call}
    (hhead : head.NamesColumn type column)
    (hms : ∀ m ∈ before ++ after, m.name ≠ "constrained")
    (hshort : short.Spells "constrained" texts) (hrefers : RefersTo column texts table foreign)
    (hwritten : written.Spells "foreign" [column])
    (hreferences : references.Spells "references" [foreign]) (hon : on.Spells "on" [table])
    (receiver : String) (l l' : Location) :
    let k := (before ++ after).foldl Relationship.applyModifier
      { localColumn := column, foreignColumn := foreign, foreignTable := table }
    ∃ t : Table,
      let r₁ := { r with schema := r.schema.setTable key t }
      let r₂ := { r with schema := r.schema.setTable key (t.addRelationship k) }
      r.step (.calls ⟨receiver, head :: (before ++ after)⟩) l = (r₁, .proceed false) ∧
        r₁.step (.calls ⟨receiver, written :: references :: on :: (before ++ after)⟩) l' =
          (r₂, .proceed false) ∧
        r.step (.calls ⟨receiver, head :: (before ++ short :: after)⟩) l =
          (r₂, .proceed false) := by
  intro k
  obtain ⟨t, hplain, hconstrained⟩ := Table.define_constrained hhead hms hshort hrefers
    (r.schema.tableOrNew key) receiver l
  rw [← Table.apply_ofCall? hhead.read _ key] at hplain hconstrained
  have hchanged := step_calls_of_silent hkey rfl hplain
  have hshortened := step_calls_of_silent hkey rfl hconstrained
  -- The foreign key is written out for the table with the column.
  have happly := Table.apply_foreign hwritten hreferences hon t receiver key (before ++ after) l'
  rw [← Schema.tableOrNew_setTable r.schema key t] at happly
  have hbehind := @step_calls_of_silent { r with schema := r.schema.setTable key t } key hkey
    _ written rfl l' _ happly
  rw [Schema.tableOrNew_setTable, Schema.setTable_setTable] at hbehind
  exact ⟨t, hchanged, hbehind, hshortened⟩

/-- The foreign key of a comment on a post, in short form behind the column and written out. -/
theorem step_constrained_comments :
    let r : Replay := { schema := ⟨Dict.ofList [("comments", { name := "comments" })]⟩
                        current := some "comments" }
    let head : Call := ⟨"foreignId", [.string "post_id"], "'post_id'", none⟩
    let nullable : Call := ⟨"nullable", [], "", none⟩
    let cascade : Call := ⟨"cascadeOnDelete", [], "", none⟩
    let short : Call := ⟨"constrained", [], "", none⟩
    let written : Call := ⟨"foreign", [.string "post_id"], "'post_id'", none⟩
    let references : Call := ⟨"references", [.string "id"], "'id'", none⟩
    let on : Call := ⟨"on", [.string "posts"], "'posts'", none⟩
    let comments : Table :=
      { name := "comments"
        columns := Dict.ofList [("post_id",
          { type := .builder .foreignId, name := "post_id", nullable := true })]
        relationships := [⟨"post_id", "id", "posts", some "cascade", none⟩] }
    let r₂ : Replay := { r with schema := ⟨Dict.ofList [("comments", comments)]⟩ }
    head.NamesColumn (.builder .foreignId) "post_id" ∧
      (∀ m ∈ [nullable] ++ [cascade], m.name ≠ "constrained") ∧
      short.Spells "constrained" [] ∧ RefersTo "post_id" [] "posts" "id" ∧
      written.Spells "foreign" ["post_id"] ∧ references.Spells "references" ["id"] ∧
      on.Spells "on" ["posts"] ∧
      r.step (.calls ⟨"$table", [head, nullable, short, cascade]⟩) ⟨"a.php", 2⟩ =
        (r₂, .proceed false) ∧
      ∃ r₁,
        r.step (.calls ⟨"$table", [head, nullable, cascade]⟩) ⟨"a.php", 2⟩ =
          (r₁, .proceed false) ∧
        r₁.step (.calls ⟨"$table", [written, references, on, nullable, cascade]⟩) ⟨"a.php", 3⟩ =
          (r₂, .proceed false) := by
  intro r head nullable cascade short written references on comments r₂
  have hhead : head.NamesColumn (.builder .foreignId) "post_id" := ⟨rfl, rfl, rfl⟩
  have hms : ∀ m ∈ [nullable] ++ [cascade], m.name ≠ "constrained" := by decide
  have hshort : short.Spells "constrained" [] := ⟨rfl, rfl⟩
  have hrefers : RefersTo "post_id" [] "posts" "id" := .convention "post" rfl
  have hwritten : written.Spells "foreign" ["post_id"] := ⟨rfl, rfl⟩
  have hreferences : references.Spells "references" ["id"] := ⟨rfl, rfl⟩
  have hon : on.Spells "on" ["posts"] := ⟨rfl, rfl⟩
  have hstep : r.step (.calls ⟨"$table", [head, nullable, short, cascade]⟩) ⟨"a.php", 2⟩ =
      (r₂, .proceed false) := by
    decide
  obtain ⟨t, hplain, hbehind, hconstrained⟩ := step_constrained r rfl hhead hms hshort hrefers
    hwritten hreferences hon "$table" ⟨"a.php", 2⟩ ⟨"a.php", 3⟩
  exact ⟨hhead, hms, hshort, hrefers, hwritten, hreferences, hon, hstep, _, hplain,
    hbehind.trans (hconstrained.symm.trans hstep)⟩

end Replay

end SchemaHistory

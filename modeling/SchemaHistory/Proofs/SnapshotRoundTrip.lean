import SchemaHistory.Proofs.JsonText
import SchemaHistory.Schema.Snapshot

/-!
# A snapshot loses nothing

The schema that is read from a snapshot is the one that the snapshot was taken of
(`SchemaHistory.Schema.ofSnapshot?_snapshot`): the same tables and columns under the same keys and
in the same order, whatever the texts in them are. The keys need not be the names of what is
stored under them, and nothing is assumed about the schema.

The snapshot is a textual value, so its text is read back as the value. It is left to see that
each reader of a record finds what the writer has put there. A record that is written has every
field once, so each field is found under its name (`SchemaHistory.Json.asRecord?_ofEntries`); a
dictionary has no key twice, so storing its entries one after the other gives it again
(`SchemaHistory.Dict.ofList_entries`). A type with a builder call is a string and a type that only
SQL has a name for is an object, so the two are not confused even if that name is a tag.
-/

namespace SchemaHistory

namespace Json

/-! ### Texts and truth values -/

@[simp] theorem required?_some {α : Type} (read : Json → Option α) (j : Json) :
    required? read (some j) = read j := rfl

@[simp] theorem asBool?_bool (b : Bool) : asBool? (bool b) = some b := rfl

@[simp] theorem asString?_ofString (s : String) : asString? (ofString s) = some s := by
  rw [ofString, asString?, textOf?_encode, Option.map_some, String.ofList_toList]

@[simp] theorem optionalString?_ofString? (s : Option String) :
    optionalString? (some (ofString? s)) = some s := by
  cases s with
  | none => rfl
  | some s =>
    have hstring : optionalString? (some (ofString s)) = (asString? (ofString s)).map some := rfl
    rw [ofString?, hstring, asString?_ofString]
    rfl

theorem textual_ofString (s : String) : Textual (ofString s) :=
  .string s.toList

theorem textual_ofString? (s : Option String) : Textual (ofString? s) := by
  cases s with
  | none => exact .null
  | some s => exact textual_ofString s

/-! ### Lists and records -/

theorem mapM_eq_some_map {α β : Type} {f : α → Option β} {g : α → β} {l : List α}
    (h : ∀ a ∈ l, f a = some (g a)) : l.mapM f = some (l.map g) := by
  induction l with
  | nil => rfl
  | cons a l ih =>
    rw [List.mapM_cons, h a List.mem_cons_self, ih fun b hb => h b (List.mem_cons_of_mem a hb)]
    rfl

/-- What is written one by one is read one by one. -/
theorem mapM_read_map_write {α β : Type} {write : α → β} {read : β → Option α} {l : List α}
    (h : ∀ a ∈ l, read (write a) = some a) : (l.map write).mapM read = some l := by
  rw [List.mapM_map]
  exact (mapM_eq_some_map (g := id) h).trans (by rw [List.map_id])

variable {entries : List (String × Json)}

theorem textual_ofEntries (h : ∀ e ∈ entries, Textual e.2) : Textual (ofEntries entries) := by
  refine .object (fun x hx => ?_) fun x hx => ?_
  all_goals obtain ⟨e, he, rfl⟩ := List.mem_map.1 hx
  · exact ⟨e.1.toList, rfl⟩
  · exact h e he

/-- The keys of an object that is written say what they said. -/
theorem asEntries?_ofEntries (entries : List (String × Json)) :
    asEntries? (ofEntries entries) = some entries := by
  refine mapM_read_map_write fun e _ => ?_
  simp only [textOf?_encode, Option.map_some, String.ofList_toList]

/-- An entry whose key occurs once is found under its key. -/
theorem field?_of_mem (hnodup : (entries.map Prod.fst).Nodup) {e : String × Json}
    (he : e ∈ entries) : field? entries e.1 = some (some e.2) := by
  rw [field?, Dict.filter_key_eq_singleton hnodup he]

/-- **A record that is written is read field by field.** -/
theorem asRecord?_ofEntries {names : List String} (hnames : entries.map Prod.fst = names)
    (hnodup : names.Nodup) :
    asRecord? names (ofEntries entries) = some (entries.map fun e => some e.2) := by
  subst hnames
  have hobject : asRecord? (entries.map Prod.fst) (ofEntries entries) =
      (asEntries? (ofEntries entries)).bind fun es => (entries.map Prod.fst).mapM (field? es) := rfl
  rw [hobject, asEntries?_ofEntries, Option.bind_some, List.mapM_map]
  exact mapM_eq_some_map fun e he => field?_of_mem hnodup he

/-- **A dictionary that is written is read as it was**, if what is stored in it is. -/
theorem asDict?_toJson {α : Type} {write : α → Json} {read : Json → Option α}
    {d : Dict String α} (h : ∀ v ∈ d.values, read (write v) = some v) :
    asDict? read (d.toJson write) = some d := by
  have hentries : (d.entries.map fun e => (e.1, write e.2)).mapM
      (fun e => (read e.2).map fun v => (e.1, v)) = some d.entries := by
    rw [List.mapM_map]
    refine (mapM_eq_some_map (g := id) fun e he => ?_).trans (by rw [List.map_id])
    rw [Function.comp_apply, h e.2 (List.mem_map_of_mem he)]
    rfl
  rw [asDict?, Dict.toJson, asEntries?_ofEntries, Option.bind_some, hentries, Option.map_some,
    Dict.ofList_entries]

theorem textual_toJson {α : Type} {write : α → Json} {d : Dict String α}
    (h : ∀ v ∈ d.values, Textual (write v)) : Textual (d.toJson write) := by
  refine textual_ofEntries fun x hx => ?_
  obtain ⟨e, he, rfl⟩ := List.mem_map.1 hx
  exact h e.2 (List.mem_map_of_mem he)

end Json

/-! ### Columns and relationships -/

/-- The tag of a builder call is that of no other call. -/
theorem Builder.ofTag?_tag (b : Builder) : ofTag? b.tag = some b := by
  have hall : ∀ b ∈ all, ofTag? b.tag = some b := by decide +kernel
  exact hall b (mem_all b)

/-- The tag of a builder call and a SQL name are told apart by where they stand. -/
@[simp] theorem ColumnType.ofJson?_toJson (t : ColumnType) : ofJson? t.toJson = some t := by
  cases t with
  | builder b =>
    have hstring : ofJson? (builder b).toJson =
        (Json.asString? (Json.ofString b.tag)).bind fun s => (Builder.ofTag? s).map builder := rfl
    rw [hstring, Json.asString?_ofString, Option.bind_some, Builder.ofTag?_tag]
    rfl
  | other name =>
    have hobject : ofJson? (other name).toJson =
        (Json.textOf? (Json.encode "Other".toList)).bind fun key =>
          if String.ofList key = "Other" then (Json.asString? (Json.ofString name)).map other
          else none := rfl
    rw [hobject, Json.textOf?_encode, Option.bind_some, String.ofList_toList, if_pos rfl,
      Json.asString?_ofString]
    rfl

theorem ColumnType.textual_toJson (t : ColumnType) : t.toJson.Textual := by
  cases t with
  | builder b => exact Json.textual_ofString _
  | other name => exact Json.textual_ofEntries (by simp [Json.textual_ofString])

@[simp] theorem Column.ofJson?_toJson (c : Column) : ofJson? c.toJson = some c := by
  rw [ofJson?, toJson, Json.asRecord?_ofEntries]
  case hnames => rfl
  case hnodup => decide
  simp

theorem Column.textual_toJson (c : Column) : c.toJson.Textual := by
  refine Json.textual_ofEntries ?_
  simp [c.type.textual_toJson, Json.Textual.bool, Json.textual_ofString, Json.textual_ofString?]

@[simp] theorem Relationship.ofJson?_toJson (r : Relationship) : ofJson? r.toJson = some r := by
  rw [ofJson?, toJson, Json.asRecord?_ofEntries]
  case hnames => rfl
  case hnodup => decide
  simp

theorem Relationship.textual_toJson (r : Relationship) : r.toJson.Textual := by
  refine Json.textual_ofEntries ?_
  simp [Json.textual_ofString, Json.textual_ofString?]

/-! ### Tables and schemas -/

@[simp] theorem Table.ofJson?_toJson (t : Table) : ofJson? t.toJson = some t := by
  have hcolumns : Json.asDict? Column.ofJson? (t.columns.toJson Column.toJson) = some t.columns :=
    Json.asDict?_toJson fun c _ => c.ofJson?_toJson
  have hrelationships : (t.relationships.map Relationship.toJson).mapM Relationship.ofJson? =
      some t.relationships :=
    Json.mapM_read_map_write fun r _ => r.ofJson?_toJson
  rw [ofJson?, toJson, Json.asRecord?_ofEntries]
  case hnames => rfl
  case hnodup => decide
  simp [hcolumns, hrelationships, Json.asList?]

theorem Table.textual_toJson (t : Table) : t.toJson.Textual := by
  have hcolumns : (t.columns.toJson Column.toJson).Textual :=
    Json.textual_toJson fun c _ => c.textual_toJson
  have hrelationships : (Json.list (t.relationships.map Relationship.toJson)).Textual := by
    refine .list fun j hj => ?_
    obtain ⟨r, -, rfl⟩ := List.mem_map.1 hj
    exact r.textual_toJson
  refine Json.textual_ofEntries ?_
  simp [hcolumns, hrelationships, Json.textual_ofString, Json.textual_ofString?]

/-- **The value that is written of a schema is read as the schema.** -/
theorem Schema.ofJson?_toJson (s : Schema) : ofJson? s.toJson = some s := by
  have htables : Json.asDict? Table.ofJson? (s.tables.toJson Table.toJson) = some s.tables :=
    Json.asDict?_toJson fun t _ => t.ofJson?_toJson
  rw [ofJson?, toJson, Json.asRecord?_ofEntries]
  case hnames => rfl
  case hnodup => decide
  simp [htables]

theorem Schema.textual_toJson (s : Schema) : s.toJson.Textual := by
  have htables : (s.tables.toJson Table.toJson).Textual :=
    Json.textual_toJson fun t _ => t.textual_toJson
  refine Json.textual_ofEntries ?_
  simp [htables]

/-- **The snapshot of a schema loses nothing.** It is read as the schema that it was taken of, with
the same tables and columns, under the same keys and in the same order. -/
theorem Schema.ofSnapshot?_snapshot (s : Schema) : ofSnapshot? s.snapshot = some s := by
  have htext : s.snapshot.toList = Json.write 0 s.toJson := by
    rw [snapshot, Json.toText, String.toList_ofList]
  rw [ofSnapshot?, htext, s.textual_toJson.parse?_write, Option.bind_some, s.ofJson?_toJson]

end SchemaHistory

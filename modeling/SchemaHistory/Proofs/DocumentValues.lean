import SchemaHistory.Settings.File

/-!
# The values of a document

What a document says, apart from how it is written. A value is found by an **address**: from the top
table by a key or a place at a time. A table is a table whether it has a header, braces or dotted
keys, and a list is a list whether it has brackets or one header for each of its tables
(`SchemaHistory.Toml.Document.at?`).

The settings in a document depend on its values only (`SchemaHistory.Settings.ofDocument?_eq`). A
section may be missing, may be a table that has the settings by name, may be a list that has them in
order, and may even be a moment, which has none.
-/

namespace SchemaHistory

namespace Toml

/-- One step of an **address**: into a table or into a list. -/
inductive Hop
  | key (name : String)
  | index (i : Nat)
  deriving DecidableEq

/-- What stands at an address. Of tables and lists it is only said that they are there, since what
is in them has addresses of its own; numbers and moments are told apart by how they are written. -/
inductive Datum
  | text (s : String)
  | flag (b : Bool)
  | literal (kind : Scalar) (spelling : List Char)
  | list
  | table
  deriving DecidableEq

/-- The text, if it is one. -/
def Datum.text? : Datum → Option String
  | text s => some s
  | _ => none

/-- What a scalar is that is written in some way. -/
def Scalar.datum (spelling : List Char) : Scalar → Datum
  | string s => .text s
  | boolean b => .flag b
  | v => .literal v spelling

/-- What a value is. -/
def Value.datum : Value → Datum
  | scalar v spelling _ => v.datum spelling
  | array .. => .list
  | table .. => .table

/-- What a key leads to. -/
def Item.datum : Item → Datum
  | value v => v.datum
  | table .. => .table
  | tables _ => .list

/-- What stands at an address in a value. -/
def Value.at? : List Hop → Value → Option Datum
  | [], v => some v.datum
  | .key name :: path, .table entries .. => (find? name entries).bind (Value.at? path)
  | .index i :: path, .array items .. => items[i]?.bind (Value.at? path)
  | _ :: _, _ => none

/-- What stands at an address in what a key leads to. -/
def Item.at? : List Hop → Item → Option Datum
  | [], item => some item.datum
  | path, .value v => v.at? path
  | .key name :: path, .table _ entries => (find? name entries).bind (Item.at? path)
  | .index i :: path, .tables ts => ts[i]?.bind fun t => Item.at? path (.table t.1 t.2)
  | _ :: _, _ => none

/-- What stands at an **address** of a document. -/
def Document.at? (d : Document) (path : List Hop) : Option Datum :=
  Item.at? path (.table d.root.1 d.root.2)

@[simp] theorem Item.at?_nil (item : Item) : Item.at? [] item = some item.datum := by
  cases item <;> rfl

@[simp] theorem Item.at?_value (path : List Hop) (v : Value) :
    Item.at? path (.value v) = v.at? path := by
  cases path <;> rfl

@[simp] theorem Item.at?_table_key (name : String) (path : List Hop) (head : Head)
    (entries : Entries) :
    Item.at? (.key name :: path) (.table head entries) = (find? name entries).bind (Item.at? path) :=
  rfl

theorem Document.at?_key (d : Document) (name : String) (path : List Hop) :
    d.at? (.key name :: path) = (find? name d.root.2).bind (Item.at? path) :=
  rfl

/-- A scalar has nothing in it. -/
@[simp] theorem Value.at?_scalar_cons (h : Hop) (path : List Hop) (v : Scalar) (s : List Char)
    (d : Decor) : Value.at? (h :: path) (.scalar v s d) = none := by
  cases h <;> rfl

theorem find?_cons {α : Type} {name : String} (k : Key) (a : α) (es : List (Key × α)) :
    find? name ((k, a) :: es) = if k.name = name then some a else find? name es := by
  by_cases h : k.name = name <;> simp [find?, h]

/-! ### Outlines

Most settings files are made of tables with scalars in them. The values of such a document are those
in a finite list, which can be computed.
-/

/-- Entries as a list of their names, and of what a function makes of what these lead to. -/
def outline? {α β : Type} (f : α → Option β) (entries : List (Key × α)) :
    Option (List (String × β)) :=
  entries.mapM fun e => (f e.2).map (e.1.name, ·)

/-- What an item is that is a scalar. -/
def Item.scalar? : Item → Option Datum
  | .value (.scalar v spelling _) => some (v.datum spelling)
  | _ => none

/-- What is in a table that has only scalars. -/
def Item.scalars? : Item → Option (List (String × Datum))
  | .table _ entries => outline? Item.scalar? entries
  | _ => none

/-- The **outline** of a document that is made of tables with nothing but scalars in them. -/
def Outline : Type :=
  List (String × List (String × Datum))
  deriving DecidableEq

/-- The outline of a document, if it has one. -/
def Document.outline? (d : Document) : Option Outline :=
  Toml.outline? Item.scalars? d.root.2

theorem find?_of_outline? {α β : Type} {f : α → Option β} {entries : List (Key × α)}
    {o : List (String × β)} (h : outline? f entries = some o) (name : String) :
    (find? name entries).map f = (o.lookup name).map some := by
  induction entries generalizing o with
  | nil =>
    obtain rfl : [] = o := by simpa [outline?] using h
    rfl
  | cons e entries ih =>
    obtain ⟨k, a⟩ := e
    simp only [outline?, List.mapM_cons, Option.bind_eq_bind, Option.bind_eq_some_iff,
      Option.map_eq_some_iff, Option.pure_def, Option.some.injEq] at h
    obtain ⟨_, ⟨b, hb, rfl⟩, o', ho, rfl⟩ := h
    rw [find?_cons, List.lookup_cons]
    by_cases hk : k.name = name
    · simp [hk, hb]
    · rw [if_neg hk, ih ho, beq_false_of_ne (Ne.symm hk)]

/-- What is found in entries is known from their outline. -/
theorem find?_bind_of_outline? {α β γ : Type} {f : α → Option β} {g : α → Option γ}
    {g' : β → Option γ} {entries : List (Key × α)} {o : List (String × β)}
    (h : outline? f entries = some o) (hg : ∀ a b, f a = some b → g a = g' b) (name : String) :
    (find? name entries).bind g = (o.lookup name).bind g' := by
  have hfind := find?_of_outline? h name
  cases ha : find? name entries with
  | none =>
    rw [ha, Option.map_none, eq_comm, Option.map_eq_none_iff] at hfind
    rw [hfind]
    rfl
  | some a =>
    rw [ha, Option.map_some, eq_comm, Option.map_eq_some_iff] at hfind
    obtain ⟨b, hb, hfa⟩ := hfind
    rw [hb]
    exact hg a b hfa.symm

/-- What stands at an address in a table of scalars. -/
def at?InScalars : List Hop → List (String × Datum) → Option Datum
  | [], _ => some .table
  | [.key name], o => o.lookup name
  | _, _ => none

/-- What stands at an address in an outline. -/
def Outline.at? (o : Outline) : List Hop → Option Datum
  | [] => some .table
  | .key name :: path => (o.lookup name).bind (at?InScalars path)
  | .index _ :: _ => none

theorem Item.at?_of_scalar? {item : Item} {v : Datum} (h : item.scalar? = some v)
    (path : List Hop) : item.at? path = if path = [] then some v else none := by
  rcases item with (⟨_, _, _⟩ | _ | _) | _ | _
  all_goals simp only [Item.scalar?, reduceCtorEq, Option.some.injEq] at h
  subst h
  cases path <;> simp [Value.at?, Value.datum]

theorem Item.at?_of_scalars? {item : Item} {o : List (String × Datum)}
    (h : item.scalars? = some o) (path : List Hop) : item.at? path = at?InScalars path o := by
  rcases item with _ | ⟨head, entries⟩ | _
  · simp [Item.scalars?] at h
  · rcases path with _ | ⟨name | _, path⟩
    · rfl
    · rw [Item.at?_table_key, find?_bind_of_outline? h fun a b hab => at?_of_scalar? hab path]
      cases path <;> simp [at?InScalars]
    · rfl
  · simp [Item.scalars?] at h

/-- **The values of a document with an outline** are those of the outline. -/
theorem Document.at?_of_outline? {d : Document} {o : Outline} (h : d.outline? = some o)
    (path : List Hop) : d.at? path = o.at? path := by
  rcases path with _ | ⟨name | _, path⟩
  · rfl
  · rw [Document.at?_key]
    exact find?_bind_of_outline? h (fun a b hab => Item.at?_of_scalars? hab path) name
  · rfl

end Toml

namespace Settings

open Toml

/-! ### Settings by their values -/

/-- What a section has under a setting: by name if it is a table, by place if it is a list. -/
def field? (d : Document) (part : String) (place : Nat) (name : String) : Option Datum :=
  match d.at? [.key part] with
  | some .table => d.at? [.key part, .key name]
  | some .list => d.at? [.key part, .index place]
  | _ => none

/-- Whether settings can be read from what stands where a section should. -/
def isReadable : Option Datum → Bool
  | none | some .table | some .list | some (.literal .moment _) => true
  | _ => false

/-- A setting that is a text, by its value. -/
def textOr? (default : String) : Option Datum → Option String
  | none => some default
  | some (.text s) => some s
  | some _ => none

/-- A setting that is on or off, by its value. -/
def flagOr? (default : Bool) : Option Datum → Option Bool
  | none => some default
  | some (.flag b) => some b
  | some _ => none

theorem readText?_eq (default : String) (item : Option Toml.Item) :
    readText? default item = textOr? default (item.map Toml.Item.datum) := by
  rcases item with _ | ((_ | _ | _) | _ | _) <;> try rfl
  rename_i v _ _
  cases v <;> rfl

theorem readFlag?_eq (default : Bool) (item : Option Toml.Item) :
    readFlag? default item = flagOr? default (item.map Toml.Item.datum) := by
  rcases item with _ | ((_ | _ | _) | _ | _) <;> try rfl
  rename_i v _ _
  cases v <;> rfl

/-- What an item has under a setting, if it is a section. -/
def itemField? (item : Toml.Item) (place : Nat) (name : String) : Option Datum :=
  match item.datum with
  | .table => item.at? [.key name]
  | .list => item.at? [.index place]
  | _ => none

theorem field?_eq (d : Document) (part : String) (place : Nat) (name : String) :
    field? d part place name = (find? part d.root.2).bind (itemField? · place name) := by
  simp only [field?, Document.at?_key]
  cases find? part d.root.2 with
  | none => rfl
  | some item =>
    simp only [Option.bind_some, Toml.Item.at?_nil, itemField?]
    cases item.datum <;> rfl

/-- **The fields of an item are its values**, if it is a section. -/
theorem fields?_eq (item : Toml.Item) (names : List String) :
    (item.fields? names).map (·.map (·.map Toml.Item.datum)) =
      if isReadable (some item.datum) then
        some (names.zipIdx.map fun n => itemField? item n.2 n.1)
      else none := by
  match item with
  | .value (.table entries ..) =>
    refine congrArg some (List.ext_getElem (by simp) fun i h h' => ?_)
    rw [List.getElem_map, List.getElem_map, List.getElem_map, List.getElem_zipIdx]
    change Option.map Toml.Item.datum (Option.map Toml.Item.value (find? _ entries)) =
      (find? _ entries).bind (Value.at? [])
    cases find? _ entries <;> rfl
  | .table head entries =>
    refine congrArg some (List.ext_getElem (by simp) fun i h h' => ?_)
    rw [List.getElem_map, List.getElem_map, List.getElem_map, List.getElem_zipIdx]
    change Option.map Toml.Item.datum (find? _ entries) = (find? _ entries).bind (Toml.Item.at? [])
    cases find? _ entries <;> simp
  | .value (.array items ..) =>
    refine congrArg some (List.ext_getElem (by simp) fun i h h' => ?_)
    rw [List.getElem_map, List.getElem_map, List.getElem_map, List.getElem_zipIdx,
      List.getElem_range, Nat.zero_add]
    change Option.map Toml.Item.datum (Option.map Toml.Item.value items[i]?) = items[i]?.bind (Value.at? [])
    cases items[i]? <;> rfl
  | .tables ts =>
    refine congrArg some (List.ext_getElem (by simp) fun i h h' => ?_)
    rw [List.getElem_map, List.getElem_map, List.getElem_map, List.getElem_zipIdx,
      List.getElem_range, Nat.zero_add]
    change Option.map Toml.Item.datum (Option.map _ ts[i]?) = ts[i]?.bind _
    cases ts[i]? <;> rfl
  | .value (.scalar v ..) =>
    cases v with
    | moment =>
      refine congrArg some (List.ext_getElem (by simp) fun i h h' => ?_)
      rw [List.getElem_map, List.getElem_map, List.getElem_map]
      rfl
    | _ => rfl

theorem sectionFields?_eq (d : Document) (part : String) (names : List String) :
    (sectionFields? d part names).map (·.map (·.map Toml.Item.datum)) =
      if isReadable (d.at? [.key part]) then
        some (names.zipIdx.map fun n => field? d part n.2 n.1)
      else none := by
  simp only [sectionFields?, field?_eq, Document.at?_key]
  cases find? part d.root.2 with
  | none =>
    refine congrArg some (List.ext_getElem (by simp) fun i h h' => ?_)
    rw [List.getElem_map, List.getElem_map, List.getElem_map]
    rfl
  | some item => simpa using fields?_eq item names

/-- What is read from the section with the folders. -/
theorem readPaths?_eq_some_iff (d : Document) (s s' : Settings) :
    readPaths? d s = some s' ↔ isReadable (d.at? [.key "paths"]) = true ∧
      textOr? s.migrations (field? d "paths" 0 "migrations") = some s'.migrations ∧
      textOr? s.output (field? d "paths" 1 "output") = some s'.output ∧
      textOr? s.moveTo (field? d "paths" 2 "move_to") = some s'.moveTo ∧
      s'.extension = s.extension ∧ s'.snapshot = s.snapshot := by
  have hfields := sectionFields?_eq d "paths" ["migrations", "output", "move_to"]
  rw [readPaths?]
  cases hp : isReadable (d.at? [.key "paths"]) with
  | false =>
    rw [hp, if_neg Bool.false_ne_true, Option.map_eq_none_iff] at hfields
    simp [hfields]
  | true =>
    rw [hp, if_pos rfl] at hfields
    obtain ⟨items, hitems, hfields⟩ := Option.map_eq_some_iff.1 hfields
    rcases items with _ | ⟨migrations, _ | ⟨output, _ | ⟨moveTo, _ | _⟩⟩⟩ <;> simp at hfields
    obtain ⟨h0, h1, h2⟩ := hfields
    rw [hitems, ← h0, ← h1, ← h2, ← readText?_eq, ← readText?_eq, ← readText?_eq]
    obtain ⟨m, o, t, e, b⟩ := s'
    simp only [Option.bind_eq_bind, Option.bind_some, Option.bind_eq_some_iff]
    constructor
    · rintro ⟨_, hm, _, ho, _, ht, h⟩
      obtain ⟨rfl, rfl, rfl, rfl, rfl⟩ := Settings.mk.inj (Option.some.inj h)
      exact ⟨trivial, hm, ho, ht, rfl, rfl⟩
    · rintro ⟨-, hm, ho, ht, rfl, rfl⟩
      exact ⟨_, hm, _, ho, _, ht, rfl⟩

/-- What is read from the section on scripts. -/
theorem readOutput?_eq_some_iff (d : Document) (s s' : Settings) :
    readOutput? d s = some s' ↔ isReadable (d.at? [.key "output"]) = true ∧
      textOr? s.extension (field? d "output" 0 "extension") = some s'.extension ∧
      flagOr? s.snapshot (field? d "output" 1 "snapshot") = some s'.snapshot ∧
      s'.migrations = s.migrations ∧ s'.output = s.output ∧ s'.moveTo = s.moveTo := by
  have hfields := sectionFields?_eq d "output" ["extension", "snapshot"]
  rw [readOutput?]
  cases hp : isReadable (d.at? [.key "output"]) with
  | false =>
    rw [hp, if_neg Bool.false_ne_true, Option.map_eq_none_iff] at hfields
    simp [hfields]
  | true =>
    rw [hp, if_pos rfl] at hfields
    obtain ⟨items, hitems, hfields⟩ := Option.map_eq_some_iff.1 hfields
    rcases items with _ | ⟨extension, _ | ⟨snapshot, _ | _⟩⟩ <;> simp at hfields
    obtain ⟨h0, h1⟩ := hfields
    rw [hitems, ← h0, ← h1, ← readText?_eq, ← readFlag?_eq]
    obtain ⟨m, o, t, e, b⟩ := s'
    simp only [Option.bind_eq_bind, Option.bind_some, Option.bind_eq_some_iff]
    constructor
    · rintro ⟨_, he, _, hb, h⟩
      obtain ⟨rfl, rfl, rfl, rfl, rfl⟩ := Settings.mk.inj (Option.some.inj h)
      exact ⟨trivial, he, hb, rfl, rfl, rfl⟩
    · rintro ⟨-, he, hb, rfl, rfl, rfl⟩
      exact ⟨_, he, _, hb, rfl⟩

/-- **The settings in a document depend on its values only.** -/
theorem ofDocument?_eq_some_iff (d : Document) (s : Settings) :
    ofDocument? d = some s ↔
      (isReadable (d.at? [.key "paths"]) = true ∧ isReadable (d.at? [.key "output"]) = true) ∧
      textOr? "database/migrations" (field? d "paths" 0 "migrations") = some s.migrations ∧
      textOr? "tests/migrations" (field? d "paths" 1 "output") = some s.output ∧
      textOr? "database/migrations" (field? d "paths" 2 "move_to") = some s.moveTo ∧
      textOr? "php" (field? d "output" 0 "extension") = some s.extension ∧
      flagOr? false (field? d "output" 1 "snapshot") = some s.snapshot := by
  simp only [ofDocument?, Option.bind_eq_some_iff, readPaths?_eq_some_iff, readOutput?_eq_some_iff]
  constructor
  · rintro ⟨s₀, ⟨hp, hm, ho, ht, he, hb⟩, hp', he', hb', hm', ho', ht'⟩
    rw [he] at he'
    rw [hb] at hb'
    rw [hm', ho', ht']
    exact ⟨⟨hp, hp'⟩, hm, ho, ht, he', hb'⟩
  · rintro ⟨⟨hp, hp'⟩, hm, ho, ht, he, hb⟩
    exact ⟨{ s with extension := "php", snapshot := false }, ⟨hp, hm, ho, ht, rfl, rfl⟩, hp', he, hb,
      rfl, rfl, rfl⟩

/-- Documents with the same values have the same settings. -/
theorem ofDocument?_congr {d d' : Document} (h : ∀ path, d.at? path = d'.at? path) :
    ofDocument? d = ofDocument? d' := by
  refine Option.ext fun s => ?_
  simp only [ofDocument?_eq_some_iff, field?, h]

end Settings

end SchemaHistory

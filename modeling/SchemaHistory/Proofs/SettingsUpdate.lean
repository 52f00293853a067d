import SchemaHistory.Proofs.DocumentValues

/-!
# Updating a settings file

What storing the settings does to the values of a document, whatever the document is: the five
settings are what they are to be (`SchemaHistory.Settings.at?_updated_section`), and every other
address leads where it led before (`SchemaHistory.Settings.at?_updated_of_isOther`). A section that
is a table of any kind is filled; what stands in the place of a section and is no table is replaced,
and only what was in it is lost.

So the settings that are read from an updated document are those that were stored in it
(`SchemaHistory.Settings.ofDocument?_updated`).
-/

namespace SchemaHistory

namespace Toml

section Entries

variable {α β : Type} {name name' : String}

theorem Key.plain_name (k : Key) : k.plain.name = k.name := rfl

theorem find?_put_self (a : α) (es : List (Key × α)) : find? name (put name a es) = some a := by
  induction es with
  | nil => simp [put, find?]
  | cons e es ih =>
    obtain ⟨k, b⟩ := e
    rw [put]
    split
    case isTrue h => rw [find?_cons, Key.plain_name, if_pos h]
    case isFalse h => rw [find?_cons, if_neg h, ih]

theorem find?_put_of_ne (h : name' ≠ name) (a : α) (es : List (Key × α)) :
    find? name' (put name a es) = find? name' es := by
  induction es with
  | nil => simp [put, find?, h.symm]
  | cons e es ih =>
    obtain ⟨k, b⟩ := e
    rw [put]
    split
    case isTrue hk =>
      have hne : k.name ≠ name' := fun hk' => h (hk'.symm.trans hk)
      rw [find?_cons, find?_cons, Key.plain_name, if_neg hne, if_neg hne]
    case isFalse => rw [find?_cons, find?_cons, ih]

theorem find?_refill_self (a : α) (es : List (Key × α)) :
    find? name (refill name a es) = (find? name es).map fun _ => a := by
  induction es with
  | nil => rfl
  | cons e es ih =>
    obtain ⟨k, b⟩ := e
    by_cases hk : k.name = name
    · simp [refill, find?, hk]
    · rw [find?_cons, if_neg hk, ← ih, refill, List.map_cons, if_neg hk, find?_cons, if_neg hk]
      rfl

theorem find?_refill_of_ne (h : name' ≠ name) (a : α) (es : List (Key × α)) :
    find? name' (refill name a es) = find? name' es := by
  induction es with
  | nil => rfl
  | cons e es ih =>
    obtain ⟨k, b⟩ := e
    rw [find?_cons, ← ih, refill, List.map_cons]
    by_cases hk : k.name = name
    · have hne : k.name ≠ name' := fun hk' => h (hk'.symm.trans hk)
      rw [if_pos hk, find?_cons, if_neg hne, if_neg hne]
      rfl
    · rw [if_neg hk, find?_cons]
      rfl

theorem find?_eq_none {es : List (Key × α)} (h : name ∉ es.map (·.1.name)) :
    find? name es = none := by
  simp only [find?, Option.map_eq_none_iff, List.find?_eq_none, beq_iff_eq]
  rintro e he rfl
  exact h (List.mem_map.2 ⟨e, he, rfl⟩)

/-- Entries that are stored one after the other, each under a name of its own. -/
theorem find?_foldl_put (name : String) {f : α → β} {entries : List (Key × α)}
    (hnodup : (entries.map (·.1.name)).Nodup) (es : List (Key × β)) :
    find? name (entries.foldl (fun es e => put e.1.name (f e.2) es) es) =
      ((find? name entries).map f).or (find? name es) := by
  induction entries generalizing es with
  | nil => rfl
  | cons e entries ih =>
    obtain ⟨k, a⟩ := e
    rw [List.map_cons, List.nodup_cons] at hnodup
    rw [List.foldl_cons, ih hnodup.2, find?_cons]
    by_cases hk : k.name = name
    · have hnone : find? name entries = none := find?_eq_none (hk ▸ hnodup.1)
      rw [if_pos hk, hnone, hk, find?_put_self]
      rfl
    · rw [if_neg hk, find?_put_of_ne (Ne.symm hk)]

end Entries

end Toml

namespace Settings

open Toml

section Section

variable {entries : List (Key × Value)} {item item' : Toml.Item}

/-- Only a table is filled. -/
theorem isSome_fill? (entries : List (Key × Value)) (item : Toml.Item) :
    (fill? entries item).isSome = true ↔ item.datum = .table := by
  rcases item with (⟨v, _, _⟩ | _ | _) | _ | _
  · cases v <;> simp [fill?, Toml.Item.datum, Value.datum, Scalar.datum]
  all_goals simp [fill?, Toml.Item.datum, Value.datum]

/-- **What is in a table that has been filled**: the entries, and what was in it under other names. -/
theorem at?_fill? (hnodup : (entries.map (·.1.name)).Nodup) (h : fill? entries item = some item') :
    item'.datum = .table ∧ ∀ name path, item'.at? (.key name :: path) =
      match find? name entries with
      | some v => v.at? path
      | none => item.at? (.key name :: path) := by
  rcases item with (_ | _ | ⟨es, dotted, preamble, d⟩) | ⟨head, es⟩ | _
  · simp [fill?] at h
  · simp [fill?] at h
  · obtain rfl := Option.some.inj h
    refine ⟨rfl, fun name path => ?_⟩
    have hfind := find?_foldl_put name (f := id) hnodup es
    change (find? name (entries.foldl (fun es e => put e.1.name (id e.2) es) es)).bind _ = _
    rw [hfind]
    cases find? name entries <;> rfl
  · obtain rfl := Option.some.inj h
    refine ⟨rfl, fun name path => ?_⟩
    have hfind := find?_foldl_put name (f := Toml.Item.value) hnodup es
    rw [Toml.Item.at?_table_key, hfind]
    cases find? name entries <;> simp
  · simp [fill?] at h

/-- What is in a section that has been made. -/
theorem at?_sectionTable (position : Nat) (space : List Char) (name : String) (path : List Hop) :
    (sectionTable position space entries).at? (.key name :: path) =
      (find? name entries).bind (Value.at? path) := by
  have hfind : find? name (entries.map fun e => (e.1, Toml.Item.value e.2)) =
      (find? name entries).map Toml.Item.value := by
    simp [find?, List.find?_map, Function.comp_def]
  rw [sectionTable, Toml.Item.at?_table_key, hfind]
  cases find? name entries <;> simp

/-! ### Storing a section -/

variable {position : Nat} {part : String} {space : List Char} {top : Entries}

theorem find?_putSection_of_ne {name : String} (h : name ≠ part) :
    find? name (putSection position part space entries top) = find? name top := by
  rw [putSection]
  split
  · exact find?_refill_of_ne h _ _
  · exact find?_put_of_ne h _ _

/-- **What is in a section that has been stored**: the entries, and what was in it under other names
if it was a table. -/
theorem find?_putSection_self (position : Nat) (part : String) (space : List Char) (top : Entries)
    (hnodup : (entries.map (·.1.name)).Nodup) :
    ∃ item, find? part (putSection position part space entries top) = some item ∧
      item.datum = .table ∧ ∀ name path, item.at? (.key name :: path) =
        match find? name entries with
        | some v => v.at? path
        | none => (find? part top).bind fun old =>
            if old.datum = .table then old.at? (.key name :: path) else none := by
  rw [putSection]
  cases hfill : (find? part top).bind (fill? entries) with
  | some item =>
    obtain ⟨old, hold, hitem⟩ := Option.bind_eq_some_iff.1 hfill
    obtain ⟨htable, hat⟩ := at?_fill? hnodup hitem
    have hdatum : old.datum = .table :=
      (isSome_fill? entries old).1 (Option.isSome_iff_exists.2 ⟨item, hitem⟩)
    refine ⟨item, by rw [find?_refill_self, hold]; rfl, htable, fun name path => ?_⟩
    rw [hat, hold, Option.bind_some, if_pos hdatum]
  | none =>
    refine ⟨_, find?_put_self _ _, rfl, fun name path => ?_⟩
    rw [at?_sectionTable]
    cases find? name entries with
    | some v => rfl
    | none =>
      -- What stood there was no table, so nothing that was in it is left.
      cases hold : find? part top with
      | none => rfl
      | some old =>
        rw [hold, Option.bind_some] at hfill
        have hdatum : old.datum ≠ .table := fun htable => by
          have hsome := (isSome_fill? entries old).2 htable
          rw [hfill] at hsome
          exact absurd hsome (by simp)
        rw [Option.bind_some, if_neg hdatum]
        rfl

end Section

/-! ### Storing the settings -/

/-- The document after all settings have been stored in it. -/
def updated (s : Settings) (d : Document) : Document :=
  { d with root := (d.root.1, s.putAll d.root.2) }

theorem putAll_eq (s : Settings) (top : Entries) :
    s.putAll top = putSection 2 "output" ['\n']
      [textEntry "extension" s.extension, flagEntry "snapshot" s.snapshot]
      (putSection 1 "paths" []
        [textEntry "migrations" s.migrations, textEntry "output" s.output,
         textEntry "move_to" s.moveTo] top) :=
  rfl

/-- **Other keys of the document** are not touched. -/
theorem at?_updated_of_ne (s : Settings) (d : Document) {name : String} (hpaths : name ≠ "paths")
    (houtput : name ≠ "output") (path : List Hop) :
    (s.updated d).at? (.key name :: path) = d.at? (.key name :: path) := by
  rw [Document.at?_key, Document.at?_key, updated, putAll_eq, find?_putSection_of_ne houtput,
    find?_putSection_of_ne hpaths]

/-- A table has no places. -/
theorem at?_index_of_table {item : Toml.Item} (h : item.datum = .table) (place : Nat)
    (path : List Hop) : item.at? (.index place :: path) = none := by
  rcases item with (⟨v, _, _⟩ | _ | _) | _ | _
  · rfl
  · simp [Toml.Item.datum, Value.datum] at h
  · rfl
  · rfl
  · simp [Toml.Item.datum] at h

/-- **In a section there are the settings**, and what was in it before under other names if it was a
table. -/
theorem at?_updated_section (s : Settings) (d : Document) {part : String} {space : List Char}
    {entries : List (Key × Value)} (h : (part, space, entries) ∈ s.sections) :
    (s.updated d).at? [.key part] = some .table ∧
      (∀ place path, (s.updated d).at? (.key part :: .index place :: path) = none) ∧
      ∀ name path, (s.updated d).at? (.key part :: .key name :: path) =
        match find? name entries with
        | some v => v.at? path
        | none =>
          if d.at? [.key part] = some .table then d.at? (.key part :: .key name :: path)
          else none := by
  have hfind : ∃ item, find? part (s.putAll d.root.2) = some item ∧ item.datum = .table ∧
      ∀ name path, item.at? (.key name :: path) =
        match find? name entries with
        | some v => v.at? path
        | none => (find? part d.root.2).bind fun old =>
            if old.datum = .table then old.at? (.key name :: path) else none := by
    have hnodup : (entries.map (·.1.name)).Nodup := by
      revert h
      simp only [sections, List.mem_cons, List.not_mem_nil, or_false, Prod.mk.injEq]
      rintro (⟨-, -, rfl⟩ | ⟨-, -, rfl⟩)
      · exact (by decide : ["migrations", "output", "move_to"].Nodup)
      · exact (by decide : ["extension", "snapshot"].Nodup)
    rw [putAll_eq]
    -- Storing the other section, before or after this one, touches another name.
    simp only [sections, List.mem_cons, List.not_mem_nil, or_false, Prod.mk.injEq] at h
    rcases h with ⟨rfl, -, rfl⟩ | ⟨rfl, -, rfl⟩
    · rw [find?_putSection_of_ne (by decide)]
      exact find?_putSection_self _ _ _ _ hnodup
    · have hself := find?_putSection_self 2 "output" ['\n']
        (putSection 1 "paths" [] [textEntry "migrations" s.migrations,
          textEntry "output" s.output, textEntry "move_to" s.moveTo] d.root.2) hnodup
      rwa [find?_putSection_of_ne (show "output" ≠ "paths" by decide)] at hself
  obtain ⟨item, hitem, htable, hat⟩ := hfind
  have hroot : ∀ path, (s.updated d).at? (.key part :: path) = item.at? path := fun path => by
    rw [Document.at?_key, updated, hitem]
    rfl
  refine ⟨by rw [hroot, Toml.Item.at?_nil, htable], fun place path => ?_, fun name path => ?_⟩
  · rw [hroot, at?_index_of_table htable]
  · rw [hroot, hat, Document.at?_key, Document.at?_key]
    cases find? part d.root.2 with
    | none => rfl
    | some old => simp

/-- **The settings in an updated document** are those that were stored in it. -/
theorem ofDocument?_updated (s : Settings) (d : Document) :
    ofDocument? (s.updated d) = some s := by
  obtain ⟨hpaths, -, hinPaths⟩ := at?_updated_section s d
    (show ("paths", [], _) ∈ s.sections from List.mem_cons_self)
  obtain ⟨houtput, -, hinOutput⟩ := at?_updated_section s d
    (show ("output", ['\n'], _) ∈ s.sections from List.mem_cons_of_mem _ List.mem_cons_self)
  rw [ofDocument?_eq_some_iff]
  simp only [field?, hpaths, houtput, hinPaths, hinOutput, isReadable]
  exact ⟨⟨trivial, trivial⟩, rfl, rfl, rfl, rfl, rfl⟩

/-- The names of the settings in a section; elsewhere there are none. -/
def namesIn (part : String) : List String :=
  if part = "paths" then ["migrations", "output", "move_to"]
  else if part = "output" then ["extension", "snapshot"]
  else []

/-- The sections have the settings of these names. -/
theorem exists_section (s : Settings) {part : String} (h : namesIn part ≠ []) :
    ∃ space entries, (part, space, entries) ∈ s.sections ∧
      entries.map (·.1.name) = namesIn part := by
  by_cases hpaths : part = "paths"
  · subst hpaths
    exact ⟨_, _, List.mem_cons_self, rfl⟩
  by_cases houtput : part = "output"
  · subst houtput
    exact ⟨_, _, List.mem_cons_of_mem _ List.mem_cons_self, rfl⟩
  · exact absurd (by rw [namesIn, if_neg hpaths, if_neg houtput]) h

/-- An address that is **none of the settings**: outside of the two sections, or in a section that is
a table and under another name. -/
def IsOther (d : Document) : List Hop → Prop
  | .key part :: rest =>
    namesIn part = [] ∨
      d.at? [.key part] = some .table ∧ ∀ name ∈ namesIn part, rest.head? ≠ some (.key name)
  | _ => True

/-- **What is none of the settings keeps its value.** -/
theorem at?_updated_of_isOther (s : Settings) {d : Document} {path : List Hop}
    (h : IsOther d path) : (s.updated d).at? path = d.at? path := by
  rcases path with _ | ⟨part | place, rest⟩
  · rfl
  · by_cases hnone : namesIn part = []
    · have hpaths : part ≠ "paths" := by
        rintro rfl
        exact absurd hnone (by decide)
      have houtput : part ≠ "output" := by
        rintro rfl
        exact absurd hnone (by decide)
      exact at?_updated_of_ne s d hpaths houtput rest
    · obtain ⟨htable, hother⟩ := h.resolve_left hnone
      obtain ⟨space, entries, hmem, hnames⟩ := exists_section s hnone
      obtain ⟨htable', hplaces, hentries⟩ := at?_updated_section s d hmem
      rcases rest with _ | ⟨name | place, rest⟩
      · rw [htable, htable']
      · have hfind : find? name entries = none :=
          find?_eq_none (hnames ▸ fun hmem => hother name hmem rfl)
        rw [hentries, hfind, if_pos htable]
      · rw [hplaces, Document.at?_key]
        rw [Document.at?_key] at htable
        cases hitem : find? part d.root.2 with
        | none => rfl
        | some item =>
          rw [hitem, Option.bind_some, Toml.Item.at?_nil] at htable
          rw [Option.bind_some, at?_index_of_table (Option.some.inj htable)]
  · rfl

end Settings

end SchemaHistory

/-!
# Insertion-ordered dictionaries

A `Dict` maps keys to values and remembers in which order the keys came. Storing a value under a
key that is present replaces the value **in place**; a new key goes to the end. Removing a key
closes the gap. That no key occurs twice is part of the type, so a dictionary is determined by its
list of entries, and two dictionaries with the same entries are equal (`Dict.ext`).
-/

namespace SchemaHistory

/-- A **dictionary** in insertion order. -/
structure Dict (κ α : Type) where
  entries : List (κ × α)
  nodup_keys : (entries.map Prod.fst).Nodup

namespace Dict

variable {κ α : Type}

@[ext] theorem ext {d e : Dict κ α} (h : d.entries = e.entries) : d = e := by
  cases d
  cases e
  simp_all

instance [DecidableEq κ] [DecidableEq α] : DecidableEq (Dict κ α) := fun d e =>
  decidable_of_iff (d.entries = e.entries) ⟨ext, fun h => h ▸ rfl⟩

/-- The dictionary without entries. -/
def empty : Dict κ α :=
  ⟨[], List.nodup_nil⟩

instance : EmptyCollection (Dict κ α) := ⟨empty⟩

instance : Inhabited (Dict κ α) := ⟨empty⟩

/-- The keys, in insertion order. -/
def keys (d : Dict κ α) : List κ :=
  d.entries.map Prod.fst

/-- The values, in insertion order. -/
def values (d : Dict κ α) : List α :=
  d.entries.map Prod.snd

/-- The number of entries. -/
def size (d : Dict κ α) : Nat :=
  d.entries.length

/-- The dictionary with the values replaced by a function of key and value. -/
def mapValues {β : Type} (f : κ → α → β) (d : Dict κ α) : Dict κ β where
  entries := d.entries.map fun e => (e.1, f e.1 e.2)
  nodup_keys := by simpa [Function.comp_def] using d.nodup_keys

@[simp] theorem entries_empty : (∅ : Dict κ α).entries = [] := rfl

@[simp] theorem keys_empty : (∅ : Dict κ α).keys = [] := rfl

@[simp] theorem keys_mapValues {β : Type} (f : κ → α → β) (d : Dict κ α) :
    (d.mapValues f).keys = d.keys := by
  simp [keys, mapValues, Function.comp_def]

variable [DecidableEq κ]

/-- The value stored under a key. -/
def find? (d : Dict κ α) (k : κ) : Option α :=
  d.entries.lookup k

/-- Whether a key is present. -/
def contains (d : Dict κ α) (k : κ) : Bool :=
  d.keys.contains k

/-- The dictionary with the value under one key changed, if the key is present. -/
def modify (d : Dict κ α) (k : κ) (f : α → α) : Dict κ α :=
  d.mapValues fun j v => if j = k then f v else v

/-- The dictionary with one more entry at the end, for a key that is not present. -/
def push (d : Dict κ α) (k : κ) (v : α) (h : k ∉ d.keys) : Dict κ α where
  entries := d.entries ++ [(k, v)]
  nodup_keys := by
    rw [List.map_append, List.nodup_append]
    refine ⟨d.nodup_keys, by simp, ?_⟩
    intro a ha b hb hab
    simp only [List.map_cons, List.map_nil, List.mem_singleton] at hb
    exact h (hb ▸ hab ▸ ha)

/-- The dictionary with a value stored under a key: in place if the key is present, else at the
end. -/
def insert (d : Dict κ α) (k : κ) (v : α) : Dict κ α :=
  if h : k ∈ d.keys then d.modify k fun _ => v else d.push k v h

/-- The dictionary without a key. -/
def erase (d : Dict κ α) (k : κ) : Dict κ α where
  entries := d.entries.filter fun e => !decide (e.1 = k)
  nodup_keys := d.nodup_keys.sublist (List.filter_sublist.map _)

/-- The dictionary with all entries of a list stored one after the other. -/
def ofList (l : List (κ × α)) : Dict κ α :=
  l.foldl (fun d e => d.insert e.1 e.2) ∅

/-- The keys of a list after one of them is replaced by a key that was not among them. -/
theorem nodup_replace {l : List κ} {old new : κ} (hl : l.Nodup) (hn : new = old ∨ new ∉ l) :
    (l.map fun k => if k = old then new else k).Nodup := by
  rw [List.Nodup, List.pairwise_map]
  refine List.Pairwise.imp_of_mem ?_ hl
  intro a b ha hb hab heq
  rcases hn with rfl | hn
  · by_cases h1 : a = new <;> by_cases h2 : b = new <;> simp_all
  · by_cases h1 : a = old <;> by_cases h2 : b = old <;> simp_all

/-- The dictionary with the key `old` **replaced in its place** by `new`, and its value changed by
`f`. An entry that was stored under `new` before is removed. -/
def rekey (d : Dict κ α) (old new : κ) (f : α → α) : Dict κ α where
  entries := (if old = new then d else d.erase new).entries.map fun e =>
    if e.1 = old then (new, f e.2) else e
  nodup_keys := by
    have h : ((if old = new then d else d.erase new).entries.map fun e =>
        if e.1 = old then (new, f e.2) else e).map Prod.fst =
        ((if old = new then d else d.erase new).entries.map Prod.fst).map
          fun k => if k = old then new else k := by
      rw [List.map_map, List.map_map]
      refine List.map_congr_left fun e _ => ?_
      by_cases he : e.1 = old <;> simp [he]
    rw [h]
    refine nodup_replace (Dict.nodup_keys _) ?_
    by_cases hon : old = new
    · exact Or.inl hon.symm
    · right
      simp [hon, erase]

/-! ### The entries after each operation -/

theorem mem_keys_iff_contains {d : Dict κ α} {k : κ} : k ∈ d.keys ↔ d.contains k = true := by
  simp [contains]

@[simp] theorem keys_modify (d : Dict κ α) (k : κ) (f : α → α) : (d.modify k f).keys = d.keys := by
  simp [modify]

theorem keys_insert_of_mem {d : Dict κ α} {k : κ} (v : α) (h : k ∈ d.keys) :
    (d.insert k v).keys = d.keys := by
  simp [insert, h]

theorem keys_insert_of_not_mem {d : Dict κ α} {k : κ} (v : α) (h : k ∉ d.keys) :
    (d.insert k v).keys = d.keys ++ [k] := by
  rw [insert, dif_neg h]
  simp [push, keys]

theorem entries_insert_of_not_mem {d : Dict κ α} {k : κ} (v : α) (h : k ∉ d.keys) :
    (d.insert k v).entries = d.entries ++ [(k, v)] := by
  rw [insert, dif_neg h]
  rfl

theorem keys_erase (d : Dict κ α) (k : κ) :
    (d.erase k).keys = d.keys.filter fun j => !decide (j = k) := by
  simp [keys, erase, List.filter_map, Function.comp_def]

omit [DecidableEq κ] in
theorem mem_keys_of_mem_entries {d : Dict κ α} {k : κ} {v : α} (h : (k, v) ∈ d.entries) :
    k ∈ d.keys :=
  List.mem_map.2 ⟨(k, v), h, rfl⟩

theorem mem_keys_insert {d : Dict κ α} {j k : κ} {v : α} :
    j ∈ (d.insert k v).keys ↔ j ∈ d.keys ∨ j = k := by
  by_cases h : k ∈ d.keys
  · rw [keys_insert_of_mem v h]
    exact ⟨Or.inl, fun hj => hj.elim id fun hjk => hjk ▸ h⟩
  · simp [keys_insert_of_not_mem v h]

/-- An entry after a modification is an entry from before, with its value changed if the key is
the one that was asked for. -/
theorem mem_entries_modify {d : Dict κ α} {k : κ} {f : α → α} {e : κ × α}
    (h : e ∈ (d.modify k f).entries) :
    ∃ v, (e.1, v) ∈ d.entries ∧ e.2 = if e.1 = k then f v else v := by
  obtain ⟨a, ha, rfl⟩ := List.mem_map.1 h
  exact ⟨a.2, ha, rfl⟩

/-- An entry after an insertion is the new one or one from before. -/
theorem mem_entries_insert {d : Dict κ α} {k : κ} {v : α} {e : κ × α}
    (h : e ∈ (d.insert k v).entries) : e = (k, v) ∨ e ∈ d.entries := by
  by_cases hk : k ∈ d.keys
  · rw [insert, dif_pos hk] at h
    obtain ⟨w, hw, he⟩ := mem_entries_modify h
    by_cases hek : e.1 = k
    · rw [if_pos hek] at he
      exact Or.inl (Prod.ext hek he)
    · rw [if_neg hek] at he
      subst he
      exact Or.inr hw
  · rw [entries_insert_of_not_mem v hk] at h
    rcases List.mem_append.1 h with h | h
    · exact Or.inr h
    · exact Or.inl (List.mem_singleton.1 h)

theorem mem_entries_of_mem_erase {d : Dict κ α} {k : κ} {e : κ × α}
    (h : e ∈ (d.erase k).entries) : e ∈ d.entries :=
  (List.mem_filter.1 h).1

/-! ### Looking up -/

theorem find?_eq_none_iff {d : Dict κ α} {k : κ} : d.find? k = none ↔ k ∉ d.keys := by
  simp only [find?, List.lookup_eq_none_iff, keys, List.mem_map, not_exists, not_and]
  exact ⟨fun h e he hk => by simpa [hk] using h e he,
    fun h e he => by simpa using fun hk => h e he hk.symm⟩

/-- Looking up finds exactly the entries, because no key occurs twice. -/
theorem find?_eq_some_iff {d : Dict κ α} {k : κ} {v : α} :
    d.find? k = some v ↔ (k, v) ∈ d.entries := by
  rw [find?, List.lookup_eq_some_iff]
  constructor
  · rintro ⟨l₁, l₂, h, -⟩
    simp [h]
  · intro h
    obtain ⟨l₁, l₂, hl⟩ := List.append_of_mem h
    refine ⟨l₁, l₂, hl, ?_⟩
    intro p hp
    have hnd := d.nodup_keys
    rw [hl, List.map_append, List.nodup_append] at hnd
    have hpk : p.1 ≠ k := hnd.2.2 p.1 (List.mem_map_of_mem hp) k (by simp)
    simpa using hpk.symm

theorem exists_find?_of_mem_keys {d : Dict κ α} {k : κ} (h : k ∈ d.keys) :
    ∃ v, d.find? k = some v := by
  obtain ⟨e, he, rfl⟩ := List.mem_map.1 h
  exact ⟨e.2, find?_eq_some_iff.2 he⟩

theorem mem_keys_of_find? {d : Dict κ α} {k : κ} {v : α} (h : d.find? k = some v) : k ∈ d.keys :=
  mem_keys_of_mem_entries (find?_eq_some_iff.1 h)

theorem find?_mapValues {β : Type} (f : κ → α → β) (d : Dict κ α) (k : κ) :
    (d.mapValues f).find? k = (d.find? k).map (f k) := by
  refine Option.ext fun w => ?_
  rw [find?_eq_some_iff, Option.map_eq_some_iff]
  constructor
  · intro h
    obtain ⟨e, he, heq⟩ := List.mem_map.1 h
    obtain ⟨rfl, hw⟩ := Prod.mk.inj heq
    exact ⟨e.2, find?_eq_some_iff.2 he, hw⟩
  · rintro ⟨v, hv, rfl⟩
    exact List.mem_map.2 ⟨(k, v), find?_eq_some_iff.1 hv, rfl⟩

/-- A key that is removed takes no other one along. -/
theorem find?_erase_of_ne (d : Dict κ α) {j k : κ} (h : j ≠ k) :
    (d.erase k).find? j = d.find? j := by
  refine Option.ext fun w => ?_
  rw [find?_eq_some_iff, find?_eq_some_iff]
  exact List.mem_filter.trans (and_iff_left (by simpa using h))

/-! ### Storing again under one key -/

theorem entries_insert_of_mem {d : Dict κ α} {k : κ} (v : α) (h : k ∈ d.keys) :
    (d.insert k v).entries = d.entries.map fun e => (e.1, if e.1 = k then v else e.2) := by
  rw [insert, dif_pos h]
  rfl

/-- A value that was stored is found. -/
@[simp] theorem find?_insert_self (d : Dict κ α) (k : κ) (v : α) :
    (d.insert k v).find? k = some v := by
  rw [find?_eq_some_iff]
  by_cases h : k ∈ d.keys
  · obtain ⟨e, he, rfl⟩ := List.mem_map.1 h
    rw [entries_insert_of_mem v h]
    exact List.mem_map.2 ⟨e, he, by rw [if_pos rfl]⟩
  · simp [entries_insert_of_not_mem v h]

/-- A changed value is the one that the change gives. -/
theorem modify_insert_self (d : Dict κ α) (k : κ) (v : α) (f : α → α) :
    (d.insert k v).modify k f = d.insert k (f v) := by
  refine ext ?_
  have hentries : ((d.insert k v).modify k f).entries =
      (d.insert k v).entries.map fun e => (e.1, if e.1 = k then f e.2 else e.2) := rfl
  rw [hentries]
  by_cases h : k ∈ d.keys
  · rw [entries_insert_of_mem _ h, entries_insert_of_mem _ h, List.map_map]
    refine List.map_congr_left fun e _ => ?_
    by_cases he : e.1 = k <;> simp [he]
  · rw [entries_insert_of_not_mem _ h, entries_insert_of_not_mem _ h, List.map_append]
    congr 1
    · refine (List.map_congr_left fun e he => ?_).trans (List.map_id _)
      have hek : e.1 ≠ k := fun hek => h (hek ▸ mem_keys_of_mem_entries (v := e.2) he)
      simp [hek]
    · simp

/-- To change a value that is there is to store what it is changed to. -/
theorem modify_eq_insert {d : Dict κ α} {k : κ} {v : α} (h : d.find? k = some v) (f : α → α) :
    d.modify k f = d.insert k (f v) := by
  refine ext ?_
  rw [entries_insert_of_mem _ (mem_keys_of_find? h)]
  refine List.map_congr_left fun e he => ?_
  by_cases hek : e.1 = k
  · have hfound : d.find? e.1 = some e.2 := find?_eq_some_iff.2 he
    rw [hek, h] at hfound
    simp [hek, Option.some.inj hfound]
  · simp [hek]

/-- To change a value that is not there changes nothing. -/
theorem modify_eq_self {d : Dict κ α} {k : κ} (h : d.find? k = none) (f : α → α) :
    d.modify k f = d := by
  refine ext ((List.map_congr_left fun e he => ?_).trans (List.map_id _))
  have hek : e.1 ≠ k := fun hek =>
    find?_eq_none_iff.1 h (hek ▸ mem_keys_of_mem_entries (v := e.2) he)
  simp [hek]

/-- To store what is stored already changes nothing. -/
theorem insert_eq_self {d : Dict κ α} {k : κ} {v : α} (h : d.find? k = some v) :
    d.insert k v = d := by
  refine ext ?_
  rw [entries_insert_of_mem _ (mem_keys_of_find? h)]
  refine (List.map_congr_left fun e he => ?_).trans (List.map_id _)
  by_cases hek : e.1 = k
  · have hfound : d.find? e.1 = some e.2 := find?_eq_some_iff.2 he
    rw [hek, h] at hfound
    rw [if_pos hek, Option.some.inj hfound, id]
  · rw [if_neg hek, id]

/-- What is stored under another key does not matter. -/
theorem find?_insert_of_ne (d : Dict κ α) {j k : κ} (h : j ≠ k) (v : α) :
    (d.insert k v).find? j = d.find? j := by
  refine Option.ext fun w => ?_
  rw [find?_eq_some_iff, find?_eq_some_iff]
  by_cases hk : k ∈ d.keys
  · rw [entries_insert_of_mem v hk, List.mem_map]
    constructor
    · rintro ⟨e, he, heq⟩
      obtain ⟨rfl, hw⟩ := Prod.mk.inj heq
      rw [if_neg h] at hw
      exact hw ▸ he
    · exact fun hmem => ⟨(j, w), hmem, by rw [if_neg h]⟩
  · rw [entries_insert_of_not_mem v hk, List.mem_append, List.mem_singleton]
    exact ⟨fun hmem => hmem.resolve_right fun heq => h (Prod.mk.inj heq).1, Or.inl⟩

/-- What is stored under a key is gone if the key is removed. -/
theorem erase_insert_self (d : Dict κ α) (k : κ) (v : α) : (d.insert k v).erase k = d.erase k := by
  refine ext ?_
  show (d.insert k v).entries.filter (fun e => !decide (e.1 = k)) =
    d.entries.filter fun e => !decide (e.1 = k)
  by_cases h : k ∈ d.keys
  · rw [entries_insert_of_mem v h, List.filter_map]
    refine (List.map_congr_left fun e he => ?_).trans (List.map_id _)
    have hek : e.1 ≠ k := by simpa using (List.mem_filter.1 he).2
    simp [hek]
  · simp [entries_insert_of_not_mem v h]

/-- A key that is not there need not be removed. -/
theorem erase_eq_self {d : Dict κ α} {k : κ} (h : k ∉ d.keys) : d.erase k = d := by
  refine ext (List.filter_eq_self.2 fun e he => ?_)
  have hek : e.1 ≠ k := fun hek => h (hek ▸ mem_keys_of_mem_entries (v := e.2) he)
  simpa using hek

/-- A new key takes the place of the old one, and an entry that had it before is gone. -/
theorem entries_rekey_of_ne (d : Dict κ α) {old new : κ} (h : old ≠ new) (f : α → α) :
    (d.rekey old new f).entries =
      (d.entries.filter fun e => e.1 ≠ new).map fun e =>
        if e.1 = old then (new, f e.2) else e := by
  simp only [rekey, if_neg h, erase]
  congr 2
  funext e
  simp

/-- A new key takes the place of the old one, if it was not there before. -/
theorem entries_rekey {d : Dict κ α} {old new : κ} (h : new ∉ d.keys) (f : α → α) :
    (d.rekey old new f).entries =
      d.entries.map fun e => if e.1 = old then (new, f e.2) else e := by
  have hkept : (if old = new then d else d.erase new) = d := by
    split
    · rfl
    · exact erase_eq_self h
  simp only [rekey, hkept]

theorem keys_rekey {d : Dict κ α} {old new : κ} (h : new ∉ d.keys) (f : α → α) :
    (d.rekey old new f).keys = d.keys.map fun k => if k = old then new else k := by
  rw [keys, entries_rekey h, keys, List.map_map, List.map_map]
  refine List.map_congr_left fun e _ => ?_
  by_cases he : e.1 = old <;> simp [he]

theorem find?_rekey {d : Dict κ α} {old new : κ} (h : new ∉ d.keys) {v : α}
    (hv : d.find? old = some v) (f : α → α) : (d.rekey old new f).find? new = some (f v) := by
  rw [find?_eq_some_iff, entries_rekey h]
  exact List.mem_map.2 ⟨(old, v), find?_eq_some_iff.1 hv, if_pos rfl⟩

/-- A key that was not there before can be replaced by the old one again. -/
theorem rekey_rekey {d : Dict κ α} {old new : κ} (hne : old ≠ new) (hnew : new ∉ d.keys)
    {f g : α → α} (hg : ∀ v, d.find? old = some v → g (f v) = v) :
    (d.rekey old new f).rekey new old g = d := by
  have hold : old ∉ (d.rekey old new f).keys := by
    rw [keys_rekey hnew]
    rintro hmem
    obtain ⟨k, -, hk⟩ := List.mem_map.1 hmem
    split at hk
    · exact hne hk.symm
    · exact absurd hk ‹_›
  refine ext ?_
  rw [entries_rekey hold, entries_rekey hnew, List.map_map]
  refine (List.map_congr_left fun e he => ?_).trans (List.map_id _)
  by_cases hk : e.1 = old
  · have hv : d.find? old = some e.2 := find?_eq_some_iff.2 (hk ▸ he)
    simp only [Function.comp_apply, if_true, hg e.2 hv, ← hk, id]
  · have hk' : e.1 ≠ new := fun heq => hnew (heq ▸ mem_keys_of_mem_entries (v := e.2) he)
    simp only [Function.comp_apply, if_neg hk, if_neg hk', id]

/-- The last value that is stored under a key stays. -/
theorem insert_insert_self (d : Dict κ α) (k : κ) (v w : α) :
    (d.insert k v).insert k w = d.insert k w := by
  have h : k ∈ (d.insert k v).keys := mem_keys_of_find? (find?_insert_self d k v)
  rw [insert, dif_pos h, modify_insert_self]

/-! ### Dictionaries from lists -/

/-- Entries with new keys are stored one after the other. -/
theorem entries_foldl_insert (d : Dict κ α) {l : List (κ × α)}
    (h : (d.keys ++ l.map Prod.fst).Nodup) :
    (l.foldl (fun d e => d.insert e.1 e.2) d).entries = d.entries ++ l := by
  induction l generalizing d with
  | nil => simp
  | cons e l ih =>
    have hnew : e.1 ∉ d.keys := by
      intro hmem
      exact (List.nodup_append.1 h).2.2 _ hmem _ (by simp) rfl
    have hkeys : (d.insert e.1 e.2).keys = d.keys ++ [e.1] := keys_insert_of_not_mem _ hnew
    rw [List.foldl_cons, ih, entries_insert_of_not_mem _ hnew, List.append_assoc]
    · rfl
    · rw [hkeys, List.append_assoc]
      exact h

/-- A list without repeated keys is what the dictionary of it holds. -/
theorem entries_ofList {l : List (κ × α)} (h : (l.map Prod.fst).Nodup) :
    (ofList l).entries = l :=
  entries_foldl_insert ∅ h

/-- **A dictionary is made of its entries.** -/
theorem ofList_entries (d : Dict κ α) : ofList d.entries = d :=
  ext (entries_ofList d.nodup_keys)

/-- What comes last in a list is stored last. -/
theorem ofList_concat (l : List (κ × α)) (k : κ) (v : α) :
    ofList (l ++ [(k, v)]) = (ofList l).insert k v :=
  List.foldl_append ..

/-- The dictionary of a list has the keys of the list. -/
theorem mem_keys_ofList {l : List (κ × α)} {k : κ} : k ∈ (ofList l).keys ↔ k ∈ l.map Prod.fst := by
  have hkeys : ∀ d : Dict κ α, k ∈ (l.foldl (fun d e => d.insert e.1 e.2) d).keys ↔
      k ∈ d.keys ∨ k ∈ l.map Prod.fst := by
    induction l with
    | nil => simp
    | cons e l ih =>
      intro d
      rw [List.foldl_cons, ih, mem_keys_insert, List.map_cons, List.mem_cons, or_assoc]
  simpa [ofList] using hkeys ∅

/-- There is one entry for a key. -/
theorem filter_key_eq_singleton {l : List (κ × α)} (hnodup : (l.map Prod.fst).Nodup) {e : κ × α}
    (he : e ∈ l) : (l.filter fun x => x.1 == e.1) = [e] := by
  obtain ⟨before, after, rfl⟩ := List.append_of_mem he
  have hperm : (before ++ e :: after).Perm (e :: (before ++ after)) := List.perm_middle
  have hnot : e.1 ∉ (before ++ after).map Prod.fst :=
    (List.nodup_cons.1 ((hperm.map Prod.fst).nodup_iff.1 hnodup)).1
  have hother : ∀ a, a ∈ before ∨ a ∈ after → (a.1 == e.1) = false := fun a ha =>
    beq_false_of_ne fun hae => hnot (hae ▸ List.mem_map_of_mem (List.mem_append.2 ha))
  rw [List.filter_append, List.filter_cons_of_pos (by simp),
    List.filter_eq_nil_iff.2 fun a ha => by simp [hother a (Or.inl ha)],
    List.filter_eq_nil_iff.2 fun a ha => by simp [hother a (Or.inr ha)]]
  rfl

end Dict

end SchemaHistory

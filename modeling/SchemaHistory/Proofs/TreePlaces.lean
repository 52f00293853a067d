import Mathlib.Data.List.Induction
import SchemaHistory.Failure
import SchemaHistory.Files.Tree

/-!
# What stands at the places of a tree

What the operations on files do to a tree, said in terms of places alone. A tree in which whatever
stands somewhere stands in a folder (`SchemaHistory.Files.Tree.Rooted`) holds nothing below a file
and nothing below a place where nothing stands, so storing a file and moving one change what stands
at one place and at two places, and nothing else
(`SchemaHistory.Files.Tree.write_eq_ok`, `SchemaHistory.Files.Tree.move_eq_ok`).

Neither of the two makes or removes a folder, and a path is followed through folders only. So the
place that a path leads to stays the same however many files are written and moved
(`SchemaHistory.Files.Tree.SameFolders.place?_eq`).
-/

namespace SchemaHistory.Files

open Text

/-! ### Names and paths -/

/-- A text that **names** something in a folder: it is one component of a path, and one that leads
to something else. -/
def IsEntryName (name : String) : Prop :=
  name ≠ "" ∧ name ≠ "." ∧ name ≠ ".." ∧ '/' ∉ name.toList

instance (name : String) : Decidable (IsEntryName name) :=
  inferInstanceAs (Decidable (_ ∧ _ ∧ _ ∧ _))

namespace Path

/-- The components of the path of a file are those of its folder and its name. -/
theorem rawParts_join {folder name : String} (hfolder : folder ≠ "") (hname : IsEntryName name) :
    rawParts (join folder name) = rawParts folder ++ [name] := by
  obtain ⟨hempty, -, -, hslash⟩ := hname
  have hrelative : isAbsoluteText name = false := by
    rw [isAbsoluteText]
    cases h : name.toList with
    | nil => rfl
    | cons c s =>
      have hc : c ≠ '/' := fun hc => hslash (by simp [h, hc])
      simpa using hc
  have hpiece : (splitAt (· == '/') name.toList).filter (!·.isEmpty) = [name.toList] := by
    have hne : name.toList.isEmpty = false := by
      simpa [List.isEmpty_iff, String.toList_eq_nil_iff] using hempty
    have hnone : ∀ c ∈ name.toList, (c == '/') = false := fun c hc =>
      beq_false_of_ne fun h => hslash (h ▸ hc)
    rw [splitAt_of_forall hnone]
    simp [hne]
  have hsplit : ∀ s : List Char, (splitAt (· == '/') (s ++ '/' :: name.toList)).filter (!·.isEmpty) =
      (splitAt (· == '/') s).filter (!·.isEmpty) ++ [name.toList] := fun s => by
    rw [splitAt_append_cons rfl, List.filter_append, hpiece]
  rw [join, if_neg (by simp [hrelative]), if_neg (by simpa using hfolder)]
  split
  case isTrue hlast =>
    obtain ⟨s, hs⟩ : ∃ s, folder.toList = s ++ ['/'] := by
      obtain ⟨s, hs⟩ := List.getLast?_eq_some_iff.1 hlast
      exact ⟨s, hs⟩
    have hjoined : (folder ++ name).toList = s ++ '/' :: name.toList := by
      simp [String.toList_append, hs]
    have hfolder : (splitAt (· == '/') folder.toList).filter (!·.isEmpty) =
        (splitAt (· == '/') s).filter (!·.isEmpty) := by
      rw [hs, splitAt_append_cons rfl, List.filter_append]
      simp [splitAt]
    rw [rawParts, hjoined, hsplit, rawParts, hfolder, List.map_append]
    simp
  case isFalse =>
    have hjoined : (folder ++ "/" ++ name).toList = folder.toList ++ '/' :: name.toList := by
      simp [String.toList_append]
    rw [rawParts, hjoined, hsplit, rawParts, List.map_append]
    simp

/-- The components of two texts for the same path agree, dots apart. -/
theorem filter_rawParts_of_same {a b : String} (h : same a b = true) :
    (rawParts a).filter (· != ".") = (rawParts b).filter (· != ".") := by
  have hparts : ∀ text, (ofText text).parts.filter (· != ".") =
      (rawParts text).filter (· != ".") := by
    intro text
    rw [ofText]
    cases rawParts text with
    | nil => rfl
    | cons p rest =>
      by_cases hp : p = "." ∧ isAbsoluteText text = true
      · simp [hp, List.filter_filter]
      · simp [hp, List.filter_filter, List.filter_cons]
  rw [← hparts, ← hparts, eq_of_beq h]

end Path

namespace Tree

variable {t t' : Tree}

/-! ### What stands at a place -/

/-- The text of the file at a place. -/
def textAt? (t : Tree) (q : Place) : Option String :=
  match t.node? q with
  | some (.file (.text s)) => some s
  | _ => none

theorem textAt?_eq_some_iff {q : Place} {s : String} :
    t.textAt? q = some s ↔ t.node? q = some (.file (.text s)) := by
  rw [textAt?]
  split <;> simp_all

/-- The place that a path leads to, where something may stand or not. -/
def place? (t : Tree) (path : String) : Option Place :=
  (t.resolve path).toOption.map (·.place)

/-- A tree is **rooted** if everything in it stands in a folder. -/
def Rooted (t : Tree) : Prop :=
  ∀ q ∈ t.nodes.keys, t.node? q.dropLast = some .folder

/-- A tree is **proper** if it is rooted and everything in it has a name that a file can have. -/
structure Proper (t : Tree) : Prop where
  rooted : t.Rooted
  names : ∀ q ∈ t.nodes.keys, ∀ name ∈ q, IsEntryName name

/-- Two trees **have the same folders**. -/
def SameFolders (t t' : Tree) : Prop :=
  ∀ q, t.node? q = some .folder ↔ t'.node? q = some .folder

@[simp] theorem node?_nil (t : Tree) : t.node? [] = some .folder := rfl

theorem mem_keys_iff {q : Place} (hq : q ≠ []) : q ∈ t.nodes.keys ↔ t.node? q ≠ none := by
  rw [node?, if_neg hq, ne_eq, Dict.find?_eq_none_iff, Classical.not_not]

theorem node?_eq_some_iff {q : Place} {n : Node} (hq : q ≠ []) :
    t.node? q = some n ↔ (q, n) ∈ t.nodes.entries := by
  rw [node?, if_neg hq, Dict.find?_eq_some_iff]

theorem Rooted.folder_above (h : t.Rooted) {q : Place} {n : Node} (hn : t.node? q = some n) :
    t.node? q.dropLast = some .folder := by
  by_cases hq : q = []
  · rw [hq]
    rfl
  · exact h q ((mem_keys_iff hq).2 (by simp [hn]))

theorem rooted_iff : t.Rooted ↔ ∀ q n, t.node? q = some n → t.node? q.dropLast = some .folder := by
  refine ⟨fun h q n => h.folder_above, fun h q hq => ?_⟩
  by_cases hnil : q = []
  · rw [hnil]
    rfl
  · obtain ⟨n, hn⟩ := Option.ne_none_iff_exists'.1 ((mem_keys_iff hnil).1 hq)
    exact h q n hn

/-- Whatever stands below a place, a folder stands there. -/
theorem Rooted.folder_of_below (h : t.Rooted) {q : Place} {name : String} {below : List String}
    {n : Node} (hn : t.node? (q ++ name :: below) = some n) : t.node? q = some .folder := by
  induction below using List.reverseRecOn generalizing n with
  | nil =>
    have habove := h.folder_above hn
    rwa [List.dropLast_concat] at habove
  | append_singleton below last ih =>
    have habove := h.folder_above hn
    rw [← List.cons_append, ← List.append_assoc, List.dropLast_concat] at habove
    exact ih habove

/-- A tree stays rooted if its folders stay the same and what is new in it stands in one. -/
theorem SameFolders.rooted (h : t.SameFolders t') (ht : t.Rooted)
    (hnew : ∀ q, t'.node? q ≠ none → t.node? q ≠ none ∨ t.node? q.dropLast = some .folder) :
    t'.Rooted := by
  refine rooted_iff.2 fun q n hn => (h _).1 ?_
  rcases hnew q (by simp [hn]) with hold | habove
  · obtain ⟨n', hn'⟩ := Option.ne_none_iff_exists'.1 hold
    exact ht.folder_above hn'
  · exact habove

/-! ### Where names lead -/

/-- Names **lead** from a place to another one, through folders. -/
inductive Leads (t : Tree) : Place → List String → Place → Prop
  | here (p : Place) : Leads t p [] p
  | dot {p q : Place} {rest : List String} (hp : t.node? p = some .folder)
    (h : Leads t p rest q) : Leads t p ("." :: rest) q
  | up {p q : Place} {rest : List String} (hp : t.node? p = some .folder) (htop : p ≠ [])
    (h : Leads t p.dropLast rest q) : Leads t p (".." :: rest) q
  | down {p q : Place} {name : String} {rest : List String} (hp : t.node? p = some .folder)
    (hdot : name ≠ ".") (hup : name ≠ "..") (hlength : ¬255 < name.utf8ByteSize)
    (h : Leads t (p ++ [name]) rest q) : Leads t p (name :: rest) q

theorem leads_of_follow {p q : Place} {names : List String} (h : t.follow p names = .ok q) :
    t.Leads p names q := by
  induction names generalizing p with
  | nil =>
    obtain rfl := Except.ok.inj h
    exact .here p
  | cons name rest ih =>
    rw [follow] at h
    rcases hp : t.node? p with _ | _ | _ <;> simp only [hp] at h
    · exact absurd h (by simp)
    · split at h
      · rename_i hdot
        exact hdot ▸ .dot hp (ih h)
      split at h
      · rename_i hup
        split at h
        · exact absurd h (by simp)
        · exact hup ▸ .up hp ‹_› (ih h)
      split at h
      · exact absurd h (by simp)
      · exact .down hp ‹_› ‹_› ‹_› (ih h)
    · exact absurd h (by simp)

theorem Leads.follow_eq {p q : Place} {names : List String} (h : t.Leads p names q) :
    t.follow p names = .ok q := by
  induction h with
  | here p => rw [follow]
  | dot hp _ ih => simpa [follow, hp] using ih
  | up hp htop _ ih => simpa [follow, hp, htop] using ih
  | down hp hdot hup hlength _ ih => simpa [follow, hp, hdot, hup, hlength] using ih

/-- Names lead to one place at most. -/
theorem Leads.unique {p q r : Place} {names : List String} (hq : t.Leads p names q)
    (hr : t.Leads p names r) : q = r :=
  Except.ok.inj (hq.follow_eq.symm.trans hr.follow_eq)

/-- The same names lead to the same place in a tree with the same folders. -/
theorem Leads.of_sameFolders {p q : Place} {names : List String} (h : t.Leads p names q)
    (hsame : t.SameFolders t') : t'.Leads p names q := by
  induction h with
  | here p => exact .here p
  | dot hp _ ih => exact .dot ((hsame _).1 hp) ih
  | up hp htop _ ih => exact .up ((hsame _).1 hp) htop ih
  | down hp hdot hup hlength _ ih => exact .down ((hsame _).1 hp) hdot hup hlength ih

/-- Names lead to places in folders. -/
theorem Leads.folder_above (ht : t.Rooted) {p q : Place} {names : List String}
    (h : t.Leads p names q) (hp : t.node? p.dropLast = some .folder) :
    t.node? q.dropLast = some .folder := by
  induction h with
  | here p => exact hp
  | dot _ _ ih => exact ih hp
  | up _ _ _ ih => exact ih (ht.folder_above hp)
  | down hfolder _ _ _ _ ih =>
    refine ih ?_
    rwa [List.dropLast_concat]

/-- Dots do not matter. -/
theorem Leads.filter_dots {p q : Place} {names : List String} (h : t.Leads p names q) :
    t.Leads p (names.filter (· != ".")) q := by
  induction h with
  | here p => exact .here p
  | dot _ _ ih => exact ih
  | up hp htop _ ih => exact .up hp htop ih
  | @down p q name rest hp hdot hup hlength _ ih =>
    rw [List.filter_cons_of_pos (by simpa using hdot)]
    exact .down hp hdot hup hlength ih

/-- Where some names lead, other names lead on from there. -/
theorem Leads.exists_between {p r : Place} {names more : List String}
    (h : t.Leads p (names ++ more) r) : ∃ q, t.Leads p names q ∧ t.Leads q more r := by
  induction names generalizing p with
  | nil => exact ⟨p, .here p, h⟩
  | cons name rest ih =>
    cases h with
    | dot hp h =>
      obtain ⟨q, hq, hr⟩ := ih h
      exact ⟨q, .dot hp hq, hr⟩
    | up hp htop h =>
      obtain ⟨q, hq, hr⟩ := ih h
      exact ⟨q, .up hp htop hq, hr⟩
    | down hp hdot hup hlength h =>
      obtain ⟨q, hq, hr⟩ := ih h
      exact ⟨q, .down hp hdot hup hlength hq, hr⟩

/-- A name leads from a place to what bears the name there. -/
theorem Leads.eq_concat {p q : Place} {name : String} (hname : IsEntryName name)
    (h : t.Leads p [name] q) : q = p ++ [name] := by
  cases h with
  | dot => exact absurd rfl hname.2.1
  | up => exact absurd rfl hname.2.2.1
  | down _ _ _ _ hrest =>
    cases hrest
    rfl

/-! ### Where paths lead -/

theorem names_eq_ok {path : String} {parts : List String} (h : names path = .ok parts) :
    path ≠ "" ∧ parts = Path.rawParts path := by
  rw [names] at h
  split at h
  · exact absurd h (by simp)
  rename_i hempty
  split at h
  · exact absurd h (by simp)
  split at h
  · exact absurd h (by simp)
  split at h
  · exact absurd h (by simp)
  · exact ⟨fun hpath => hempty (by simp [hpath]), (Except.ok.inj h).symm⟩

theorem contains_nul_of_names_eq_ok {path : String} {parts : List String}
    (h : names path = .ok parts) : path.contains '\x00' = false := by
  rw [names] at h
  split at h
  · exact absurd h (by simp)
  split at h
  · exact absurd h (by simp)
  · exact Bool.eq_false_iff.2 ‹_›

theorem names_of_relative {path : String} (hne : path ≠ "") (hnul : '\x00' ∉ path.toList)
    (hrelative : Path.isAbsoluteText path = false) (hlength : path.utf8ByteSize < 4096) :
    names path = .ok (Path.rawParts path) := by
  have hcontains : path.contains '\x00' = false := by simpa using hnul
  rw [names, if_neg (by simpa using hne), if_neg (by simp [hcontains]), if_neg (by simp [hrelative]),
    if_neg (by omega)]

theorem resolve_eq_ok_iff {path : String} {r : Followed} :
    t.resolve path = .ok r ↔ r.wantsFolder = wantsFolder path ∧
      ∃ parts, names path = .ok parts ∧ t.Leads [] parts r.place := by
  rw [resolve]
  constructor
  · intro h
    obtain ⟨parts, hnames, h⟩ := exists_of_bind_eq_ok h
    obtain ⟨p, hfollow, h⟩ := exists_of_bind_eq_ok h
    obtain rfl := Except.ok.inj h
    exact ⟨rfl, parts, hnames, leads_of_follow hfollow⟩
  · rintro ⟨hwants, parts, hnames, hleads⟩
    rw [hnames]
    simp only [Bind.bind, Except.bind, hleads.follow_eq, ← hwants]
    rfl

theorem place?_eq_some_iff {path : String} {q : Place} :
    t.place? path = some q ↔ ∃ parts, names path = .ok parts ∧ t.Leads [] parts q := by
  rw [place?]
  constructor
  · intro h
    cases hr : t.resolve path with
    | error f => simp [hr, Except.toOption] at h
    | ok r =>
      obtain rfl : r.place = q := by simpa [hr, Except.toOption] using h
      exact (resolve_eq_ok_iff.1 hr).2
  · intro h
    have hr : t.resolve path = .ok ⟨q, wantsFolder path⟩ := resolve_eq_ok_iff.2 ⟨rfl, h⟩
    rw [hr]
    rfl

/-- **Paths lead to the same places** in trees with the same folders. -/
theorem SameFolders.place?_eq (h : t.SameFolders t') (path : String) :
    t'.place? path = t.place? path := by
  refine Option.ext fun q => ?_
  rw [place?_eq_some_iff, place?_eq_some_iff]
  constructor
  · rintro ⟨parts, hnames, hleads⟩
    exact ⟨parts, hnames, hleads.of_sameFolders fun q => (h q).symm⟩
  · rintro ⟨parts, hnames, hleads⟩
    exact ⟨parts, hnames, hleads.of_sameFolders h⟩

/-- The path of a file in a folder leads to a place in the place of the folder. -/
theorem place?_join {folder name : String} {p q : Place} (hname : IsEntryName name)
    (hfolder : t.place? folder = some p) (h : t.place? (Path.join folder name) = some q) :
    q = p ++ [name] := by
  obtain ⟨parts, hparts, hp⟩ := place?_eq_some_iff.1 hfolder
  obtain ⟨parts', hparts', hq⟩ := place?_eq_some_iff.1 h
  obtain ⟨hne, rfl⟩ := names_eq_ok hparts
  obtain ⟨-, rfl⟩ := names_eq_ok hparts'
  rw [Path.rawParts_join hne hname] at hq
  obtain ⟨p', hp', hlast⟩ := hq.exists_between
  obtain rfl := hp.unique hp'
  exact hlast.eq_concat hname

/-- Two texts for the same path lead to the same place. -/
theorem place?_of_same {a b : String} {p q : Place} (h : Path.same a b = true)
    (ha : t.place? a = some p) (hb : t.place? b = some q) : p = q := by
  obtain ⟨parts, hparts, hp⟩ := place?_eq_some_iff.1 ha
  obtain ⟨parts', hparts', hq⟩ := place?_eq_some_iff.1 hb
  obtain ⟨-, rfl⟩ := names_eq_ok hparts
  obtain ⟨-, rfl⟩ := names_eq_ok hparts'
  have hdots := hp.filter_dots
  rw [Path.filter_rawParts_of_same h] at hdots
  exact hdots.unique hq.filter_dots

/-! ### Reading -/

theorem place?_of_resolve {path : String} {r : Followed} (h : t.resolve path = .ok r) :
    t.place? path = some r.place :=
  place?_eq_some_iff.2 (resolve_eq_ok_iff.1 h).2

/-- What a path to a folder leads to. -/
theorem place?_of_lookup {path : String} {q : Place} {n : Node} (h : t.lookup path = .ok (q, n)) :
    t.place? path = some q ∧ t.node? q = some n := by
  rw [lookup] at h
  cases hr : t.resolve path with
  | error f => simp [hr] at h
  | ok r =>
    simp only [hr] at h
    have hplace := place?_of_resolve hr
    split at h
    · exact absurd h (by simp)
    · obtain ⟨rfl, rfl⟩ := Prod.mk.inj (Except.ok.inj h)
      exact ⟨hplace, ‹_›⟩
    · split at h
      · exact absurd h (by simp)
      · obtain ⟨rfl, rfl⟩ := Prod.mk.inj (Except.ok.inj h)
        exact ⟨hplace, ‹_›⟩

/-- What is read at a path is the text at the place that it leads to. -/
theorem textAt?_of_read {path s : String} (h : t.read path = .ok s) :
    ∃ q, t.place? path = some q ∧ t.textAt? q = some s := by
  rw [read] at h
  split at h
  · exact absurd h (by simp)
  · exact absurd h (by simp)
  · rename_i q text hlookup
    obtain rfl := Except.ok.inj h
    obtain ⟨hplace, hnode⟩ := place?_of_lookup hlookup
    exact ⟨q, hplace, textAt?_eq_some_iff.2 hnode⟩
  · exact absurd h (by simp)

/-- A path that does not ask for a folder reads the text at the place that it leads to. -/
theorem read_eq_ok_iff {path s : String} {q : Place} (hq : t.place? path = some q)
    (hwants : wantsFolder path = false) : t.read path = .ok s ↔ t.textAt? q = some s := by
  constructor
  · intro h
    obtain ⟨q', hq', htext⟩ := textAt?_of_read h
    obtain rfl : q = q' := Option.some.inj (hq.symm.trans hq')
    exact htext
  · intro h
    have hr : t.resolve path = .ok ⟨q, wantsFolder path⟩ :=
      resolve_eq_ok_iff.2 ⟨rfl, place?_eq_some_iff.1 hq⟩
    have hnode := textAt?_eq_some_iff.1 h
    rw [read, lookup, hr]
    simp [hnode, hwants]

/-- What stands directly in a folder has its name behind the place of the folder. -/
theorem eq_of_child {p : Place} {e : Place × Node} {a : String × Node}
    (h : (match e.1.getLast? with
      | some name => if e.1.dropLast = p then some (name, e.2) else none
      | none => none) = some a) : e = (p ++ [a.1], a.2) := by
  obtain ⟨q, n⟩ := e
  split at h
  · rename_i name hlast
    split at h
    · rename_i hfolder
      obtain rfl := Option.some.inj h
      obtain ⟨init, rfl⟩ := List.getLast?_eq_some_iff.1 hlast
      rw [List.dropLast_concat] at hfolder
      rw [hfolder]
    · exact absurd h (by simp)
  · exact absurd h (by simp)

/-- The names of the files in a folder are different, and each of them leads to a file. -/
theorem fileNames_eq_ok {path : String} {names : List String} (ht : t.Proper)
    (h : t.fileNames path = .ok names) :
    ∃ p, t.place? path = some p ∧ t.node? p = some .folder ∧ names.Nodup ∧
      ∀ name ∈ names, IsEntryName name ∧ ∃ c, t.node? (p ++ [name]) = some (.file c) := by
  rw [fileNames] at h
  split at h
  · exact absurd h (by simp)
  · exact absurd h (by simp)
  rename_i p hlookup
  obtain ⟨hplace, hnode⟩ := place?_of_lookup hlookup
  obtain rfl := Except.ok.inj h
  refine ⟨p, hplace, hnode, ?_, fun name hname => ?_⟩
  · have hkeys : t.nodes.entries.Pairwise fun a b => a.1 ≠ b.1 :=
      List.pairwise_map.1 t.nodes.nodup_keys
    have hchildren : (t.children p).Pairwise fun a b => a.1 ≠ b.1 := by
      rw [children, List.pairwise_filterMap]
      refine hkeys.imp fun hne a ha b hb hab => hne ?_
      rw [eq_of_child ha, eq_of_child hb, hab]
    rw [List.Nodup, List.pairwise_filterMap]
    refine hchildren.imp fun hne a ha b hb => ?_
    split at ha <;> split at hb <;> simp_all
  · obtain ⟨⟨name', n⟩, hchild, hfile⟩ := List.mem_filterMap.1 hname
    obtain ⟨e, he, h⟩ := List.mem_filterMap.1 hchild
    have hentry : (p ++ [name'], n) ∈ t.nodes.entries := eq_of_child h ▸ he
    cases n with
    | folder => exact absurd hfile (by simp)
    | file c =>
      obtain rfl : name' = name := Option.some.inj hfile
      exact ⟨ht.names _ (Dict.mem_keys_of_mem_entries hentry) _ (by simp), c,
        (node?_eq_some_iff (List.concat_ne_nil _ _)).2 hentry⟩

/-! ### Storing a file -/

theorem node?_set {q r : Place} {n : Node} (hq : q ≠ []) :
    (t.set q n).node? r = if r = q then some n else t.node? r := by
  by_cases hr : r = q
  · subst hr
    rw [if_pos rfl, node?, if_neg hq]
    exact Dict.find?_insert_self _ _ _
  · rw [if_neg hr, node?, node?]
    split
    · rfl
    · exact Dict.find?_insert_of_ne _ hr _

/-- A text is stored at the place of the path, which is no folder. -/
theorem eq_set_of_write {path text : String} (h : t.write path text = .ok t') :
    ∃ q, t.place? path = some q ∧ wantsFolder path = false ∧ t.node? q ≠ some .folder ∧
      t' = t.set q (.file (.text text)) := by
  rw [write] at h
  cases hr : t.resolve path with
  | error f => simp [hr] at h
  | ok r =>
    obtain ⟨hwants, -⟩ := resolve_eq_ok_iff.1 hr
    refine ⟨r.place, place?_of_resolve hr, ?_⟩
    rw [← hwants]
    simp only [hr] at h
    rcases hn : t.node? r.place with _ | _ | c <;> simp only [hn] at h
    · split at h
      · exact absurd h (by simp)
      · exact ⟨by simpa using ‹¬r.wantsFolder = true›, by simp, (Except.ok.inj h).symm⟩
    · exact absurd h (by simp)
    · split at h
      · exact absurd h (by simp)
      · exact ⟨by simpa using ‹¬r.wantsFolder = true›, by simp, (Except.ok.inj h).symm⟩

theorem sameFolders_set {q : Place} (hfolder : t.node? q ≠ some .folder) (c : Content) :
    t.SameFolders (t.set q (.file c)) := by
  have hne : q ≠ [] := fun hnil => hfolder (by rw [hnil, node?_nil])
  intro r
  rw [node?_set hne]
  by_cases hr : r = q
  · simpa [hr] using hfolder
  · rw [if_neg hr]

/-- **Storing a text** puts a file at the place of the path, which is no folder, and changes
nothing else. -/
theorem write_eq_ok {path text : String} (ht : t.Rooted) (h : t.write path text = .ok t') :
    ∃ q, t.place? path = some q ∧ wantsFolder path = false ∧ t'.Rooted ∧ t.SameFolders t' ∧
      ∀ r, t'.node? r = if r = q then some (.file (.text text)) else t.node? r := by
  obtain ⟨q, hplace, hwants, hfolder, rfl⟩ := eq_set_of_write h
  have hne : q ≠ [] := fun hnil => hfolder (by rw [hnil, node?_nil])
  have hnode := fun r => node?_set (t := t) (r := r) (n := .file (.text text)) hne
  have hsame := sameFolders_set hfolder (.text text)
  obtain ⟨parts, -, hleads⟩ := place?_eq_some_iff.1 hplace
  have habove : t.node? q.dropLast = some .folder := hleads.folder_above ht (node?_nil t)
  refine ⟨q, hplace, hwants, hsame.rooted ht fun r hr => ?_, hsame, hnode⟩
  rw [hnode] at hr
  by_cases hrq : r = q
  · exact Or.inr (hrq ▸ habove)
  · rw [if_neg hrq] at hr
    exact Or.inl hr

/-- There is something where a text can be read. -/
theorem has_of_read {path text : String} (h : t.read path = .ok text) : t.has path = true := by
  rw [read] at h
  rw [has]
  cases hlookup : t.lookup path with
  | error f => simp [hlookup] at h
  | ok r => rfl

/-- **A text that has been stored is read again.** -/
theorem read_of_write {path text : String} (h : t.write path text = .ok t') :
    t'.read path = .ok text := by
  obtain ⟨q, hplace, hwants, hfolder, rfl⟩ := eq_set_of_write h
  have hne : q ≠ [] := fun hnil => hfolder (by rw [hnil, node?_nil])
  have hplace' : (t.set q (.file (.text text))).place? path = some q := by
    rw [(sameFolders_set hfolder _).place?_eq, hplace]
  exact (read_eq_ok_iff hplace' hwants).2
    (textAt?_eq_some_iff.2 (by rw [node?_set hne, if_pos rfl]))

/-- **A file that can be read can be stored.** -/
theorem exists_write_of_read {path old : String} (h : t.read path = .ok old) (text : String) :
    ∃ t', t.write path text = .ok t' := by
  rw [read, lookup] at h
  rw [write]
  cases hr : t.resolve path with
  | error f => simp [hr] at h
  | ok r =>
    rcases hn : t.node? r.place with _ | _ | c
    · simp [hr, hn] at h
    · simp [hr, hn] at h
    · cases hwants : r.wantsFolder with
      | true => simp [hr, hn, hwants] at h
      | false => exact ⟨_, by simp only [hn, hwants]; rfl⟩

/-! ### Moving a file -/

/-- Nothing stands below a place that is no folder. -/
theorem Rooted.isPrefixOf_iff (ht : t.Rooted) {q : Place} (hfolder : t.node? q ≠ some .folder)
    {e : Place × Node} (he : e ∈ t.nodes.entries) : q.isPrefixOf e.1 = true ↔ e.1 = q := by
  rw [List.isPrefixOf_iff_prefix]
  constructor
  · rintro ⟨below, hbelow⟩
    cases below with
    | nil => rw [← hbelow, List.append_nil]
    | cons name below =>
      have hne : e.1 ≠ [] := by
        rw [← hbelow]
        simp
      have hn := (node?_eq_some_iff hne).2 he
      rw [← hbelow] at hn
      exact absurd (ht.folder_of_below hn) hfolder
  · exact fun h => h ▸ List.prefix_refl q

/-- Moving a file onto a place that is no folder moves one entry and may replace one. -/
theorem entries_relocate (ht : t.Rooted) {old new : Place} {c : Content}
    (hold : t.node? old = some (.file c)) (hfree : t.node? new ≠ some .folder) :
    (t.relocate old new).nodes.entries =
      (t.nodes.entries.filter fun e => decide (e.1 ≠ old ∧ e.1 ≠ new)) ++ [(new, .file c)] := by
  have holdne : old ≠ [] := fun hnil => by simp [hnil] at hold
  have hleaf : t.node? old ≠ some .folder := by simp [hold]
  have hmoved : (t.nodes.entries.filter fun e => old.isPrefixOf e.1) = [(old, .file c)] := by
    have hentry := (node?_eq_some_iff holdne).1 hold
    refine Eq.trans (List.filter_congr fun e he => ?_)
      (Dict.filter_key_eq_singleton t.nodes.nodup_keys hentry)
    show old.isPrefixOf e.1 = decide (e.1 = old)
    rw [Bool.eq_iff_iff, ht.isPrefixOf_iff hleaf he, decide_eq_true_iff]
  have hrest : (t.nodes.entries.filter fun e => !old.isPrefixOf e.1 && !new.isPrefixOf e.1) =
      t.nodes.entries.filter fun e => decide (e.1 ≠ old ∧ e.1 ≠ new) := by
    refine List.filter_congr fun e he => ?_
    rw [Bool.eq_iff_iff, Bool.and_eq_true, Bool.not_eq_true', Bool.not_eq_true',
      ← Bool.not_eq_true, ← Bool.not_eq_true, ht.isPrefixOf_iff hleaf he,
      ht.isPrefixOf_iff hfree he, decide_eq_true_iff]
  rw [relocate, hmoved, hrest]
  simp only [List.map_cons, List.map_nil, List.drop_length, List.append_nil]
  refine Dict.entries_ofList ?_
  rw [List.map_append, List.nodup_append]
  refine ⟨t.nodes.nodup_keys.sublist (List.filter_sublist.map _), by simp, ?_⟩
  intro q hq q' hq' hqq'
  obtain ⟨e, he, rfl⟩ := List.mem_map.1 hq
  have hnot : e.1 ≠ new := (of_decide_eq_true (List.mem_filter.1 he).2).2
  exact hnot (hqq'.trans (by simpa using hq'))

/-- What stands at the places of a tree in which a file has been moved onto a place that is no
folder. -/
theorem node?_relocate (ht : t.Rooted) {old new : Place} (hnew : new ≠ []) {c : Content}
    (hold : t.node? old = some (.file c)) (hfree : t.node? new ≠ some .folder) (r : Place) :
    (t.relocate old new).node? r =
      if r = new then some (.file c) else if r = old then none else t.node? r := by
  have holdne : old ≠ [] := fun hnil => by simp [hnil] at hold
  by_cases hr : r = []
  · subst hr
    rw [if_neg hnew.symm, if_neg holdne.symm, node?_nil, node?_nil]
  · refine Option.ext fun n => ?_
    rw [node?_eq_some_iff hr, entries_relocate ht hold hfree, List.mem_append, List.mem_filter,
      List.mem_singleton, Prod.mk.injEq, ← node?_eq_some_iff hr]
    by_cases hrnew : r = new
    · simp [hrnew, eq_comm]
    · rw [if_neg hrnew]
      by_cases hrold : r = old
      · rw [if_pos hrold]
        simp [hrold, hrold ▸ hrnew]
      · rw [if_neg hrold]
        simp [hrnew, hrold]

/-- Where the path of something in a folder stands. -/
theorem site_join {folder name : String} {p : Place} {s : Site} (hname : IsEntryName name)
    (hfolder : t.place? folder = some p) (h : t.site (Path.join folder name) = .ok s) :
    s.folder = p ∧ s.name = name := by
  obtain ⟨parts, hparts, hp⟩ := place?_eq_some_iff.1 hfolder
  obtain ⟨hne, rfl⟩ := names_eq_ok hparts
  rw [site] at h
  obtain ⟨parts, hnames, h⟩ := exists_of_bind_eq_ok h
  obtain ⟨-, rfl⟩ := names_eq_ok hnames
  rw [Path.rawParts_join hne hname, List.dropLast_concat, hp.follow_eq] at h
  obtain ⟨p', hp', h⟩ := exists_of_bind_eq_ok h
  obtain rfl := Except.ok.inj hp'
  split at h
  · exact absurd h (by simp)
  · exact absurd h (by simp)
  · obtain rfl := Except.ok.inj h
    exact ⟨rfl, by simp⟩

/-- What has been **moved** into another folder stood in its own one, and either that is where it
was to go or it has gone there. -/
theorem exists_of_move_eq_ok {folder target name : String} {p q : Place} (ht : t.Rooted)
    (hname : IsEntryName name) (hfolder : t.place? folder = some p)
    (htarget : t.place? target = some q)
    (h : t.move (Path.join folder name) (Path.join target name) = .ok t') :
    ∃ n, t.node? (p ++ [name]) = some n ∧ t.node? q = some .folder ∧
      (p ++ [name] = q ++ [name] ∧ t' = t ∨
        t.checkTarget n (q ++ [name]) = .ok () ∧
          t' = t.relocate (p ++ [name]) (q ++ [name])) := by
  rw [move] at h
  split at h
  · exact absurd h (by simp)
  obtain ⟨source, hsource, h⟩ := exists_of_bind_eq_ok h
  obtain ⟨dest, hdest, h⟩ := exists_of_bind_eq_ok h
  obtain ⟨hsourceFolder, hsourceName⟩ := site_join hname hfolder hsource
  obtain ⟨hdestFolder, hdestName⟩ := site_join hname htarget hdest
  split at h
  · exact absurd h (by simp)
  rw [hsourceFolder, hsourceName, hdestFolder, hdestName] at h
  obtain ⟨old, hold, h⟩ := exists_of_bind_eq_ok h
  obtain rfl := (leads_of_follow hold).eq_concat hname
  rcases hn : t.node? (p ++ [name]) with _ | n <;> simp only [hn] at h
  · exact absurd h (by simp)
  obtain ⟨new, hnew, h⟩ := exists_of_bind_eq_ok h
  have hleads := leads_of_follow hnew
  obtain rfl := hleads.eq_concat hname
  obtain ⟨parts, -, hq⟩ := place?_eq_some_iff.1 htarget
  have habove := hleads.folder_above ht (hq.folder_above ht (node?_nil t))
  rw [List.dropLast_concat] at habove
  refine ⟨n, rfl, habove, ?_⟩
  split at h
  · exact absurd h (by simp)
  split at h
  case isTrue hplaces => exact .inl ⟨hplaces, (Except.ok.inj h).symm⟩
  case isFalse =>
    split at h
    · exact absurd h (by simp)
    split at h
    · exact absurd h (by simp)
    cases hcheck : t.checkTarget n (q ++ [name]) with
    | error f => exact absurd h (by simp [hcheck, Except.map])
    | ok =>
      rw [hcheck] at h
      exact .inr ⟨rfl, (Except.ok.inj h).symm⟩

/-- A file is moved onto no folder. -/
theorem not_folder_of_checkTarget {c : Content} {q : Place}
    (h : t.checkTarget (.file c) q = .ok ()) : t.node? q ≠ some .folder := by
  intro hfolder
  simp [checkTarget, hfolder] at h

/-- Moving a file onto a place that is no folder keeps the folders. -/
theorem sameFolders_relocate (ht : t.Rooted) {old new : Place} (hnew : new ≠ []) {c : Content}
    (hold : t.node? old = some (.file c)) (hfree : t.node? new ≠ some .folder) :
    t.SameFolders (t.relocate old new) := by
  intro r
  rw [node?_relocate ht hnew hold hfree]
  split
  case isTrue hr => simpa [hr] using hfree
  case isFalse =>
    split
    case isTrue hr => simp [hr, hold]
    case isFalse => rfl

/-- **Moving a file** into another folder takes it from the one place to the other, and changes
nothing else. -/
theorem move_eq_ok {folder target name : String} {p q : Place} (ht : t.Rooted)
    (hname : IsEntryName name) (hfolder : t.place? folder = some p)
    (htarget : t.place? target = some q) (hfile : t.node? (p ++ [name]) ≠ some .folder)
    (h : t.move (Path.join folder name) (Path.join target name) = .ok t') :
    t'.Rooted ∧ t.SameFolders t' ∧ ∀ r, t'.node? r =
      if r = q ++ [name] then t.node? (p ++ [name]) else if r = p ++ [name] then none
      else t.node? r := by
  obtain ⟨n, hn, habove, ⟨hplaces, rfl⟩ | ⟨hcheck, rfl⟩⟩ :=
    exists_of_move_eq_ok ht hname hfolder htarget h
  · -- The file is where it is to go.
    refine ⟨ht, fun _ => Iff.rfl, fun r => ?_⟩
    rw [hplaces]
    split <;> simp_all
  · obtain ⟨c, rfl⟩ : ∃ c, n = .file c := by
      cases n with
      | folder => exact absurd hn hfile
      | file c => exact ⟨c, rfl⟩
    have hne : q ++ [name] ≠ [] := List.concat_ne_nil name q
    have hfree := not_folder_of_checkTarget hcheck
    have hnode := node?_relocate ht hne hn hfree
    have hsame := sameFolders_relocate ht hne hn hfree
    refine ⟨hsame.rooted ht fun r hr => ?_, hsame, fun r => by rw [hnode, hn]⟩
    by_cases hnew : r = q ++ [name]
    · exact .inr (by rw [hnew, List.dropLast_concat, habove])
    · rw [hnode, if_neg hnew] at hr
      split at hr
      · exact absurd rfl hr
      · exact .inl hr

end Tree

end SchemaHistory.Files

import Mathlib.Data.List.Nodup
import SchemaHistory.Replay

/-!
# The order of modifiers

The first call of a chain says what is done, and the calls behind it modify that. The modifiers are
read in three ways. A column takes them one after the other, a foreign key does so as well, and some
of them are looked up by their names, in all calls of the chain.

Each property of a column has one modifier that sets it, but there are several that say what happens
on deletion, and two that say what happens on update. Modifiers are **compatible**
(`SchemaHistory.Chain.Compatible`) if no two have one name and no two say the same thing about a
foreign key. Then whatever is written is written once, and whatever is looked up is found in one
place, so chains with the same modifiers in another order agree on everything that is read off them
(`SchemaHistory.Chain.Agrees`). A chain has no effect but through these readings, so the step of the
replay is the same (`SchemaHistory.Replay.modifiers_perm`).
-/

namespace SchemaHistory

/-! ### What a modifier says about a foreign key -/

namespace Call

/-- The modifiers that say what happens when the row is **deleted** that a foreign key refers to. -/
def deletionNames : List String :=
  ["onDelete", "cascadeOnDelete", "nullOnDelete", "restrictOnDelete"]

/-- The modifiers that say what happens when it is **updated**. -/
def updateNames : List String :=
  ["onUpdate", "cascadeOnUpdate"]

/-- What a modifier says about deletion, if it does: an action, or that there is none. -/
def onDelete? (m : Call) : Option (Option String) :=
  match m.name with
  | "onDelete" => some m.firstString?
  | "cascadeOnDelete" => some (some "cascade")
  | "nullOnDelete" => some (some "set null")
  | "restrictOnDelete" => some (some "restrict")
  | _ => none

/-- What a modifier says about update, if it does. -/
def onUpdate? (m : Call) : Option (Option String) :=
  match m.name with
  | "onUpdate" => some m.firstString?
  | "cascadeOnUpdate" => some (some "cascade")
  | _ => none

variable {m : Call}

theorem onDelete?_eq_none (h : m.name ∉ deletionNames) : m.onDelete? = none := by
  unfold onDelete?
  split <;> simp_all [deletionNames]

theorem onUpdate?_eq_none (h : m.name ∉ updateNames) : m.onUpdate? = none := by
  unfold onUpdate?
  split <;> simp_all [updateNames]

end Call

namespace Relationship

/-- A modifier writes what it says, and leaves what it says nothing about. -/
theorem applyModifier_eq (k : Relationship) (m : Call) :
    k.applyModifier m = { k with
      onDelete := m.onDelete?.getD k.onDelete
      onUpdate := m.onUpdate?.getD k.onUpdate } := by
  unfold applyModifier Call.onDelete? Call.onUpdate?
  split <;> simp_all

/-- Modifiers do not change the column that a foreign key belongs to. -/
theorem localColumn_applyModifiers (k : Relationship) (chain : Chain) :
    (k.applyModifiers chain).localColumn = k.localColumn := by
  rw [applyModifiers]
  induction chain.modifiers generalizing k with
  | nil => rfl
  | cons m rest ih => rw [List.foldl_cons, ih, applyModifier_eq]

/-- Two modifiers can be exchanged if they do not say the same thing. -/
theorem applyModifier_comm (k : Relationship) {m n : Call}
    (hdeletion : m.name ∈ Call.deletionNames → n.name ∉ Call.deletionNames)
    (hupdate : m.name ∈ Call.updateNames → n.name ∉ Call.updateNames) :
    (k.applyModifier m).applyModifier n = (k.applyModifier n).applyModifier m := by
  have hdelete : n.onDelete?.getD (m.onDelete?.getD k.onDelete) =
      m.onDelete?.getD (n.onDelete?.getD k.onDelete) := by
    by_cases hm : m.name ∈ Call.deletionNames
    · rw [Call.onDelete?_eq_none (hdeletion hm), Option.getD_none, Option.getD_none]
    · rw [Call.onDelete?_eq_none hm, Option.getD_none, Option.getD_none]
  have hupdate : n.onUpdate?.getD (m.onUpdate?.getD k.onUpdate) =
      m.onUpdate?.getD (n.onUpdate?.getD k.onUpdate) := by
    by_cases hm : m.name ∈ Call.updateNames
    · rw [Call.onUpdate?_eq_none (hupdate hm), Option.getD_none, Option.getD_none]
    · rw [Call.onUpdate?_eq_none hm, Option.getD_none, Option.getD_none]
  simp only [applyModifier_eq, hdelete, hupdate]

end Relationship

namespace Column

/-- Each property of a column has one modifier that sets it. -/
theorem applyModifier_eq (c : Column) (m : Call) :
    c.applyModifier m = { c with
      unsigned := if m.name = "unsigned" then true else c.unsigned
      nullable := if m.name = "nullable" then !m.saysFalse else c.nullable
      unique := if m.name = "unique" then true else c.unique
      default := if m.name = "default" then some m.rawArgs else c.default } := by
  unfold applyModifier
  split <;> simp_all

/-- Modifiers do not change the name of a column. -/
theorem name_foldl_applyModifier (c : Column) (ms : List Call) :
    (ms.foldl applyModifier c).name = c.name := by
  induction ms generalizing c with
  | nil => rfl
  | cons m rest ih => rw [List.foldl_cons, ih, applyModifier_eq]

/-- Two modifiers can be exchanged if they have different names. -/
theorem applyModifier_comm (c : Column) {m n : Call} (h : m.name ≠ n.name) :
    (c.applyModifier m).applyModifier n = (c.applyModifier n).applyModifier m := by
  have hwrite : ∀ {α : Type} (name : String) (x y z : α),
      (if n.name = name then x else if m.name = name then y else z) =
        if m.name = name then y else if n.name = name then x else z := by
    intro α name x y z
    by_cases hm : m.name = name
    · rw [if_pos hm, if_neg fun hn => h (hm.trans hn.symm), if_pos hm]
    · rw [if_neg hm, if_neg hm]
  simp only [applyModifier_eq, hwrite]

end Column

/-! ### Modifiers in another order -/

namespace Chain

/-- Modifiers are **compatible** if no two have one name, at most one says what happens on deletion,
and at most one what happens on update. -/
structure Compatible (ms : List Call) : Prop where
  names : (ms.map (·.name)).Nodup
  deletion : ms.countP (·.name ∈ Call.deletionNames) ≤ 1
  update : ms.countP (·.name ∈ Call.updateNames) ≤ 1

/-- Two chains **agree** if all that is read off a chain is the same for both: the first call, the
calls of each name, and what the modifiers make of a column and of a foreign key. -/
structure Agrees (a b : Chain) : Prop where
  head : a.head? = b.head?
  find : ∀ name, a.find? name = b.find? name
  column : ∀ c, a.modifiers.foldl Column.applyModifier c =
    b.modifiers.foldl Column.applyModifier c
  relationship : ∀ k : Relationship, k.applyModifiers a = k.applyModifiers b

variable {ms ms' : List Call}

/-- If at most one element of a list satisfies a test, then two that do are the same. -/
theorem eq_of_countP_le_one {p : Call → Bool} (h : ms.countP p ≤ 1) {m n : Call} (hm : m ∈ ms)
    (hn : n ∈ ms) (hpm : p m = true) (hpn : p n = true) : m = n := by
  rw [List.countP_eq_length_filter] at h
  have hmem : ∀ {c}, c ∈ ms → p c = true → c ∈ ms.filter p := fun hc hpc =>
    List.mem_filter.2 ⟨hc, hpc⟩
  match hfilter : ms.filter p, h with
  | [], _ => simpa [hfilter] using hmem hm hpm
  | [c], _ =>
    rw [hfilter] at hmem
    exact (List.mem_singleton.1 (hmem hm hpm)).trans (List.mem_singleton.1 (hmem hn hpn)).symm

/-- A call is found by its name wherever it stands. -/
theorem find?_perm (hnames : (ms.map (·.name)).Nodup) (hperm : ms.Perm ms') (name : String) :
    ms.find? (·.name == name) = ms'.find? (·.name == name) := by
  have hfound : ∀ {ns : List Call}, (ns.map (·.name)).Nodup → ∀ m,
      ns.find? (·.name == name) = some m ↔ m ∈ ns ∧ m.name = name := by
    intro ns hns m
    constructor
    · exact fun hm => ⟨List.mem_of_find?_eq_some hm, by simpa using List.find?_some hm⟩
    · rintro ⟨hm, rfl⟩
      have hsome : (ns.find? (·.name == m.name)).isSome = true :=
        List.find?_isSome.2 ⟨m, hm, beq_self_eq_true m.name⟩
      obtain ⟨n, hn⟩ := Option.isSome_iff_exists.1 hsome
      have hname : n.name = m.name := by simpa using List.find?_some hn
      rw [hn, List.inj_on_of_nodup_map hns (List.mem_of_find?_eq_some hn) hm hname]
  refine Option.ext fun m => ?_
  rw [hfound hnames, hfound ((hperm.map _).nodup_iff.1 hnames), hperm.mem_iff]

/-- **Chains with the same compatible modifiers agree**, in whatever order they stand. -/
theorem Compatible.agrees (h : Compatible ms) (hperm : ms.Perm ms') (receiver : String)
    (head : Call) : Agrees ⟨receiver, head :: ms⟩ ⟨receiver, head :: ms'⟩ where
  head := rfl
  find name := by
    have hbehind := find?_perm h.names hperm name
    simp only [find?, List.find?_cons, hbehind]
  column := by
    refine hperm.foldl_eq' fun m hm n hn c => ?_
    by_cases heq : m = n
    · rw [heq]
    · exact c.applyModifier_comm fun hname =>
        heq (List.inj_on_of_nodup_map h.names hm hn hname)
  relationship := by
    refine hperm.foldl_eq' fun m hm n hn k => ?_
    by_cases heq : m = n
    · rw [heq]
    · -- Two modifiers that say the same thing would be one.
      refine k.applyModifier_comm (fun hdm hdn => heq ?_) fun hum hun => heq ?_
      · exact eq_of_countP_le_one h.deletion hm hn (by simpa using hdm) (by simpa using hdn)
      · exact eq_of_countP_le_one h.update hm hn (by simpa using hum) (by simpa using hun)

/-! ### Chains that agree -/

namespace Agrees

variable {a b : Chain} (h : a.Agrees b)
include h

theorem ofChain_column (type : ColumnType) (l : Location) :
    Column.ofChain type a l = Column.ofChain type b l := by
  rw [Column.ofChain, Column.ofChain, h.head]
  simp only [h.column]

theorem ofChain_relationship (l : Location) :
    Relationship.ofChain a l = Relationship.ofChain b l := by
  rw [Relationship.ofChain, Relationship.ofChain, h.head, h.find, h.find]
  simp only [h.relationship]

theorem constrained? (c : Column) :
    Relationship.constrained? c a = Relationship.constrained? c b := by
  rw [Relationship.constrained?, Relationship.constrained?, h.find]
  simp only [h.relationship]

theorem define (t : Table) (type : ColumnType) (l : Location) :
    t.define type a l = t.define type b l := by
  rw [Table.define, Table.define, h.ofChain_column]
  simp only [h.find, h.constrained?]

/-- **They have the same effect on every table.** -/
theorem apply (t : Table) (key : String) (head : Call) (l : Location) :
    t.apply key head a l = t.apply key head b l := by
  unfold Table.apply Table.applyBuilder
  simp only [h.define, h.ofChain_relationship]

/-- **They are the same step of a replay.** -/
theorem step (r : Replay) (l : Location) : r.step (.calls a) l = r.step (.calls b) l := by
  have hcall : r.call a l = r.call b l := by
    rw [Replay.call, Replay.call, h.head]
    simp only [h.apply]
  rw [Replay.step, Replay.step, hcall]

end Agrees

end Chain

namespace Replay

/-- **The order of the modifiers does not matter.** Let the modifiers of a chain be compatible. In
whatever order they stand behind the first call, and whatever call this is, the step of the chain
leads from every state to the same state, with the same schema and the same reports, and it goes on
or fails in the same way. -/
theorem modifiers_perm (r : Replay) (receiver : String) (head : Call) {ms ms' : List Call}
    (hms : Chain.Compatible ms) (hperm : ms.Perm ms') (l : Location) :
    r.step (.calls ⟨receiver, head :: ms⟩) l = r.step (.calls ⟨receiver, head :: ms'⟩) l :=
  (hms.agrees hperm receiver head).step r l

/-- The modifiers of a column that is unsigned and has a default, with a foreign key in short
form. -/
def ownerModifiers : List Call :=
  [⟨"unsigned", [], "", none⟩, ⟨"constrained", [.string "users"], "'users'", none⟩,
    ⟨"nullOnDelete", [], "", none⟩, ⟨"onUpdate", [.string "cascade"], "'cascade'", none⟩,
    ⟨"nullable", [], "", none⟩, ⟨"default", [.raw "0"], "0", none⟩, ⟨"primary", [], "", none⟩]

/-- The table that they lead to. -/
def ownedNotes : Table where
  name := "notes"
  primaryKey := some "owner"
  columns := Dict.ofList [("owner",
    { type := .builder .integer, name := "owner", unsigned := true, nullable := true,
      default := some "0" })]
  relationships := [⟨"owner", "id", "users", some "set null", some "cascade"⟩]

/-- They lead to the same table if they are written in reverse. -/
theorem modifiers_perm_ownedNotes :
    let r : Replay := { schema := ⟨Dict.ofList [("notes", { name := "notes" })]⟩
                        current := some "notes" }
    let head : Call := ⟨"integer", [.string "owner"], "'owner'", none⟩
    Chain.Compatible ownerModifiers ∧ ownerModifiers.Perm ownerModifiers.reverse ∧
      r.step (.calls ⟨"$table", head :: ownerModifiers.reverse⟩) ⟨"a.php", 2⟩ =
        ({ r with schema := ⟨Dict.ofList [("notes", ownedNotes)]⟩ }, .proceed false) := by
  intro r head
  have hcompatible : Chain.Compatible ownerModifiers := ⟨by decide, by decide, by decide⟩
  have hperm : ownerModifiers.Perm ownerModifiers.reverse := (List.reverse_perm _).symm
  refine ⟨hcompatible, hperm, ?_⟩
  rw [← modifiers_perm r "$table" head hcompatible hperm]
  decide

end Replay

end SchemaHistory

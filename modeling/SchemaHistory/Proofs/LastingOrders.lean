import SchemaHistory.Proofs.CancelledTables
import SchemaHistory.Proofs.PlaceableTables
import SchemaHistory.Proofs.TableRenames

/-!
# Orders that survive drops and renames

Dropping a table and renaming one change the tables, their order in the schema and the
relationships of all others. None of this takes away the existence of a creation order. It is
enough to see that tables stay placeable, as an order exists exactly if all of them are
(`SchemaHistory.Schema.Keyed.exists_order_iff`), and what is placeable can be followed table by
table, along the rule by which the placeable tables are built up.

* *Dropping* a table takes every relationship to it along. A table that is left has fewer foreign
  tables than before, each of them placeable (`SchemaHistory.Schema.Placeable.drop`). The converse
  fails, since a table that is dropped may have been the obstacle.
* *Renaming* a table to a fresh name takes every relationship to it along as well, and a table is
  placeable if it was so under its former name (`SchemaHistory.Schema.IsRename.placeable`). The
  converse is the same fact about the rename that undoes this one.
-/

namespace SchemaHistory

namespace Schema

variable {s s' : Schema} {old new name : String} {t : Table}

/-- What is placeable depends on the tables only, and not on their order. -/
theorem Placeable.of_tables (h : ∀ n, s.table? n = s'.table? n) (hp : s.Placeable name) :
    s'.Placeable name := by
  induction hp with
  | @intro name t ht _ ih => exact .intro (h name ▸ ht) ih

/-! ### Drops -/

/-- The relationships to a table are gone without it. -/
theorem mem_foreignTables_withoutReferencesTo {d : String}
    (hd : d ∈ (withoutReferencesTo old t).foreignTables) : d ∈ t.foreignTables ∧ d ≠ old := by
  obtain ⟨r, hr, rfl⟩ := List.mem_map.1 hd
  obtain ⟨hmem, hne⟩ := List.mem_filter.1 hr
  exact ⟨List.mem_map_of_mem hmem, by simpa using hne⟩

theorem Placeable.without (hp : s.Placeable name) (hne : name ≠ old) :
    (s.without old).Placeable name := by
  induction hp with
  | @intro name t ht _ ih =>
    have htable : (s.without old).table? name = some (withoutReferencesTo old t) := by
      rw [table?_without hne, ht, Option.map_some]
    refine .intro htable fun d hd hdn => ?_
    obtain ⟨hmem, hdo⟩ := mem_foreignTables_withoutReferencesTo hd
    exact ih d hmem hdn hdo

theorem Placeable.drop (hp : s.Placeable name) (hname : name ∈ (s.drop old).tableNames) :
    (s.drop old).Placeable name := by
  by_cases hold : old ∈ s.tableNames
  · rw [drop_of_mem hold] at hname ⊢
    exact hp.without fun heq => s.name_not_mem_without old (heq ▸ hname)
  · rwa [drop_of_not_mem hold]

theorem mem_tableNames_of_drop (hname : name ∈ (s.drop old).tableNames) : name ∈ s.tableNames := by
  by_cases hold : old ∈ s.tableNames
  · rw [drop_of_mem hold] at hname
    simp only [tableNames, Schema.without, Dict.keys_mapValues, Dict.keys_erase] at hname
    exact (List.mem_filter.1 hname).1
  · rwa [drop_of_not_mem hold] at hname

/-! ### Renames -/

/-- The table that a placeable name has become after a rename to a fresh one. -/
theorem IsRename.table?_renamed (h : s.IsRename old new t s') (ht : s.table? old = some t)
    (hnew : new ∉ s.tableNames) {u : Table} (hu : s.table? name = some u) :
    ∃ v, s'.table? (renamed old new name) = some v ∧
      v.foreignTables = u.foreignTables.map (renamed old new) := by
  by_cases hold : name = old
  · subst hold
    obtain rfl := Option.some.inj (ht.symm.trans hu)
    rw [renamed_self]
    exact ⟨_, h.table?_new, Table.foreignTables_redirect _ _ _⟩
  · have hn : name ≠ new := fun heq => hnew (heq ▸ mem_tableNames_iff.2 ⟨u, hu⟩)
    rw [renamed_of_ne hold, h.table?_of_ne name hold hn, hu]
    exact ⟨_, rfl, Table.foreignTables_redirect _ _ _⟩

theorem IsRename.placeable (h : s.IsRename old new t s') (ht : s.table? old = some t)
    (hnew : new ∉ s.tableNames) (hp : s.Placeable name) :
    s'.Placeable (renamed old new name) := by
  induction hp with
  | @intro name u hu _ ih =>
    obtain ⟨v, hv, hforeign⟩ := h.table?_renamed ht hnew hu
    refine .intro hv fun d hd hne => ?_
    rw [hforeign] at hd
    obtain ⟨e, he, rfl⟩ := List.mem_map.1 hd
    exact ih e he fun heq => hne (congrArg _ heq)

/-- **Every table is still placeable after a rename** to a fresh name. -/
theorem IsRename.forall_placeable (h : s.IsRename old new t s') (ht : s.table? old = some t)
    (hnew : new ∉ s.tableNames) (hall : ∀ n ∈ s.tableNames, s.Placeable n) :
    ∀ n ∈ s'.tableNames, s'.Placeable n := by
  intro n hn
  rw [h.tableNames, List.mem_append, List.mem_filter, List.mem_singleton] at hn
  rcases hn with ⟨hmem, hne⟩ | rfl
  · obtain ⟨hold, -⟩ := of_decide_eq_true hne
    have hp := h.placeable ht hnew (hall n hmem)
    rwa [renamed_of_ne hold] at hp
  · have hp := h.placeable ht hnew (hall old (mem_tableNames_iff.2 ⟨t, ht⟩))
    rwa [renamed_self] at hp

/-- **Drops and renames leave an order.** If the tables of a keyed schema have a creation order,
then they have one after a drop, whatever the name that is dropped. A rename of a table to a name
that is neither a table nor a foreign table leaves an order exactly if there was one before. -/
theorem order_lasts (h : s.Keyed) :
    ((∃ o, s.order = .ok o) → ∀ name, ∃ o, (s.drop name).order = .ok o) ∧
    ∀ old ∈ s.tableNames, ∀ new, new ∉ s.tableNames → ¬s.IsForeign new →
      ∃ x, s.rename? old new = some x ∧
        ((∃ o, x.schema.order = .ok o) ↔ ∃ o, s.order = .ok o) := by
  refine ⟨fun ho name => ?_, fun old hold new hnew hforeign => ?_⟩
  · rw [(h.drop name).exists_order_iff]
    exact fun n hn => (h.exists_order_iff.1 ho n (mem_tableNames_of_drop hn)).drop hn
  · obtain ⟨t, ht⟩ := mem_tableNames_iff.1 hold
    have hne : old ≠ new := fun heq => hnew (heq ▸ hold)
    obtain ⟨x, hx, -, hrename⟩ := exists_rename ht hne
    refine ⟨x, hx, ?_⟩
    rw [(h.rename hx).exists_order_iff, h.exists_order_iff]
    refine ⟨fun hall => ?_, hrename.forall_placeable ht hnew⟩
    -- The rename back is one to a fresh name as well, and it gives the tables from before.
    obtain ⟨y, -, -, hback⟩ := exists_rename hrename.table?_new hne.symm
    have hagain := hback.forall_placeable hrename.table?_new (hrename.old_not_mem hne) hall
    have htables := hrename.table?_undo hback h ht hne hnew hforeign
    intro n hn
    obtain ⟨u, hu⟩ := mem_tableNames_iff.1 hn
    have hmem : n ∈ y.schema.tableNames := mem_tableNames_iff.2 ⟨u, (htables n).trans hu⟩
    exact (hagain n hmem).of_tables htables

/-- Users and teams keep an order when the teams are dropped, and when they become groups. -/
theorem order_lasts_usersAndTeams :
    usersAndTeams.Keyed ∧ (∃ o, usersAndTeams.order = .ok o) ∧
      (∃ o, (usersAndTeams.drop "teams").order = .ok o) ∧
      "teams" ∈ usersAndTeams.tableNames ∧ "groups" ∉ usersAndTeams.tableNames ∧
      ¬usersAndTeams.IsForeign "groups" ∧
      ∃ x, usersAndTeams.rename? "teams" "groups" = some x ∧ ∃ o, x.schema.order = .ok o := by
  have hkeyed : usersAndTeams.Keyed := by decide
  have hnames : usersAndTeams.tableNames = ["users", "teams"] := by decide
  have hteams : usersAndTeams.Placeable "teams" :=
    .intro rfl (by simp [Table.foreignTables])
  have husers : usersAndTeams.Placeable "users" :=
    .intro rfl (by simpa [Table.foreignTables] using hteams)
  have horder : ∃ o, usersAndTeams.order = .ok o := by
    rw [hkeyed.exists_order_iff, hnames]
    simp [husers, hteams]
  have hold : "teams" ∈ usersAndTeams.tableNames := by decide
  have hnew : "groups" ∉ usersAndTeams.tableNames := by decide
  have hforeign : ¬usersAndTeams.IsForeign "groups" := by decide
  obtain ⟨hdrop, hrename⟩ := order_lasts hkeyed
  obtain ⟨x, hx, hiff⟩ := hrename "teams" hold "groups" hnew hforeign
  exact ⟨hkeyed, horder, hdrop horder "teams", hold, hnew, hforeign, x, hx, hiff.2 horder⟩

end Schema

end SchemaHistory

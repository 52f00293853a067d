import SchemaHistory.Order
import SchemaHistory.Proofs.Keyed

/-!
# The creation order is sound and complete

The passes of `SchemaHistory.Schema.order` find an order exactly if there is one. Both directions
rest on one notion: a row of names is **settled** if every name in it is ready at the moment it
comes, that is, if everything it depends on stands before it.

* *Soundness.* A pass extends a settled row by names that are ready, so the row stays settled
  (`SchemaHistory.Schema.settled_pass`), and it moves names without losing or doubling any
  (`SchemaHistory.Schema.perm_pass`).
* *Completeness.* A pass that places nothing has found none of the waiting tables ready
  (`SchemaHistory.Schema.not_isReady_of_pass`). In an arrangement of all tables the first of the
  waiting ones has only placed tables before it, so it would have been ready
  (`SchemaHistory.Schema.Arranges.exists_isReady`). Hence such a pass rules out every arrangement.

Tables whose names are a settled row already are placed where they stand
(`SchemaHistory.Schema.order_of_settled`).
-/

namespace SchemaHistory

namespace Schema

variable {s : Schema}

/-- A list **arranges** the tables of a schema if it lists their names, each once, and puts every
foreign table of a table, other than the table itself, before that table. -/
def Arranges (s : Schema) (l : List String) : Prop :=
  l.Perm s.tableNames ∧
    ∀ before name after, l = before ++ name :: after →
      ∀ t, s.table? name = some t →
        ∀ r ∈ t.relationships, r.foreignTable = name ∨ r.foreignTable ∈ before

/-! ### Readiness -/

/-- A table of a keyed schema is ready exactly if each of its foreign tables, other than itself,
has been placed. -/
theorem Keyed.isReady_iff (h : s.Keyed) {placed : List String} {name : String} :
    s.isReady placed name = true ↔ ∀ t, s.table? name = some t →
      ∀ r ∈ t.relationships, r.foreignTable = name ∨ r.foreignTable ∈ placed := by
  rw [isReady]
  cases ht : s.table? name with
  | none => simp
  | some t =>
    have hname : t.name = name := h.name_eq ht
    simp only [Table.dependencies, List.all_eq_true, List.mem_filter, List.mem_map, bne_iff_ne,
      List.contains_eq_mem, decide_eq_true_eq, hname, Option.some.injEq, forall_eq']
    constructor
    · intro hall r hr
      by_cases hself : r.foreignTable = name
      · exact Or.inl hself
      · exact Or.inr (hall r.foreignTable ⟨⟨r, hr, rfl⟩, hself⟩)
    · rintro hall d ⟨⟨r, hr, rfl⟩, hne⟩
      exact (hall r hr).resolve_left hne

/-- A table is ready exactly if each of its foreign tables, other than itself, has been placed. -/
theorem Keyed.isReady_iff_of_table? (h : s.Keyed) {placed : List String} {name : String}
    {t : Table} (ht : s.table? name = some t) :
    s.isReady placed name = true ↔ ∀ d ∈ t.foreignTables, d ≠ name → d ∈ placed := by
  rw [h.isReady_iff, ht, Table.foreignTables]
  simp only [Option.some.injEq, forall_eq', List.forall_mem_map, Decidable.or_iff_not_imp_left]

/-- What is ready stays ready when more tables are placed. -/
theorem isReady_mono {placed placed' : List String} {name : String}
    (hsub : ∀ n ∈ placed, n ∈ placed') (h : s.isReady placed name = true) :
    s.isReady placed' name = true := by
  rw [isReady] at h ⊢
  cases ht : s.table? name with
  | none => rfl
  | some t =>
    simp only [ht, List.all_eq_true, List.contains_eq_mem, decide_eq_true_eq] at h ⊢
    exact fun d hd => hsub d (h d hd)

/-- A row of names is **settled** if each of them is ready where it stands. -/
def Settled (s : Schema) (l : List String) : Prop :=
  ∀ before name after, l = before ++ name :: after → s.isReady before name = true

theorem settled_nil : s.Settled [] := by
  intro before name after h
  simp at h

/-- A settled row may be extended by a name that is ready. -/
theorem Settled.concat {l : List String} {name : String} (hl : s.Settled l)
    (hname : s.isReady l name = true) : s.Settled (l ++ [name]) := by
  intro before n after h
  rcases List.eq_nil_or_concat after with rfl | ⟨after', z, rfl⟩
  · obtain ⟨rfl, hn⟩ := List.append_inj' h rfl
    obtain rfl : name = n := by simpa using hn
    exact hname
  · have h' : l ++ [name] = (before ++ n :: after') ++ [z] := by simpa using h
    exact hl before n after' (List.append_inj' h' rfl).1

theorem Keyed.arranges_iff (h : s.Keyed) {l : List String} :
    s.Arranges l ↔ l.Perm s.tableNames ∧ s.Settled l := by
  refine and_congr_right fun _ => ?_
  constructor
  · exact fun hl before name after hsplit => h.isReady_iff.2 (hl before name after hsplit)
  · exact fun hl before name after hsplit => h.isReady_iff.1 (hl before name after hsplit)

/-! ### One pass -/

/-- A pass moves names from the waiting ones to the placed ones and loses none. -/
theorem perm_pass (placed waiting : List String) :
    ((s.pass placed waiting).1 ++ (s.pass placed waiting).2).Perm (placed ++ waiting) := by
  induction waiting generalizing placed with
  | nil => simp [pass]
  | cons name rest ih =>
    rw [pass]
    split
    · simpa using ih (placed ++ [name])
    · refine List.perm_middle.trans (List.Perm.trans ?_ List.perm_middle.symm)
      exact (ih placed).cons name

theorem settled_pass {placed : List String} (waiting : List String) (h : s.Settled placed) :
    s.Settled (s.pass placed waiting).1 := by
  induction waiting generalizing placed with
  | nil => simpa [pass] using h
  | cons name rest ih =>
    rw [pass]
    split
    · rename_i hready
      exact ih (h.concat hready)
    · exact ih h

theorem length_pass_le (placed waiting : List String) :
    (s.pass placed waiting).2.length ≤ waiting.length := by
  induction waiting generalizing placed with
  | nil => simp [pass]
  | cons name rest ih =>
    rw [pass]
    split
    · exact Nat.le_succ_of_le (ih _)
    · exact Nat.succ_le_succ (ih _)

/-- A pass that leaves as many names waiting as there were has found none of them ready. -/
theorem not_isReady_of_pass {placed waiting : List String}
    (h : ¬(s.pass placed waiting).2.length < waiting.length) :
    ∀ name ∈ waiting, ¬s.isReady placed name = true := by
  induction waiting generalizing placed with
  | nil => simp
  | cons name rest ih =>
    rw [pass] at h
    split at h
    · have hle := length_pass_le (s := s) (placed ++ [name]) rest
      simp only [List.length_cons] at h
      omega
    · rename_i hname
      simp only [List.length_cons, Nat.add_lt_add_iff_right] at h
      intro n hn
      rcases List.mem_cons.1 hn with rfl | hn
      · exact hname
      · exact ih h n hn

/-! ### Arrangements -/

/-- The first element of a list that satisfies a condition, with the list split around it. -/
theorem exists_first_of_mem {p : String → Prop} {l : List String} (h : ∃ a ∈ l, p a) :
    ∃ before a after, l = before ++ a :: after ∧ p a ∧ ∀ b ∈ before, ¬p b := by
  induction l with
  | nil => simp at h
  | cons c rest ih =>
    by_cases hc : p c
    · exact ⟨[], c, rest, rfl, hc, by simp⟩
    · obtain ⟨a, ha, hpa⟩ := h
      rcases List.mem_cons.1 ha with rfl | ha
      · exact absurd hpa hc
      · obtain ⟨before, a', after, rfl, hpa', hnone⟩ := ih ⟨a, ha, hpa⟩
        refine ⟨c :: before, a', after, rfl, hpa', ?_⟩
        intro b hb
        rcases List.mem_cons.1 hb with rfl | hb
        · exact hc
        · exact hnone b hb

/-- **As long as an arrangement exists, some waiting table is ready**: the first one in the
arrangement, because everything before it has been placed. -/
theorem Arranges.exists_isReady {l placed waiting : List String} (h : s.Keyed)
    (hl : s.Arranges l) (hperm : (placed ++ waiting).Perm s.tableNames) (hne : waiting ≠ []) :
    ∃ name ∈ waiting, s.isReady placed name = true := by
  obtain ⟨w, hw⟩ := List.exists_mem_of_ne_nil waiting hne
  have hmem : ∀ n, n ∈ l ↔ n ∈ placed ∨ n ∈ waiting := by
    intro n
    rw [hl.1.mem_iff, ← hperm.mem_iff, List.mem_append]
  obtain ⟨before, name, after, hsplit, hname, hbefore⟩ :=
    exists_first_of_mem (p := (· ∈ waiting)) ⟨w, (hmem w).2 (Or.inr hw), hw⟩
  refine ⟨name, hname, ?_⟩
  refine isReady_mono ?_ ((h.arranges_iff.1 hl).2 before name after hsplit)
  intro n hn
  have hn' : n ∈ l := by
    rw [hsplit]
    exact List.mem_append_left _ hn
  exact ((hmem n).1 hn').resolve_right (hbefore n hn)

/-! ### All passes -/

/-- **The passes give an arrangement**, whenever they give anything. -/
theorem settled_of_orderFrom {placed waiting o : List String} (hs : s.Settled placed)
    (h : s.orderFrom placed waiting = .ok o) : o.Perm (placed ++ waiting) ∧ s.Settled o := by
  fun_induction orderFrom s placed waiting with
  | case1 placed =>
    obtain rfl : placed = o := by simpa using h
    exact ⟨by simp, hs⟩
  | case2 placed name rest r hlt ih =>
    obtain ⟨hperm, ho⟩ := ih (settled_pass (name :: rest) hs) h
    exact ⟨hperm.trans (perm_pass placed (name :: rest)), ho⟩
  | case3 => simp at h

/-- The passes end with an order if the tables can be arranged. -/
theorem exists_orderFrom {l placed waiting : List String} (h : s.Keyed) (hl : s.Arranges l)
    (hperm : (placed ++ waiting).Perm s.tableNames) : ∃ o, s.orderFrom placed waiting = .ok o := by
  fun_induction orderFrom s placed waiting with
  | case1 placed => exact ⟨placed, rfl⟩
  | case2 placed name rest r hlt ih =>
    exact ih ((perm_pass placed (name :: rest)).trans hperm)
  | case3 placed name rest r hnlt =>
    obtain ⟨n, hn, hready⟩ := hl.exists_isReady h hperm (by simp)
    exact absurd hready (not_isReady_of_pass hnlt n hn)

/-- The passes that end without an order say so. -/
theorem orderFrom_error {placed waiting : List String} {f : Failure}
    (h : s.orderFrom placed waiting = .error f) : ∃ w, f = .unresolvableOrder w := by
  fun_induction orderFrom s placed waiting with
  | case1 => simp at h
  | case2 placed name rest r hlt ih => exact ih h
  | case3 =>
    injection h with h
    exact ⟨_, h.symm⟩

/-- The creation order of a keyed schema arranges its tables. -/
theorem Keyed.arranges_of_order (h : s.Keyed) {o : List String} (ho : s.order = .ok o) :
    s.Arranges o := by
  rw [h.arranges_iff]
  simpa using settled_of_orderFrom settled_nil ho

/-- In an arrangement, a table stands after its foreign tables. -/
theorem Arranges.idxOf_lt {l : List String} (hl : s.Arranges l) {name : String} {t : Table}
    (ht : s.table? name = some t) {r : Relationship} (hr : r ∈ t.relationships) :
    r.foreignTable = name ∨ l.idxOf r.foreignTable < l.idxOf name := by
  have hmem : name ∈ l := hl.1.mem_iff.2 (mem_tableNames_iff.2 ⟨t, ht⟩)
  obtain ⟨before, after, hsplit⟩ := List.append_of_mem hmem
  refine (hl.2 before name after hsplit t ht r hr).imp id fun hbefore => ?_
  have hnd : (before ++ name :: after).Nodup := hsplit ▸ hl.1.nodup_iff.2 s.nodup_tableNames
  have hnot : name ∉ before := fun hn => (List.nodup_append.1 hnd).2.2 name hn name (by simp) rfl
  rw [hsplit, List.idxOf_append, if_pos hbefore, List.idxOf_append, if_neg hnot]
  exact Nat.lt_add_left _ (List.idxOf_lt_length_of_mem hbefore)

/-! ### Tables in a settled order -/

/-- A pass over a settled row places every name where it stands. -/
theorem pass_of_settled {placed waiting : List String} (h : s.Settled (placed ++ waiting)) :
    s.pass placed waiting = (placed ++ waiting, []) := by
  induction waiting generalizing placed with
  | nil => rw [pass, List.append_nil]
  | cons name rest ih =>
    have hready : s.isReady placed name = true := h placed name rest rfl
    rw [pass, if_pos hready, ih (by rwa [List.append_assoc]), List.append_assoc]
    rfl

/-- **Tables in a settled order keep it.** -/
theorem order_of_settled (h : s.Settled s.tableNames) : s.order = .ok s.tableNames := by
  have hpass : s.pass [] s.tableNames = (s.tableNames, []) := pass_of_settled h
  rw [order]
  cases hnames : s.tableNames with
  | nil => rw [orderFrom]
  | cons name rest =>
    rw [hnames] at hpass
    rw [orderFrom, hpass, if_pos (by simp), orderFrom]

/-! ### Soundness and completeness -/

/-- **The creation order is sound and complete.** For a keyed schema the passes end, either with
an order or with the tables that cannot be placed, and they end with an order exactly if some
arrangement of all tables puts every foreign table before the tables that refer to it. An order
that they give has every table once and nothing else, and every relationship targets its own table
or one that stands strictly earlier. -/
theorem order_sound_complete (h : s.Keyed) :
    ((∃ o, s.order = .ok o) ∨ ∃ w, s.order = .error (.unresolvableOrder w)) ∧
    ((∃ o, s.order = .ok o) ↔ ∃ l, s.Arranges l) ∧
    ∀ o, s.order = .ok o →
      o.Nodup ∧ (∀ name, name ∈ o ↔ name ∈ s.tableNames) ∧
      ∀ t ∈ s.tables.values, ∀ r ∈ t.relationships,
        r.foreignTable = t.name ∨ o.idxOf r.foreignTable < o.idxOf t.name := by
  refine ⟨?_, ⟨?_, ?_⟩, ?_⟩
  · cases ho : s.order with
    | ok o => exact Or.inl ⟨o, rfl⟩
    | error f =>
      obtain ⟨w, rfl⟩ := orderFrom_error ho
      exact Or.inr ⟨w, rfl⟩
  · rintro ⟨o, ho⟩
    exact ⟨o, h.arranges_of_order ho⟩
  · rintro ⟨l, hl⟩
    exact exists_orderFrom h hl (by simp)
  · intro o ho
    have hl : s.Arranges o := h.arranges_of_order ho
    refine ⟨hl.1.nodup_iff.2 s.nodup_tableNames, fun name => hl.1.mem_iff, ?_⟩
    intro t ht r hr
    exact hl.idxOf_lt (h.table?_name ht) hr

/-- Two tables, created in the wrong order: users belong to teams, and a team may have a parent
team. -/
def usersAndTeams : Schema where
  tables := Dict.ofList
    [("users", { name := "users", relationships := [⟨"team_id", "id", "teams", none, none⟩] }),
     ("teams", { name := "teams", relationships := [⟨"parent_id", "id", "teams", none, none⟩] })]

/-- The order of users and teams is the one with teams first, and it arranges them. -/
theorem usersAndTeams_order :
    usersAndTeams.Keyed ∧ usersAndTeams.order = .ok ["teams", "users"] ∧
      (∃ l, usersAndTeams.Arranges l) ∧
      ∀ t ∈ usersAndTeams.tables.values, ∀ r ∈ t.relationships, r.foreignTable = t.name ∨
        ["teams", "users"].idxOf r.foreignTable < ["teams", "users"].idxOf t.name := by
  have hkeyed : usersAndTeams.Keyed := by decide
  -- The users wait for the first pass to place the teams.
  have hfirst : usersAndTeams.pass [] ["users", "teams"] = (["teams"], ["users"]) := by decide
  have hsecond : usersAndTeams.pass ["teams"] ["users"] = (["teams", "users"], []) := by decide
  have hnames : usersAndTeams.tableNames = ["users", "teams"] := by decide
  have horder : usersAndTeams.order = .ok ["teams", "users"] := by
    rw [order, hnames, orderFrom, hfirst]
    rw [if_pos (by decide), orderFrom, hsecond]
    rw [if_pos (by decide), orderFrom]
  obtain ⟨-, hiff, hsound⟩ := order_sound_complete hkeyed
  exact ⟨hkeyed, horder, hiff.1 ⟨_, horder⟩, (hsound _ horder).2.2⟩

end Schema

end SchemaHistory

import SchemaHistory.Proofs.CreationOrder

/-!
# Tables that no order can place

If no order exists, then the passes of `SchemaHistory.Schema.order` end with some tables that still
wait, and the failure says what each of them waits for. The answer does not depend on how the
passes went. There is a least set of tables that contains every table all of whose foreign tables,
other than itself, are in the set, the **placeable** ones (`SchemaHistory.Schema.Placeable`). The
passes place just these.

* *They place no other table*, since a pass adds a table only when everything it depends on has
  been placed (`SchemaHistory.Schema.placeable_pass`).
* *They leave none of them out.* Where a pass has placed nothing, the placed tables contain every
  table all of whose foreign tables are among them. So they contain the least set of this kind
  (`SchemaHistory.Schema.Stuck.mem_placed_of_placeable`).

What is reported is therefore exact: the tables that are not placeable, each with those of its
foreign tables that are not placeable either. A table may be among them because it is on a cycle,
because a foreign table of it is missing, or only because it comes behind such a table. An order
exists exactly if all tables are placeable (`SchemaHistory.Schema.Keyed.exists_order_iff`), which
says nothing about the order of the tables in the schema.
-/

namespace SchemaHistory

namespace Schema

/-- The **placeable** tables of a schema are the least set that contains every table all of whose
foreign tables, other than itself, are in the set. -/
inductive Placeable (s : Schema) : String → Prop
  /-- A table is placeable if each of its foreign tables, other than itself, is placeable. -/
  | intro {name : String} {t : Table} (ht : s.table? name = some t)
      (hforeign : ∀ d ∈ t.foreignTables, d ≠ name → Placeable s d) : Placeable s name

/-- What a table that is not placeable is **reported** to wait for: those of its foreign tables
that are not placeable, without itself. -/
structure Reports (s : Schema) (x : WaitingTable) (t : Table) : Prop where
  /-- There is something to wait for. -/
  nonempty : x.waitingOn ≠ []
  /-- Nothing is named twice. -/
  nodup : x.waitingOn.Nodup
  mem_iff : ∀ d, d ∈ x.waitingOn ↔ d ∈ t.foreignTables ∧ d ≠ t.name ∧ ¬s.Placeable d
  /-- The names come in the order of the relationships, each where it is first referred to. -/
  inOrder : x.waitingOn.Pairwise fun d e => t.foreignTables.idxOf d < t.foreignTables.idxOf e

variable {s : Schema} {placed waiting : List String} {name : String}

/-! ### The passes as they go -/

/-- How far the passes have come: some tables are placed, and the others wait in the order of the
schema. -/
structure Progress (s : Schema) (placed waiting : List String) : Prop where
  perm : (placed ++ waiting).Perm s.tableNames
  sublist : waiting.Sublist s.tableNames
  placeable : ∀ n ∈ placed, s.Placeable n

theorem progress_nil (s : Schema) : s.Progress [] s.tableNames :=
  ⟨.refl _, .refl _, by simp⟩

theorem sublist_pass (placed waiting : List String) :
    (s.pass placed waiting).2.Sublist waiting := by
  induction waiting generalizing placed with
  | nil => exact .refl _
  | cons name rest ih =>
    rw [pass]
    split
    · exact (ih _).cons _
    · exact (ih _).cons_cons _

/-- **A pass places only placeable tables.** -/
theorem placeable_pass (h : s.Keyed) (hplaced : ∀ n ∈ placed, s.Placeable n)
    (hwaiting : ∀ n ∈ waiting, n ∈ s.tableNames) :
    ∀ n ∈ (s.pass placed waiting).1, s.Placeable n := by
  induction waiting generalizing placed with
  | nil => exact hplaced
  | cons name rest ih =>
    obtain ⟨hname, hrest⟩ := List.forall_mem_cons.1 hwaiting
    rw [pass]
    split
    · rename_i hready
      obtain ⟨t, ht⟩ := mem_tableNames_iff.1 hname
      have hforeign := (h.isReady_iff_of_table? ht).1 hready
      refine ih ?_ hrest
      intro n hn
      rcases List.mem_append.1 hn with hn | hn
      · exact hplaced n hn
      · rw [List.mem_singleton.1 hn]
        exact .intro ht fun d hd hne => hplaced d (hforeign d hd hne)
    · exact ih hplaced hrest

theorem Progress.pass (h : s.Keyed) (hp : s.Progress placed waiting) :
    s.Progress (s.pass placed waiting).1 (s.pass placed waiting).2 where
  perm := (perm_pass placed waiting).trans hp.perm
  sublist := (sublist_pass placed waiting).trans hp.sublist
  placeable := placeable_pass h hp.placeable fun _ hn => hp.sublist.subset hn

/-! ### Where the passes stop -/

/-- The passes are **stuck** if tables wait and none of them is ready. -/
structure Stuck (s : Schema) (placed waiting : List String) : Prop extends
    s.Progress placed waiting where
  nonempty : waiting ≠ []
  not_isReady : ∀ n ∈ waiting, ¬s.isReady placed n = true

/-- A pass that finds no table ready leaves everything as it is. -/
theorem pass_of_not_isReady (h : ∀ n ∈ waiting, ¬s.isReady placed n = true) :
    s.pass placed waiting = (placed, waiting) := by
  induction waiting with
  | nil => rfl
  | cons name rest ih =>
    obtain ⟨hname, hrest⟩ := List.forall_mem_cons.1 h
    rw [Schema.pass, if_neg hname, ih hrest]

/-- Passes that are stuck have left no placeable table out. -/
theorem Stuck.mem_placed_of_placeable (hs : s.Stuck placed waiting) (h : s.Keyed)
    (hname : s.Placeable name) : name ∈ placed := by
  -- The placed tables are closed under the rule by which `Placeable` is the least set.
  induction hname with
  | @intro name t ht _ ih =>
    have hmem : name ∈ placed ++ waiting := hs.perm.mem_iff.2 (mem_tableNames_iff.2 ⟨t, ht⟩)
    refine (List.mem_append.1 hmem).resolve_right fun hwaits => ?_
    exact hs.not_isReady name hwaits ((h.isReady_iff_of_table? ht).2 ih)

/-- **Passes that are stuck have placed just the placeable tables.** -/
theorem Stuck.mem_placed_iff (hs : s.Stuck placed waiting) (h : s.Keyed) :
    name ∈ placed ↔ s.Placeable name :=
  ⟨hs.placeable name, hs.mem_placed_of_placeable h⟩

theorem Stuck.mem_waiting_iff (hs : s.Stuck placed waiting) (h : s.Keyed) :
    name ∈ waiting ↔ name ∈ s.tableNames ∧ ¬s.Placeable name := by
  have hnodup : (placed ++ waiting).Nodup := hs.perm.nodup_iff.2 s.nodup_tableNames
  rw [← hs.mem_placed_iff h, ← hs.perm.mem_iff, List.mem_append]
  constructor
  · exact fun hw => ⟨Or.inr hw, fun hp => (List.nodup_append.1 hnodup).2.2 _ hp _ hw rfl⟩
  · rintro ⟨hmem, hp⟩
    exact hmem.resolve_left hp

/-- Passes that end with an order have placed every table. -/
theorem placeable_of_orderFrom (h : s.Keyed) (hp : s.Progress placed waiting) {o : List String}
    (ho : s.orderFrom placed waiting = .ok o) : ∀ n ∈ s.tableNames, s.Placeable n := by
  fun_induction orderFrom s placed waiting with
  | case1 placed =>
    intro n hn
    exact hp.placeable n (by simpa using hp.perm.mem_iff.2 hn)
  | case2 placed name rest r hlt ih => exact ih (hp.pass h) ho
  | case3 => simp at ho

/-- Passes that end without an order are stuck, and report what waits then. -/
theorem stuck_of_orderFrom (h : s.Keyed) (hp : s.Progress placed waiting) {f : Failure}
    (hf : s.orderFrom placed waiting = .error f) : ∃ placed' waiting',
      s.Stuck placed' waiting' ∧
        f = .unresolvableOrder (waiting'.filterMap (s.waiting? placed')) := by
  fun_induction orderFrom s placed waiting with
  | case1 => simp at hf
  | case2 placed name rest r hlt ih => exact ih (hp.pass h) hf
  | case3 placed name rest r hnlt =>
    have hready := not_isReady_of_pass hnlt
    have hr : r = (placed, name :: rest) := pass_of_not_isReady hready
    rw [hr] at hf
    injection hf with hf
    exact ⟨placed, name :: rest, ⟨hp, by simp, hready⟩, hf.symm⟩

/-- **An order exists exactly if every table is placeable.** -/
theorem Keyed.exists_order_iff (h : s.Keyed) :
    (∃ o, s.order = .ok o) ↔ ∀ n ∈ s.tableNames, s.Placeable n := by
  constructor
  · rintro ⟨o, ho⟩
    exact placeable_of_orderFrom h (progress_nil s) ho
  · intro hall
    cases ho : s.order with
    | ok o => exact ⟨o, rfl⟩
    | error f =>
      obtain ⟨placed, waiting, hs, -⟩ := stuck_of_orderFrom h (progress_nil s) ho
      obtain ⟨n, hn⟩ := List.exists_mem_of_ne_nil _ hs.nonempty
      obtain ⟨hmem, hnot⟩ := (hs.mem_waiting_iff h).1 hn
      exact absurd (hall n hmem) hnot

/-! ### Distinct names in their order -/

theorem mem_distinctAfter {seen l : List String} {d : String} :
    d ∈ distinctAfter seen l ↔ d ∈ l ∧ d ∉ seen := by
  fun_induction distinctAfter seen l with
  | case1 => simp
  | case2 seen a rest hseen ih =>
    rw [List.contains_eq_mem, decide_eq_true_eq] at hseen
    rw [ih, List.mem_cons]
    constructor
    · exact fun ⟨hd, hnot⟩ => ⟨Or.inr hd, hnot⟩
    · rintro ⟨rfl | hd, hnot⟩
      · exact absurd hseen hnot
      · exact ⟨hd, hnot⟩
  | case3 seen a rest hseen ih =>
    rw [List.contains_eq_mem, decide_eq_true_eq] at hseen
    rw [List.mem_cons, List.mem_cons, ih, List.mem_cons, not_or]
    by_cases hda : d = a
    · subst hda
      simp [hseen]
    · simp [hda]

/-- Names keep their order behind one that is none of them. -/
theorem pairwise_idxOf_cons {l m : List String} {a : String} (hne : ∀ d ∈ m, d ≠ a)
    (h : m.Pairwise fun d e => l.idxOf d < l.idxOf e) :
    m.Pairwise fun d e => (a :: l).idxOf d < (a :: l).idxOf e := by
  refine h.imp_of_mem fun hd he hlt => ?_
  rw [List.idxOf_cons, List.idxOf_cons, beq_false_of_ne (hne _ hd).symm,
    beq_false_of_ne (hne _ he).symm]
  exact Nat.succ_lt_succ hlt

/-- Names at different places are different. -/
theorem nodup_of_pairwise_idxOf {l m : List String}
    (h : m.Pairwise fun d e => l.idxOf d < l.idxOf e) : m.Nodup := by
  refine h.imp fun {d e} hlt heq => ?_
  rw [heq] at hlt
  exact Nat.lt_irrefl _ hlt

/-- Distinct members of a list come in the order of their first places, whichever members are
left out. -/
theorem pairwise_distinctAfter (p : String → Bool) (seen l : List String) :
    (distinctAfter seen (l.filter p)).Pairwise fun d e => l.idxOf d < l.idxOf e := by
  induction l generalizing seen with
  | nil => exact .nil
  | cons a rest ih =>
    by_cases hp : p a
    · rw [List.filter_cons_of_pos hp, distinctAfter]
      split
      · rename_i hseen
        refine pairwise_idxOf_cons (fun d hd hda => ?_) (ih seen)
        subst hda
        exact (mem_distinctAfter.1 hd).2 (by simpa using hseen)
      · have hne : ∀ d ∈ distinctAfter (a :: seen) (rest.filter p), d ≠ a := by
          rintro d hd rfl
          exact (mem_distinctAfter.1 hd).2 List.mem_cons_self
        refine List.pairwise_cons.2 ⟨fun d hd => ?_, pairwise_idxOf_cons hne (ih (a :: seen))⟩
        rw [List.idxOf_cons_self, List.idxOf_cons, beq_false_of_ne (hne d hd).symm]
        exact Nat.succ_pos _
    · rw [List.filter_cons_of_neg hp]
      refine pairwise_idxOf_cons (fun d hd hda => hp ?_) (ih seen)
      exact hda ▸ (List.mem_filter.1 (mem_distinctAfter.1 hd).1).2

/-! ### What is reported -/

/-- A table that is not placeable depends on another one that is not. -/
theorem exists_not_placeable {t : Table} (ht : s.table? name = some t)
    (hname : ¬s.Placeable name) : ∃ d ∈ t.foreignTables, d ≠ name ∧ ¬s.Placeable d := by
  refine Classical.byContradiction fun hnone => hname (.intro ht fun d hd hne => ?_)
  exact Classical.byContradiction fun hnot => hnone ⟨d, hd, hne, hnot⟩

/-- **What a waiting table is reported with is exact**, if the passes are stuck. -/
theorem Stuck.reports (hs : s.Stuck placed waiting) (h : s.Keyed) (hname : name ∈ waiting)
    {t : Table} (ht : s.table? name = some t) :
    s.Reports ⟨t.name, distinctAfter [] (t.dependencies.filter fun d => !placed.contains d)⟩ t := by
  have hmem : ∀ d, d ∈ distinctAfter [] (t.dependencies.filter fun d => !placed.contains d) ↔
      d ∈ t.foreignTables ∧ d ≠ t.name ∧ ¬s.Placeable d := by
    intro d
    rw [mem_distinctAfter, ← hs.mem_placed_iff h, Table.dependencies, List.filter_filter,
      List.mem_filter, and_iff_left List.not_mem_nil]
    simp [Table.foreignTables, and_comm]
  have horder := pairwise_distinctAfter
    (fun d => !placed.contains d && (d != t.name)) [] t.foreignTables
  rw [← List.filter_filter] at horder
  obtain ⟨d, hd, hne, hnot⟩ := exists_not_placeable ht ((hs.mem_waiting_iff h).1 hname).2
  exact {
    nonempty := List.ne_nil_of_mem ((hmem d).2 ⟨hd, h.name_eq ht ▸ hne, hnot⟩)
    nodup := nodup_of_pairwise_idxOf horder
    mem_iff := hmem
    inOrder := horder }

/-- The report names the waiting tables. -/
theorem map_table_waiting? (h : s.Keyed) (placed : List String)
    (hwaiting : ∀ n ∈ waiting, n ∈ s.tableNames) :
    (waiting.filterMap (s.waiting? placed)).map (·.table) = waiting := by
  refine Eq.trans ?_ (h.map_name_filterMap hwaiting)
  rw [List.map_filterMap, List.map_filterMap]
  simp only [waiting?, Option.map_map, Function.comp_def]

/-- **The report of a failure is exact.** If no order is found, then the failure lists the tables
that are not placeable, in the order of the schema and each once. Every one of them is reported
with those of its foreign tables, other than itself, that are not placeable: there is one at least,
each is named once, and they come in the order of the relationships. Whatever is waited for is
missing from the schema or is listed itself. -/
theorem order_error_exact (h : s.Keyed) {f : Failure} (hf : s.order = .error f) :
    ∃ w, f = .unresolvableOrder w ∧
      ((w.map (·.table)).Sublist s.tableNames ∧ (w.map (·.table)).Nodup ∧
        ∀ name, name ∈ w.map (·.table) ↔ name ∈ s.tableNames ∧ ¬s.Placeable name) ∧
      ∀ x ∈ w, ∃ t, s.table? x.table = some t ∧ s.Reports x t ∧
        ∀ d ∈ x.waitingOn, d ∉ s.tableNames ∨ d ∈ w.map (·.table) := by
  obtain ⟨placed, waiting, hs, rfl⟩ := stuck_of_orderFrom h (progress_nil s) hf
  have hnames := map_table_waiting? h placed fun n hn => hs.sublist.subset hn
  refine ⟨_, rfl, ?_, fun x hx => ?_⟩
  · rw [hnames]
    exact ⟨hs.sublist, hs.sublist.nodup s.nodup_tableNames, fun name => hs.mem_waiting_iff h⟩
  · obtain ⟨name, hname, hx⟩ := List.mem_filterMap.1 hx
    obtain ⟨t, ht, rfl⟩ := Option.map_eq_some_iff.1 hx
    have hreports := hs.reports h hname ht
    refine ⟨t, (h.name_eq ht).symm ▸ ht, hreports, fun d hd => ?_⟩
    rw [hnames, hs.mem_waiting_iff h]
    by_cases hmem : d ∈ s.tableNames
    · exact Or.inr ⟨hmem, ((hreports.mem_iff d).1 hd).2.2⟩
    · exact Or.inl hmem

/-- Tables that cannot all be placed. Orders and bills refer to each other, a note refers to an
order, posts refer twice to authors that the schema does not have, and users and teams are no
obstacle. -/
def entangledTables : Schema where
  tables := Dict.ofList
    [("notes", { name := "notes", relationships := [⟨"order_id", "id", "orders", none, none⟩] }),
     ("users", { name := "users", relationships := [⟨"team_id", "id", "teams", none, none⟩] }),
     ("orders", {
        name := "orders"
        relationships := [⟨"user_id", "id", "users", none, none⟩,
          ⟨"bill_id", "id", "bills", none, none⟩, ⟨"next_id", "id", "orders", none, none⟩] }),
     ("teams", { name := "teams" }),
     ("bills", { name := "bills", relationships := [⟨"order_id", "id", "orders", none, none⟩] }),
     ("posts", {
        name := "posts"
        relationships := [⟨"author_id", "id", "authors", none, none⟩,
          ⟨"order_id", "id", "orders", none, none⟩,
          ⟨"editor_id", "id", "authors", none, none⟩] })]

/-- The report on the entangled tables. -/
def entangledReport : List WaitingTable :=
  [⟨"notes", ["orders"]⟩, ⟨"orders", ["bills"]⟩, ⟨"bills", ["orders"]⟩,
    ⟨"posts", ["authors", "orders"]⟩]

/-- Users and teams are placed, all others are reported. -/
theorem order_error_exact_entangledTables :
    entangledTables.Keyed ∧
      entangledTables.order = .error (.unresolvableOrder entangledReport) ∧
      (∀ name, name ∈ ["notes", "orders", "bills", "posts"] ↔
        name ∈ entangledTables.tableNames ∧ ¬entangledTables.Placeable name) ∧
      ∀ x ∈ entangledReport, ∃ t, entangledTables.table? x.table = some t ∧
        entangledTables.Reports x t := by
  have hkeyed : entangledTables.Keyed := by decide
  have hnames : entangledTables.tableNames =
      ["notes", "users", "orders", "teams", "bills", "posts"] := by decide
  -- The users have to wait for the second pass, and the third one places nothing.
  have hfirst : entangledTables.pass [] ["notes", "users", "orders", "teams", "bills", "posts"] =
      (["teams"], ["notes", "users", "orders", "bills", "posts"]) := by decide
  have hsecond : entangledTables.pass ["teams"] ["notes", "users", "orders", "bills", "posts"] =
      (["teams", "users"], ["notes", "orders", "bills", "posts"]) := by decide
  have hthird : entangledTables.pass ["teams", "users"] ["notes", "orders", "bills", "posts"] =
      (["teams", "users"], ["notes", "orders", "bills", "posts"]) := by decide
  have hreport : ["notes", "orders", "bills", "posts"].filterMap
      (entangledTables.waiting? ["teams", "users"]) = entangledReport := by decide
  have horder : entangledTables.order = .error (.unresolvableOrder entangledReport) := by
    rw [order, hnames, orderFrom, hfirst]
    rw [if_pos (by decide), orderFrom, hsecond]
    rw [if_pos (by decide), orderFrom, hthird]
    rw [if_neg (by decide), hreport]
  obtain ⟨w, hw, ⟨-, -, hlisted⟩, hreports⟩ := order_error_exact hkeyed horder
  obtain rfl : entangledReport = w := Failure.unresolvableOrder.inj hw
  refine ⟨hkeyed, horder, hlisted, fun x hx => ?_⟩
  obtain ⟨t, ht, hx, -⟩ := hreports x hx
  exact ⟨t, ht, hx⟩

end Schema

end SchemaHistory

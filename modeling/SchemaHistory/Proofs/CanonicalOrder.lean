import SchemaHistory.Proofs.PlaceableTables

/-!
# The creation order is canonical

The passes of `SchemaHistory.Schema.order` change what is placed while they scan, so a table may be
placed behind another one of the same pass. All the same, their result has a closed form. Give every
table a **rank**: the first pass has rank one, and a table comes at the earliest in the pass of each
of its foreign tables, if it stands behind that one in the schema, and a pass later if it stands
before it. These conditions determine the ranks wherever an order exists
(`SchemaHistory.Schema.IsRanking`), and the order lists the tables by rank, and tables of the same
rank as they stand in the schema (`SchemaHistory.Schema.order_sorted_by_rank`).

The reason is that the pass of number `k` places just the tables of rank `k`
(`SchemaHistory.Schema.IsRanking.pass_eq`). While it scans the schema and comes to a table, the
tables that are placed are those of smaller rank, and of those of rank `k` the ones that stand
before the table. So what the table finds placed is exactly what its rank asks for
(`SchemaHistory.Schema.IsRanking.isReady_iff`).

A ranking exists, because the conditions can be applied over and over, starting anywhere. After as
many rounds as there are tables nothing changes any more, since in the order every rank is settled
one round after those that it depends on (`SchemaHistory.Schema.rankAfter_succ`).
-/

namespace SchemaHistory

namespace Schema

/-- One name stands **before** another in the schema. -/
def Before (s : Schema) (d name : String) : Prop :=
  s.tableNames.idxOf d < s.tableNames.idxOf name

instance (s : Schema) (d name : String) : Decidable (s.Before d name) :=
  inferInstanceAs (Decidable (_ < _))

/-- The least rank that a table may have with a foreign table: the rank of that one if it stands
before the table, else one more. -/
def rankBehind (s : Schema) (rank : String → Nat) (name d : String) : Nat :=
  if s.Before d name then rank d else rank d + 1

/-- The rank that a table takes from the ranks of its foreign tables, other than itself: the least
one that it may have with all of them, and one if there are none. -/
def rankFrom (s : Schema) (rank : String → Nat) (t : Table) : Nat :=
  ((t.foreignTables.filter (· != t.name)).map (s.rankBehind rank t.name)).foldr max 1

/-- A **ranking** gives every table the rank that it takes from those of its foreign tables. -/
def IsRanking (s : Schema) (rank : String → Nat) : Prop :=
  ∀ t ∈ s.tables.values, rank t.name = s.rankFrom rank t

instance (s : Schema) (rank : String → Nat) : Decidable (s.IsRanking rank) :=
  inferInstanceAs (Decidable (∀ t ∈ s.tables.values, rank t.name = s.rankFrom rank t))

/-- The ranks after some rounds, in each of which every table takes its rank anew. -/
def rankAfter (s : Schema) : Nat → String → Nat
  | 0, _ => 1
  | n + 1, name =>
    match s.table? name with
    | none => 1
    | some t => s.rankFrom (s.rankAfter n) t

/-- The **rank** of a table, after as many rounds as there are tables. -/
def rank (s : Schema) (name : String) : Nat :=
  s.rankAfter s.tableNames.length name

/-- A table **precedes** another one by rank, and by its place in the schema if the rank is the
same. -/
def Precedes (s : Schema) (rank : String → Nat) (a b : String) : Prop :=
  rank a < rank b ∨ rank a = rank b ∧ s.Before a b

variable {s : Schema} {rank rank' : String → Nat} {k : Nat} {name : String} {t : Table}
  {placed waiting : List String}

/-! ### Places in the schema -/

theorem pairwise_before (s : Schema) : s.tableNames.Pairwise s.Before := by
  refine List.pairwise_iff_getElem.2 fun i j hi hj hij => ?_
  rwa [Before, s.nodup_tableNames.idxOf_getElem i hi, s.nodup_tableNames.idxOf_getElem j hj]

/-- What stands before a table is what the schema lists before it. -/
theorem before_iff {front rest : List String} (h : s.tableNames = front ++ name :: rest)
    {d : String} : s.Before d name ↔ d ∈ front := by
  have hnot : name ∉ front := by
    have hnodup : (front ++ name :: rest).Nodup := h ▸ s.nodup_tableNames
    exact fun hmem => (List.nodup_append.1 hnodup).2.2 name hmem name List.mem_cons_self rfl
  rw [Before, h, List.idxOf_append, List.idxOf_append, if_neg hnot, List.idxOf_cons_self,
    Nat.zero_add]
  by_cases hd : d ∈ front
  · simpa [hd] using List.idxOf_lt_length_of_mem hd
  · simp [hd]

/-! ### Ranks -/

theorem rankBehind_le_iff {d : String} :
    s.rankBehind rank name d ≤ k ↔ rank d < k ∨ rank d = k ∧ s.Before d name := by
  rw [rankBehind]
  split <;> rename_i hbefore <;> simp only [hbefore, and_true, and_false, or_false] <;> omega

theorem foldr_max_le_iff {l : List Nat} : l.foldr max 1 ≤ k ↔ 1 ≤ k ∧ ∀ n ∈ l, n ≤ k := by
  induction l with
  | nil => simp
  | cons n l ih => rw [List.foldr_cons, Nat.max_le, ih, List.forall_mem_cons, and_left_comm]

theorem rankFrom_le_iff : s.rankFrom rank t ≤ k ↔
    1 ≤ k ∧ ∀ d ∈ t.foreignTables, d ≠ t.name → s.rankBehind rank t.name d ≤ k := by
  rw [rankFrom, foldr_max_le_iff, List.forall_mem_map]
  simp

/-- A rank depends on those of the foreign tables only. -/
theorem rankFrom_congr (h : ∀ d ∈ t.foreignTables, d ≠ t.name → rank d = rank' d) :
    s.rankFrom rank t = s.rankFrom rank' t := by
  rw [rankFrom, rankFrom]
  refine congrArg (List.foldr max 1) (List.map_congr_left fun d hd => ?_)
  obtain ⟨hmem, hne⟩ := List.mem_filter.1 hd
  rw [rankBehind, rankBehind, h d hmem (by simpa using hne)]

namespace IsRanking

theorem eq_rankFrom (hr : s.IsRanking rank) (h : s.Keyed) (ht : s.table? name = some t) :
    rank name = s.rankFrom rank t :=
  h.name_eq ht ▸ hr t (mem_values_of_table? ht)

/-- **Rankings agree** on what is placeable. -/
theorem eq_of_placeable (hr : s.IsRanking rank) (hr' : s.IsRanking rank') (h : s.Keyed)
    (hp : s.Placeable name) : rank name = rank' name := by
  induction hp with
  | @intro name t ht _ ih =>
    rw [hr.eq_rankFrom h ht, hr'.eq_rankFrom h ht]
    exact rankFrom_congr fun d hd hne => ih d hd (h.name_eq ht ▸ hne)

theorem pos (hr : s.IsRanking rank) (h : s.Keyed) (hname : name ∈ s.tableNames) :
    1 ≤ rank name := by
  obtain ⟨t, ht⟩ := mem_tableNames_iff.1 hname
  rw [hr.eq_rankFrom h ht]
  exact (rankFrom_le_iff.1 (Nat.le_refl _)).1

end IsRanking

/-- In an arrangement, a table stands after its foreign tables. -/
theorem Arranges.idxOf_foreign_lt {l : List String} (hl : s.Arranges l)
    (ht : s.table? name = some t) {d : String} (hd : d ∈ t.foreignTables) (hne : d ≠ name) :
    l.idxOf d < l.idxOf name := by
  obtain ⟨r, hr, rfl⟩ := List.mem_map.1 hd
  exact (hl.idxOf_lt ht hr).resolve_left hne

/-- **Ranks settle.** A table has its rank once there have been more rounds than tables before it
in an arrangement. -/
theorem rankAfter_succ (h : s.Keyed) {l : List String} (hl : s.Arranges l) {n : Nat}
    (hn : l.idxOf name < n) : s.rankAfter (n + 1) name = s.rankAfter n name := by
  induction n generalizing name with
  | zero => omega
  | succ n ih =>
    rw [rankAfter, rankAfter]
    cases ht : s.table? name with
    | none => rfl
    | some t =>
      refine rankFrom_congr fun d hd hne => ih ?_
      have hlt := hl.idxOf_foreign_lt ht hd (h.name_eq ht ▸ hne)
      omega

/-- **There is a ranking** if the tables can be arranged. -/
theorem isRanking_rank (h : s.Keyed) {l : List String} (hl : s.Arranges l) :
    s.IsRanking s.rank := by
  intro t ht
  have htable := h.table?_name ht
  have hn : l.idxOf t.name < s.tableNames.length := by
    rw [← hl.1.length_eq]
    exact List.idxOf_lt_length_of_mem (hl.1.mem_iff.2 (mem_tableNames_iff.2 ⟨t, htable⟩))
  have hsettled := rankAfter_succ h hl hn
  rw [rankAfter, htable] at hsettled
  exact hsettled.symm

/-! ### One pass -/

section Pass

variable (hr : s.IsRanking rank) (h : s.Keyed) (hall : ∀ n ∈ s.tableNames, s.Placeable n)

include hr h hall

/-- **A table is ready in the pass of its rank**, and in later ones: where a pass of number `k`
comes to it, the tables of smaller rank are placed, and those of rank `k` that stand before it. -/
theorem IsRanking.isReady_iff (hk : 1 ≤ k) (hname : name ∈ s.tableNames)
    (hplaced : ∀ d, d ∈ placed ↔
      d ∈ s.tableNames ∧ (rank d < k ∨ rank d = k ∧ s.Before d name)) :
    s.isReady placed name = true ↔ rank name ≤ k := by
  obtain ⟨t, ht⟩ := mem_tableNames_iff.1 hname
  rw [h.isReady_iff_of_table? ht, hr.eq_rankFrom h ht, rankFrom_le_iff, h.name_eq ht,
    and_iff_right hk]
  refine forall₃_congr fun d hd hne => ?_
  rw [hplaced, rankBehind_le_iff]
  refine and_iff_right ?_
  -- No foreign table is missing, since all of them are placeable.
  cases hall name hname with
  | intro ht' hforeign =>
    obtain rfl := Option.some.inj (ht.symm.trans ht')
    cases hforeign d hd hne with
    | intro hd' _ => exact mem_tableNames_iff.2 ⟨_, hd'⟩

/-- What a pass does from some point of the schema on, with the tables of its rank up to there
placed. -/
theorem IsRanking.pass_suffix (hk : 1 ≤ k)
    (hplaced : ∀ d, d ∈ placed ↔ d ∈ s.tableNames ∧ rank d < k) {front rest : List String}
    (hsplit : s.tableNames = front ++ rest) :
    s.pass (placed ++ front.filter (rank · = k)) (rest.filter (k ≤ rank ·)) =
      (placed ++ s.tableNames.filter (rank · = k), rest.filter (k + 1 ≤ rank ·)) := by
  induction rest generalizing front with
  | nil =>
    rw [hsplit, List.append_nil]
    rfl
  | cons name rest ih =>
    have hfront : ∀ d ∈ front, d ∈ s.tableNames := fun d hd => hsplit ▸ List.mem_append_left _ hd
    have hname : name ∈ s.tableNames := hsplit ▸ List.mem_append_right _ List.mem_cons_self
    have hready : s.isReady (placed ++ front.filter (rank · = k)) name = true ↔ rank name ≤ k := by
      refine hr.isReady_iff h hall hk hname fun d => ?_
      rw [List.mem_append, hplaced, List.mem_filter, before_iff hsplit, decide_eq_true_eq]
      constructor
      · rintro (⟨hd, hlt⟩ | ⟨hd, heq⟩)
        · exact ⟨hd, Or.inl hlt⟩
        · exact ⟨hfront d hd, Or.inr ⟨heq, hd⟩⟩
      · rintro ⟨hd, hlt | ⟨heq, hmem⟩⟩
        · exact Or.inl ⟨hd, hlt⟩
        · exact Or.inr ⟨hmem, heq⟩
    have hnext := @ih (front ++ [name]) (by rw [hsplit, List.append_assoc]; rfl)
    have hskip : rank name ≠ k →
        (front ++ [name]).filter (rank · = k) = front.filter (rank · = k) := fun hne => by
      rw [List.filter_append, List.filter_cons_of_neg (by simpa using hne), List.filter_nil,
        List.append_nil]
    -- The table was placed in an earlier pass, is placed now, or goes on waiting.
    rcases Nat.lt_trichotomy (rank name) k with hlt | heq | hgt
    · rw [hskip (Nat.ne_of_lt hlt)] at hnext
      rw [List.filter_cons_of_neg (by simpa using hlt), hnext,
        List.filter_cons_of_neg (by rw [decide_eq_true_eq]; omega)]
    · rw [List.filter_cons_of_pos (by simp [heq]), List.filter_cons_of_neg (by simp [heq]),
        Schema.pass, if_pos (hready.2 (Nat.le_of_eq heq)), ← hnext, List.filter_append,
        List.filter_cons_of_pos (by simp [heq]), List.filter_nil, List.append_assoc]
    · rw [hskip (Nat.ne_of_gt hgt)] at hnext
      rw [List.filter_cons_of_pos (by rw [decide_eq_true_eq]; omega),
        List.filter_cons_of_pos (by rw [decide_eq_true_eq]; omega), Schema.pass,
        if_neg (by rw [hready]; omega), hnext]

/-- **The pass of number `k` places the tables of rank `k`**, in the order of the schema. -/
theorem IsRanking.pass_eq (hk : 1 ≤ k)
    (hplaced : ∀ d, d ∈ placed ↔ d ∈ s.tableNames ∧ rank d < k) :
    s.pass placed (s.tableNames.filter (k ≤ rank ·)) =
      (placed ++ s.tableNames.filter (rank · = k), s.tableNames.filter (k + 1 ≤ rank ·)) := by
  have hpass := hr.pass_suffix h hall hk hplaced (List.nil_append s.tableNames).symm
  rwa [List.filter_nil, List.append_nil] at hpass

end Pass

/-! ### All passes -/

/-- The **stage** before the pass of number `k`: the tables of smaller rank are placed in their
order, and all others wait. -/
structure Stage (s : Schema) (rank : String → Nat) (k : Nat) (placed waiting : List String) :
    Prop where
  pos : 1 ≤ k
  mem_iff : ∀ d, d ∈ placed ↔ d ∈ s.tableNames ∧ rank d < k
  sorted : placed.Pairwise (s.Precedes rank)
  waiting_eq : waiting = s.tableNames.filter (k ≤ rank ·)

theorem IsRanking.stage_one (hr : s.IsRanking rank) (h : s.Keyed) :
    s.Stage rank 1 [] s.tableNames where
  pos := Nat.le_refl 1
  mem_iff d := by
    refine ⟨fun hd => absurd hd List.not_mem_nil, fun ⟨hd, hlt⟩ => ?_⟩
    have hpos := hr.pos h hd
    omega
  sorted := .nil
  waiting_eq := (List.filter_eq_self.2 fun d hd => by simpa using hr.pos h hd).symm

/-- Tables of one rank are in the order of the schema. -/
theorem pairwise_precedes_filter (rank : String → Nat) (k : Nat) :
    (s.tableNames.filter (rank · = k)).Pairwise (s.Precedes rank) := by
  refine (s.pairwise_before.filter _).imp_of_mem fun ha hb hbefore => Or.inr ⟨?_, hbefore⟩
  have hranka := (List.mem_filter.1 ha).2
  have hrankb := (List.mem_filter.1 hb).2
  simp only [decide_eq_true_eq] at hranka hrankb
  rw [hranka, hrankb]

theorem Stage.pass (hs : s.Stage rank k placed waiting) (hr : s.IsRanking rank) (h : s.Keyed)
    (hall : ∀ n ∈ s.tableNames, s.Placeable n) :
    s.Stage rank (k + 1) (s.pass placed waiting).1 (s.pass placed waiting).2 := by
  rw [hs.waiting_eq, hr.pass_eq h hall hs.pos hs.mem_iff]
  refine ⟨Nat.succ_pos k, fun d => ?_,
    List.pairwise_append.2 ⟨hs.sorted, pairwise_precedes_filter rank k, ?_⟩, rfl⟩
  · rw [List.mem_append, hs.mem_iff, List.mem_filter, decide_eq_true_eq, Nat.lt_succ_iff,
      Nat.le_iff_lt_or_eq, and_or_left]
  · intro a ha b hb
    have hranka := ((hs.mem_iff a).1 ha).2
    have hrankb := (List.mem_filter.1 hb).2
    simp only [decide_eq_true_eq] at hrankb
    exact Or.inl (by omega)

/-- **Passes that end with an order have sorted the tables by rank.** -/
theorem IsRanking.sorted_of_orderFrom (hr : s.IsRanking rank) (h : s.Keyed)
    (hall : ∀ n ∈ s.tableNames, s.Placeable n) (hs : ∃ k, s.Stage rank k placed waiting)
    {o : List String} (ho : s.orderFrom placed waiting = .ok o) :
    o.Pairwise (s.Precedes rank) := by
  fun_induction orderFrom s placed waiting with
  | case1 placed =>
    obtain ⟨k, hs⟩ := hs
    obtain rfl : placed = o := by simpa using ho
    exact hs.sorted
  | case2 placed name rest r hlt ih =>
    obtain ⟨k, hs⟩ := hs
    exact ih ⟨k + 1, hs.pass hr h hall⟩ ho
  | case3 => simp at ho

/-- **The creation order lists the tables by rank.** Let a keyed schema have a creation order. Then
its tables have ranks, each the largest of one and, for the foreign tables other than the table
itself, the rank of such a table if it stands before, or one more if it stands behind. There is only
one such ranking of the tables. The order lists all tables by increasing rank, and within one rank
as they stand in the schema. In particular, tables that stand behind all their foreign tables
already keep their order. -/
theorem order_sorted_by_rank (h : s.Keyed) :
    (∀ o, s.order = .ok o →
      s.IsRanking s.rank ∧
      (∀ rank, s.IsRanking rank → ∀ name ∈ s.tableNames, rank name = s.rank name) ∧
      o.Perm s.tableNames ∧ o.Pairwise (s.Precedes s.rank)) ∧
    (s.Arranges s.tableNames → s.order = .ok s.tableNames) := by
  refine ⟨fun o ho => ?_, fun hl => order_of_settled (h.arranges_iff.1 hl).2⟩
  have hl : s.Arranges o := h.arranges_of_order ho
  have hall := h.exists_order_iff.1 ⟨o, ho⟩
  have hr := isRanking_rank h hl
  exact ⟨hr, fun rank' hr' name hname => hr'.eq_of_placeable hr h (hall name hname), hl.1,
    hr.sorted_of_orderFrom h hall ⟨1, hr.stage_one h⟩ ho⟩

/-- Tables of two ranks: notes stand before the users they belong to, users stand behind their
teams, and logs are about notes. -/
def loggedNotes : Schema where
  tables := Dict.ofList
    [("notes", { name := "notes", relationships := [⟨"user_id", "id", "users", none, none⟩] }),
     ("teams", { name := "teams" }),
     ("users", { name := "users", relationships := [⟨"team_id", "id", "teams", none, none⟩,
        ⟨"boss_id", "id", "users", none, none⟩] }),
     ("logs", { name := "logs", relationships := [⟨"note_id", "id", "notes", none, none⟩] })]

/-- The users are placed in the pass of their teams, and the logs in the pass of their notes. -/
theorem order_sorted_by_rank_loggedNotes :
    loggedNotes.Keyed ∧ loggedNotes.order = .ok ["teams", "users", "notes", "logs"] ∧
      loggedNotes.IsRanking loggedNotes.rank ∧
      ["teams", "users", "notes", "logs"].map loggedNotes.rank = [1, 1, 2, 2] ∧
      ["teams", "users", "notes", "logs"].Pairwise (loggedNotes.Precedes loggedNotes.rank) := by
  have hkeyed : loggedNotes.Keyed := by decide
  have hnames : loggedNotes.tableNames = ["notes", "teams", "users", "logs"] := by decide
  have hfirst : loggedNotes.pass [] ["notes", "teams", "users", "logs"] =
      (["teams", "users"], ["notes", "logs"]) := by decide
  have hsecond : loggedNotes.pass ["teams", "users"] ["notes", "logs"] =
      (["teams", "users", "notes", "logs"], []) := by decide
  have horder : loggedNotes.order = .ok ["teams", "users", "notes", "logs"] := by
    rw [order, hnames, orderFrom, hfirst]
    rw [if_pos (by decide), orderFrom, hsecond]
    rw [if_pos (by decide), orderFrom]
  obtain ⟨hranking, -, -, hsorted⟩ := (order_sorted_by_rank hkeyed).1 _ horder
  exact ⟨hkeyed, horder, hranking, by decide +kernel, hsorted⟩

end Schema

end SchemaHistory

import SchemaHistory.Proofs.FolderRuns

/-!
# The order of script names

The scripts of a squash are carried out in the order of their names, so the names have to restore
the creation order. A name starts with the date, which is the same for all scripts of a run, and the
place of the table, filled up to six digits. Rows of equally many digits compare from the left as
their numbers do, so the first difference of two names is a digit
(`SchemaHistory.digitBefore_scriptFileName`), and the names of the tables, which may be any text,
never count. A digit is one byte, so it does not matter whether characters or bytes are compared.

Six digits number a million scripts. Beyond that the names are still different
(`SchemaHistory.index_of_scriptFileName_eq`), but a place of seven digits comes before one of six.
-/

namespace SchemaHistory

open Files
open Nat (toDigits ofDigitChars)

/-- The bytes of a text in **UTF-8**. -/
def Text.utf8 (s : String) : List UInt8 :=
  s.toUTF8.data.toList

/-! ### Texts that differ in a digit first -/

/-- That a text comes **before** another one **by a digit**: behind a common beginning stands a
smaller digit. -/
def DigitBefore (s t : List Char) : Prop :=
  ∃ (common rest rest' : List Char) (c d : Char), s = common ++ c :: rest ∧
    t = common ++ d :: rest' ∧ c.isDigit = true ∧ d.isDigit = true ∧ c < d

namespace DigitBefore

variable {s t : List Char}

/-- What stands around the two texts does not matter, if it is the same in front of them. -/
theorem append (h : DigitBefore s t) (start u v : List Char) :
    DigitBefore (start ++ s ++ u) (start ++ t ++ v) := by
  obtain ⟨common, rest, rest', c, d, rfl, rfl, hc, hd, hlt⟩ := h
  exact ⟨start ++ common, rest ++ u, rest' ++ v, c, d, by simp, by simp, hc, hd, hlt⟩

theorem cons (h : DigitBefore s t) (c : Char) : DigitBefore (c :: s) (c :: t) := by
  simpa using h.append [c] [] []

/-- A text that comes before another one by a digit is smaller. -/
theorem lt {a b : String} (h : DigitBefore a.toList b.toList) : a < b := by
  obtain ⟨common, rest, rest', c, d, ha, hb, -, -, hlt⟩ := h
  rw [String.lt_iff, ha, hb]
  exact List.append_left_lt (List.cons_lt_cons_iff.2 (Or.inl hlt))

end DigitBefore

theorem Text.utf8_ofList (s : List Char) :
    utf8 (String.ofList s) = s.flatMap String.utf8EncodeChar := by
  simp [utf8, List.utf8Encode]

/-- A digit is one byte. -/
theorem utf8EncodeChar_of_isDigit {c : Char} (h : c.isDigit = true) :
    String.utf8EncodeChar c = [c.toUInt8] := by
  have hle : c.val.toNat ≤ 127 := Nat.le_trans (Char.isDigit_iff_toNat.1 h).2 (by decide)
  refine String.utf8EncodeChar_eq_singleton ?_
  rw [Char.utf8Size, if_pos (UInt32.le_iff_toNat_le.2 hle)]

theorem toUInt8_lt_of_isDigit {c d : Char} (hd : d.isDigit = true) (h : c < d) :
    c.toUInt8 < d.toUInt8 := by
  have hle : d.toNat ≤ 57 := (Char.isDigit_iff_toNat.1 hd).2
  have hlt : c.toNat < d.toNat := UInt32.lt_iff_toNat_lt.1 h
  have hc : c.toUInt8.toNat = c.toNat % 256 := rfl
  have hd' : d.toUInt8.toNat = d.toNat % 256 := rfl
  rw [UInt8.lt_iff_toNat_lt]
  omega

/-- A text that comes before another one by a digit is smaller, also in bytes. -/
theorem DigitBefore.utf8_lt {a b : String} (h : DigitBefore a.toList b.toList) :
    Text.utf8 a < Text.utf8 b := by
  obtain ⟨common, rest, rest', c, d, ha, hb, hc, hd, hlt⟩ := h
  rw [← String.ofList_toList (s := a), ← String.ofList_toList (s := b), ha, hb, Text.utf8_ofList,
    Text.utf8_ofList, List.flatMap_append, List.flatMap_append, List.flatMap_cons,
    List.flatMap_cons, utf8EncodeChar_of_isDigit hc, utf8EncodeChar_of_isDigit hd]
  exact List.append_left_lt (List.cons_lt_cons_iff.2 (Or.inl (toUInt8_lt_of_isDigit hd hlt)))

/-! ### Numbers filled up with zeros -/

/-- The number of a row of digits, by its first digit. -/
theorem ofDigitChars_cons_eq (c : Char) (s : List Char) :
    ofDigitChars 10 (c :: s) 0 = Nat.pow 10 s.length * (c.toNat - 48) + ofDigitChars 10 s 0 := by
  rw [Nat.ofDigitChars_cons, Nat.ofDigitChars_eq_ofDigitChars_zero, Nat.mul_zero, Nat.zero_add]
  rfl

theorem ofDigitChars_lt {s : List Char} (h : ∀ c ∈ s, c.isDigit = true) :
    ofDigitChars 10 s 0 < Nat.pow 10 s.length := by
  induction s with
  | nil => exact Nat.one_pos
  | cons c s ih =>
    have hs := ih fun d hd => h d (List.mem_cons_of_mem c hd)
    have hc : c.toNat ≤ 57 := (Char.isDigit_iff_toNat.1 (h c List.mem_cons_self)).2
    have hdigit := Nat.mul_le_mul_left (Nat.pow 10 s.length) (show c.toNat - 48 ≤ 9 by omega)
    have hpow : Nat.pow 10 (s.length + 1) = Nat.pow 10 s.length * 10 := rfl
    rw [ofDigitChars_cons_eq, List.length_cons, hpow]
    omega

/-- **Rows of equally many digits compare as their numbers do.** -/
theorem digitBefore_of_ofDigitChars_lt {s t : List Char} (hlength : s.length = t.length)
    (hs : ∀ c ∈ s, c.isDigit = true) (ht : ∀ c ∈ t, c.isDigit = true)
    (h : ofDigitChars 10 s 0 < ofDigitChars 10 t 0) : DigitBefore s t := by
  induction s generalizing t with
  | nil =>
    obtain rfl : t = [] := List.eq_nil_of_length_eq_zero hlength.symm
    exact absurd h (Nat.lt_irrefl _)
  | cons c s ih =>
    obtain ⟨d, t, rfl⟩ := List.exists_cons_of_length_eq_add_one hlength.symm
    have hc := hs c List.mem_cons_self
    have hd := ht d List.mem_cons_self
    have hs' := fun e he => hs e (List.mem_cons_of_mem c he)
    have ht' := fun e he => ht e (List.mem_cons_of_mem d he)
    have hrest : s.length = t.length := Nat.succ.inj hlength
    rw [ofDigitChars_cons_eq, ofDigitChars_cons_eq, hrest] at h
    rcases Nat.lt_trichotomy c.toNat d.toNat with hlt | heq | hgt
    · exact ⟨[], s, t, c, d, rfl, rfl, hc, hd, UInt32.lt_iff_toNat_lt.2 hlt⟩
    · obtain rfl : c = d := Char.toNat_inj.1 heq
      exact (ih hrest hs' ht' (by omega)).cons c
    · -- A greater first digit outweighs whatever stands behind it.
      have hle : 48 ≤ d.toNat := (Char.isDigit_iff_toNat.1 hd).1
      have hgreater := Nat.mul_le_mul_left (Nat.pow 10 t.length)
        (show d.toNat - 48 + 1 ≤ c.toNat - 48 by omega)
      have hbound := ofDigitChars_lt ht'
      rw [Nat.mul_add] at hgreater
      omega

theorem toList_pushn_empty (c : Char) (n : Nat) : ("".pushn c n).toList = List.replicate n c := by
  rw [String.pushn_eq_repeat_push]
  induction n with
  | zero => rfl
  | succ n ih => rw [Nat.repeat, String.toList_push, ih, List.replicate_succ']

theorem toList_zeroFilled (width n : Nat) : (Date.zeroFilled width n).toList =
    List.replicate (width - (toDigits 10 n).length) '0' ++ toDigits 10 n := by
  rw [Date.zeroFilled, String.toList_append, toList_pushn_empty, Nat.toString_eq_repr,
    Nat.toList_repr, String.length, Nat.toList_repr]

/-- A number filled up with zeros is written in digits. -/
theorem isDigit_of_mem_zeroFilled {width n : Nat} {c : Char}
    (h : c ∈ (Date.zeroFilled width n).toList) : c.isDigit = true := by
  rw [toList_zeroFilled] at h
  rcases List.mem_append.1 h with h | h
  · rw [List.eq_of_mem_replicate h]
    rfl
  · exact Nat.isDigit_of_mem_toDigits (by decide) (by decide) h

/-- Zeros in front do not change a number. -/
theorem ofDigitChars_zeroFilled (width n : Nat) :
    ofDigitChars 10 (Date.zeroFilled width n).toList 0 = n := by
  rw [toList_zeroFilled, Nat.ofDigitChars_append, Nat.ofDigitChars_replicate_zero, Nat.mul_zero,
    Nat.ofDigitChars_ten_toDigits]

theorem length_zeroFilled {width n : Nat} (hwidth : 0 < width) (h : n < Nat.pow 10 width) :
    (Date.zeroFilled width n).toList.length = width := by
  have hlength := (Nat.length_toDigits_le_iff (by decide) hwidth).2 h
  rw [toList_zeroFilled, List.length_append, List.length_replicate]
  omega

/-! ### Names -/

/-- The name of a script around the place of its table. -/
theorem toList_scriptFileName (date : Date) (index : Nat) (table extension : String) :
    (scriptFileName date index table extension).toList = (date.underscored ++ "_").toList ++
      (Date.zeroFilled 6 index).toList ++ '_' :: ("squashed_" ++ table ++ "_table." ++
        extension).toList := by
  simp [scriptFileName, String.toList_append]

/-- **Of two names the one with the smaller place comes first, by a digit of the place.** -/
theorem digitBefore_scriptFileName {i j : Nat} (h : i < j) (hj : j < 1000000) (date : Date)
    (a b extension : String) : DigitBefore (scriptFileName date i a extension).toList
      (scriptFileName date j b extension).toList := by
  rw [toList_scriptFileName, toList_scriptFileName]
  refine DigitBefore.append (digitBefore_of_ofDigitChars_lt ?_
    (fun c hc => isDigit_of_mem_zeroFilled hc) (fun c hc => isDigit_of_mem_zeroFilled hc) ?_) _ _ _
  · have hbound : j < Nat.pow 10 6 := hj
    rw [length_zeroFilled (by decide) (Nat.lt_trans h hbound), length_zeroFilled (by decide) hbound]
  · rwa [ofDigitChars_zeroFilled, ofDigitChars_zeroFilled]

/-- A name shows the place, however many digits that has. -/
theorem index_of_scriptFileName_eq {date : Date} {i j : Nat} {a b extension : String}
    (h : scriptFileName date i a extension = scriptFileName date j b extension) : i = j := by
  have hlist := congrArg String.toList h
  rw [toList_scriptFileName, toList_scriptFileName, List.append_assoc, List.append_assoc] at hlist
  have hplaces := congrArg (List.takeWhile Char.isDigit) (List.append_cancel_left hlist)
  have hunderscore : '_'.isDigit = false := rfl
  rw [List.takeWhile_append_of_pos fun c hc => isDigit_of_mem_zeroFilled hc,
    List.takeWhile_append_of_pos fun c hc => isDigit_of_mem_zeroFilled hc,
    List.takeWhile_cons_of_neg (by simp [hunderscore]),
    List.takeWhile_cons_of_neg (by simp [hunderscore]), List.append_nil, List.append_nil] at hplaces
  rw [← ofDigitChars_zeroFilled 6 i, hplaces, ofDigitChars_zeroFilled]

/-! ### The names of a run -/

/-- The file names of the scripts of a plan. -/
def Plan.scriptNames (p : Plan) (date : Date) (extension : String) : List String :=
  p.scripts.map fun x => scriptFileName date x.index x.table extension

section Run

variable {ms : List Migration} {p : Plan} {date : Date} {extension : String}

/-- The names are made of the tables in creation order, numbered from zero. -/
theorem Plan.scriptNames_eq (h : ofMigrations ms = .ok p) : p.scriptNames date extension =
    p.order.mapIdx fun i table => scriptFileName date i table extension := by
  obtain ⟨htables, -, hindices, -⟩ := writes_scripts h
  have hlength : p.scripts.length = p.order.length := by rw [← htables, List.length_map]
  refine List.ext_getElem (by simp [scriptNames, hlength]) fun i hi hi' => ?_
  have hi : i < p.scripts.length := by simpa [scriptNames] using hi
  have hindex : p.scripts[i].index = i := by
    have hmap := List.getElem_map (·.index) (l := p.scripts) (i := i) (h := by simpa using hi)
    rw [← hmap]
    simp [hindices]
  have hi' : i < p.order.length := hlength ▸ hi
  have htable : p.scripts[i].table = p.order[i] := by
    have hmap := List.getElem_map (·.table) (l := p.scripts) (i := i) (h := by simpa using hi)
    rw [← hmap]
    simp [htables]
  simp [scriptNames, hindex, htable]

/-- **The scripts of a run have different names.** -/
theorem Plan.nodup_scriptNames (h : ofMigrations ms = .ok p) :
    (p.scriptNames date extension).Nodup := by
  rw [scriptNames_eq h, List.Nodup, List.pairwise_iff_getElem]
  intro i j hi hj hij heq
  rw [List.getElem_mapIdx, List.getElem_mapIdx] at heq
  exact absurd (index_of_scriptFileName_eq heq) (Nat.ne_of_lt hij)

/-- The names of a run of up to a million scripts are sorted. -/
theorem Plan.pairwise_scriptNames (h : ofMigrations ms = .ok p) (hsize : p.order.length ≤ 1000000) :
    (p.scriptNames date extension).Pairwise (· < ·) := by
  rw [scriptNames_eq h, List.pairwise_iff_getElem]
  intro i j hi hj hij
  rw [List.getElem_mapIdx, List.getElem_mapIdx]
  rw [List.length_mapIdx] at hj
  exact (digitBefore_scriptFileName hij (Nat.lt_of_lt_of_le hj hsize) ..).lt

/-- Sorting the names of a run restores the order of the tables. -/
theorem Plan.mergeSort_scriptNames (h : ofMigrations ms = .ok p)
    (hsize : p.order.length ≤ 1000000) {names : List String}
    (hnames : names.Perm (p.scriptNames date extension)) :
    names.mergeSort (fun a b => decide (a ≤ b)) = p.scriptNames date extension := by
  have hsorted : (names.mergeSort fun a b => decide (a ≤ b)).Pairwise (· ≤ ·) := by
    have hpairwise := @List.pairwise_mergeSort String (fun a b => decide (a ≤ b))
      (fun a b c hab hbc => decide_eq_true
        (String.le_trans (of_decide_eq_true hab) (of_decide_eq_true hbc)))
      (fun a b => by
        rw [Bool.or_eq_true, decide_eq_true_eq, decide_eq_true_eq]
        exact String.le_total a b) names
    exact hpairwise.imp of_decide_eq_true
  have hnames' : (p.scriptNames date extension).Pairwise (· ≤ ·) :=
    (pairwise_scriptNames h hsize).imp fun hlt => String.not_lt.1 (String.lt_asymm hlt)
  exact List.Perm.eq_of_pairwise (fun _ _ _ _ => String.le_antisymm) hsorted hnames'
    ((List.mergeSort_perm _ _).trans hnames)

end Run

/-! ### Listing a folder -/

namespace Folders

variable {f : Folders} {u : Tree} {names : List String}

/-- Migrations that can all be read are read. -/
theorem readAll_of_readable
    (h : ∀ name ∈ names, ∃ text, u.read (Path.join f.migrations name) = .ok text) :
    ∃ ms, f.readAll Tree.system names u = (.ok ms, u) ∧ ms.map (·.name) = names := by
  induction names with
  | nil => exact ⟨[], rfl, rfl⟩
  | cons name rest ih =>
    obtain ⟨text, htext⟩ := h name List.mem_cons_self
    obtain ⟨ms, hms, hnames⟩ := ih fun name' hname => h name' (List.mem_cons_of_mem name hname)
    have hread : Tree.system.read (Path.join f.migrations name) u = (.ok text, u) := by
      simp [Tree.system, htext]
    refine ⟨⟨name, text⟩ :: ms, ?_, by rw [List.map_cons, hnames]⟩
    simp [readAll, bind, StateT.bind, StateM.pure_apply, hread, hms]

/-- Listing a folder whose files can be read gives them in the order of their names. -/
theorem list_of_readable (hnames : u.fileNames f.migrations = .ok names)
    (h : ∀ name ∈ names, ∃ text, u.read (Path.join f.migrations name) = .ok text) :
    ∃ ms, (f.store Tree.system).list u = (.ok ms, u) ∧
      ms.map (·.name) = names.mergeSort fun a b => decide (a ≤ b) := by
  have hread : ∀ name ∈ names.mergeSort fun a b => decide (a ≤ b),
      ∃ text, u.read (Path.join f.migrations name) = .ok text :=
    fun name hname => h name (List.mem_mergeSort.1 hname)
  obtain ⟨ms, hms, hsorted⟩ := readAll_of_readable hread
  have hnames' : Tree.system.fileNames f.migrations u = (.ok names, u) := by
    simp [Tree.system, hnames]
  refine ⟨ms, ?_, hsorted⟩
  simp [store, list, bind, StateT.bind, StateM.pure_apply, hnames', hms, Except.mapError]

end Folders

/-! ### Names and creation order -/

/-- **The names of scripts sort like their places in the creation order**, in bytes, for places
below a million and whatever tables they are of. So the scripts of a run have different names, and a
folder that holds files of these names, and that a store takes for its migrations, is listed in the
creation order. -/
theorem scriptNames_restore_order (date : Date) (extension : String) :
    (∀ (a b : String) (i j : Nat), i < j → j < 1000000 →
      Text.utf8 (scriptFileName date i a extension) <
        Text.utf8 (scriptFileName date j b extension)) ∧
    ∀ ms p, Plan.ofMigrations ms = .ok p →
      (p.scriptNames date extension).Nodup ∧
      (p.order.length ≤ 1000000 → ∀ (f : Folders) (u : Tree) (names : List String),
        u.fileNames f.migrations = .ok names → names.Perm (p.scriptNames date extension) →
        (∀ name ∈ names, ∃ text, u.read (Path.join f.migrations name) = .ok text) →
        ∃ listed, (f.store Tree.system).list u = (.ok listed, u) ∧
          listed.map (·.name) =
            p.order.mapIdx fun i table => scriptFileName date i table extension) := by
  refine ⟨fun a b i j hij hj => (digitBefore_scriptFileName hij hj ..).utf8_lt,
    fun ms p hp => ⟨Plan.nodup_scriptNames hp, fun hsize f u names hnames hperm hread => ?_⟩⟩
  obtain ⟨listed, hlist, hsorted⟩ := Folders.list_of_readable hnames hread
  refine ⟨listed, hlist, ?_⟩
  rw [hsorted, Plan.mergeSort_scriptNames hp hsize hperm, Plan.scriptNames_eq hp]

/-- A migration that creates members and then the teams that they belong to. -/
def createdMembers : Migration :=
  ⟨"2014_01_01_000000_create_members.php",
    "Schema::create('members', function ($table) \x7b\n" ++
    "$table->foreignId('team_id')->constrained();\n\x7d);\n" ++
    "Schema::create('teams', function ($table) \x7b\n$table->id();\n\x7d);\n"⟩

/-- The plan for it, with the teams first. -/
def createdMembersPlan : Plan where
  schema := ⟨Dict.ofList
    [("members", { name := "members"
                   columns := Dict.ofList
                     [("team_id", { type := .builder .foreignId, name := "team_id" })]
                   relationships := [⟨"team_id", "id", "teams", none, none⟩] }),
     ("teams", { name := "teams"
                 columns := Dict.ofList
                   [("id", { type := .builder .bigIncrements, name := "id" })] })]⟩
  order := ["teams", "members"]
  diagnostics := []
  schemaSources := ["2014_01_01_000000_create_members.php"]
  sourceCount := 1

/-- The names of its two scripts, the later one first. -/
def createdMembersFiles : List String :=
  ["2024_03_09_000001_squashed_members_table.php", "2024_03_09_000000_squashed_teams_table.php"]

/-- A folder with two files of these names. -/
def createdMembersTree : Tree where
  nodes := Dict.ofList ((["s"], .folder) ::
    createdMembersFiles.map fun name => (["s", name], .file (.text "<?php")))

/-- The folder as that of a squash. -/
def createdMembersFolders : Folders where
  migrations := "s"
  output := "o"
  date := ⟨2024, 3, 9, by decide⟩

/-- Whatever comes first in the folder, the script of the teams is listed before that of the
members. -/
theorem scriptNames_restore_order_createdMembers :
    Plan.ofMigrations [createdMembers] = .ok createdMembersPlan ∧
      createdMembersTree.fileNames "s" = .ok createdMembersFiles ∧
      ∃ listed, (createdMembersFolders.store Tree.system).list createdMembersTree =
          (.ok listed, createdMembersTree) ∧
        listed.map (·.name) = ["2024_03_09_000000_squashed_teams_table.php",
          "2024_03_09_000001_squashed_members_table.php"] := by
  have hplan : Plan.ofMigrations [createdMembers] = .ok createdMembersPlan := by decide +kernel
  have hfolder : Path.rawParts "s" = ["s"] := by decide
  have hfiles : createdMembersTree.fileNames "s" = .ok createdMembersFiles := by
    rw [Tree.fileNames, Tree.lookup, Tree.resolve, Tree.names_of_relative, hfolder] <;>
      decide
  have hread : ∀ name ∈ createdMembersFiles,
      ∃ text, createdMembersTree.read (Path.join "s" name) = .ok text := by
    intro name hname
    refine ⟨"<?php", ?_⟩
    have hparts : Path.rawParts (Path.join "s" name) = ["s", name] := by
      revert name
      decide
    rw [Tree.read, Tree.lookup, Tree.resolve, Tree.names_of_relative, hparts] <;> revert name <;>
      decide
  obtain ⟨-, hruns⟩ := scriptNames_restore_order createdMembersFolders.date "php"
  obtain ⟨-, hlisted⟩ := hruns _ _ hplan
  refine ⟨hplan, hfiles, hlisted (by decide) createdMembersFolders _ _ hfiles ?_ hread⟩
  decide

end SchemaHistory

import SchemaHistory.Proofs.FolderRuns

/-!
# Files in place

The folders of a squash may be the same, and the name of a script may be that of a migration, as
it is when a history is squashed twice on one day. Then what a run writes and moves may undo what it
wrote or moved before, or what was there. Whether it does can be told from the plan
(`SchemaHistory.Folders.Located.Undisturbed`), and exactly if it does not, the run leaves every
script and every migration where it should be
(`SchemaHistory.Folders.Located.inPlace_iff_undisturbed`).
-/

namespace SchemaHistory

open Files

namespace Folders

variable {f : Folders} {t t' : Tree}

namespace Located

variable {l : f.Located t} {o : SquashOptions} {r : Report}

variable (l) in
/-- That a run leaves its files **in place**: every script is at the path that is reported for it,
every archived migration is at its name in the archive, and every other one is where it was, each
with the text that it had. -/
structure InPlace (r : Report) (t' : Tree) : Prop where
  scripts : ∀ (i : Nat) (path : String), r.written[i]? = some path →
    ∃ x : Script, r.scripts[i]? = some x ∧ t'.read path = .ok x.content
  archived : ∀ name ∈ r.archived, ∃ s, t.textAt? (l.migrations ++ [name]) = some s ∧
    t'.textAt? (l.archive ++ [name]) = some s
  kept : ∀ name s, name ∉ r.archived → t.textAt? (l.migrations ++ [name]) = some s →
    t'.textAt? (l.migrations ++ [name]) = some s

variable (l) in
/-- That the effects of a plan leave each other **undisturbed**, which can be told before the first
of them happens. -/
structure Undisturbed (es : List Effect) : Prop where
  /-- What is written last over a migration is what the migration says. -/
  migrations : ∀ name s text, t.textAt? (l.migrations ++ [name]) = some s →
    l.lastText es (l.migrations ++ [name]) = some text → text = s
  /-- No script is written over a migration that is moved away. -/
  vacated : ∀ x q name, .write x ∈ es → t.place? (f.scriptPath x.index x.table) = some q →
    .archive name ∈ es → q = l.migrations ++ [name] → l.migrations = l.archive
  /-- A migration is moved over a script only if the two say the same. -/
  displaced : ∀ x q name, .write x ∈ es → t.place? (f.scriptPath x.index x.table) = some q →
    .archive name ∈ es → q = l.archive ++ [name] →
      t.textAt? (l.migrations ++ [name]) = some x.content
  /-- What is written last where a script goes is the script, if no migration is moved there. -/
  scripts : ∀ x q, .write x ∈ es → t.place? (f.scriptPath x.index x.table) = some q →
    (∀ name, .archive name ∈ es → q ≠ l.archive ++ [name]) → l.lastText es q = some x.content

/-- A migration still says what it said when everything is written. -/
theorem Undisturbed.standing_migration {es : List Effect} (h : l.Undisturbed es) {name s : String}
    (hs : t.textAt? (l.migrations ++ [name]) = some s) :
    l.standing es (l.migrations ++ [name]) = some (.file (.text s)) := by
  rw [standing]
  cases htext : l.lastText es (l.migrations ++ [name]) with
  | none => exact Tree.textAt?_eq_some_iff.1 hs
  | some text => rw [h.migrations name s text hs htext]

/-- A script goes into the file at the place of its path. -/
theorem mem_puts {es : List Effect} {x : Script} {q : Place} (hx : .write x ∈ es)
    (hq : t.place? (f.scriptPath x.index x.table) = some q) :
    (q, x.content) ∈ es.filterMap l.put? :=
  List.mem_filterMap.2 ⟨_, hx, by rw [put?, hq, Option.map_some]⟩

/-- Something is written last where a script goes. -/
theorem lastText_ne_none {es : List Effect} {x : Script} {q : Place} (hx : .write x ∈ es)
    (hq : t.place? (f.scriptPath x.index x.table) = some q) : l.lastText es q ≠ none := by
  rw [lastText, ne_eq, Dict.find?_eq_none_iff, Classical.not_not, Dict.mem_keys_ofList]
  exact List.mem_map_of_mem (mem_puts hx hq)

/-- A place is apart from all moves if no migration is moved to it and none leaves it behind. -/
theorem apart_of_free {names : List String} {q : Place}
    (hfree : ∀ name ∈ names, q ≠ l.archive ++ [name])
    (hvacated : ∀ name ∈ names, q = l.migrations ++ [name] → l.migrations = l.archive) :
    ∀ name ∈ names, q ≠ l.archive ++ [name] ∧ q ≠ l.migrations ++ [name] := by
  refine fun name hname => ⟨hfree name hname, fun hq => hfree name hname ?_⟩
  rw [← hvacated name hname hq]
  exact hq

/-- Where a script is that was written, and that it can be read there. -/
theorem Outcome.exists_place (h : l.Outcome o r t') {x : Script}
    (hx : .write x ∈ r.plan.effects o) :
    ∃ q, t.place? (f.scriptPath x.index x.table) = some q ∧ ∀ s,
      t'.read (f.scriptPath x.index x.table) = .ok s ↔ t'.node? q = some (.file (.text s)) := by
  obtain ⟨⟨q, hq⟩, hwants⟩ := h.paths _ hx _ rfl
  refine ⟨q, hq, fun s => ?_⟩
  rw [Tree.read_eq_ok_iff ((h.folders.place?_eq _).trans hq) hwants, Tree.textAt?_eq_some_iff]

/-- After a run that leaves its files in place, a migration has said what it said until it was
moved. -/
theorem InPlace.standing_migration (h : l.Outcome o r t') (hplace : l.InPlace r t')
    {name s : String} (hs : t.textAt? (l.migrations ++ [name]) = some s) :
    l.standing (r.plan.effects o) (l.migrations ++ [name]) = some (.file (.text s)) := by
  obtain ⟨harchived, -, hother⟩ := h.node?
  by_cases hname : name ∈ r.archived
  · obtain ⟨s', hs', htext⟩ := hplace.archived name hname
    obtain rfl : s = s' := Option.some.inj (hs.symm.trans hs')
    rw [← harchived name hname]
    exact Tree.textAt?_eq_some_iff.1 htext
  · rw [← hother _ (concat_ne_of_not_mem hname _)]
    exact Tree.textAt?_eq_some_iff.1 (hplace.kept name s hname hs)

/-- After a run that leaves its files in place, every script is where it was written. -/
theorem InPlace.node?_script (h : l.Outcome o r t') (hplace : l.InPlace r t') {x : Script}
    {q : Place} (hx : .write x ∈ r.plan.effects o)
    (hq : t.place? (f.scriptPath x.index x.table) = some q) :
    t'.node? q = some (.file (.text x.content)) := by
  obtain ⟨q', hq', hread⟩ := h.exists_place hx
  obtain rfl : q = q' := Option.some.inj (hq.symm.trans hq')
  obtain ⟨hnone, -⟩ | ⟨hwritten, hmem⟩ := h.written_cases
  · rw [hnone] at hx
    exact absurd hx List.not_mem_nil
  obtain ⟨i, hi⟩ := List.mem_iff_getElem?.1 ((hmem x).1 hx)
  have hpath : r.written[i]? = some (f.scriptPath x.index x.table) := by
    rw [hwritten, List.getElem?_map, hi, Option.map_some]
  obtain ⟨x', hx', htext⟩ := hplace.scripts i _ hpath
  obtain rfl : x = x' := Option.some.inj (hi.symm.trans hx')
  exact (hread _).1 htext

/-- A run that leaves its files in place has effects that leave each other undisturbed. -/
theorem InPlace.undisturbed (h : l.Outcome o r t') (hplace : l.InPlace r t') :
    l.Undisturbed (r.plan.effects o) := by
  obtain ⟨harchived, hvacated, hother⟩ := h.node?
  have hvacant : ∀ x q name, .write x ∈ r.plan.effects o →
      t.place? (f.scriptPath x.index x.table) = some q → .archive name ∈ r.plan.effects o →
      q = l.migrations ++ [name] → l.migrations = l.archive := by
    intro x q name hx hq hname hqname
    by_contra hplaces
    have hnone := hvacated name (h.mem_archived.2 hname) hplaces
    rw [← hqname, hplace.node?_script h hx hq] at hnone
    exact absurd hnone (by simp)
  refine ⟨fun name s text hs htext => ?_, hvacant, fun x q name hx hq hname hqname => ?_,
    fun x q hx hq hfree => ?_⟩
  · have hstanding := hplace.standing_migration h hs
    rw [standing, htext] at hstanding
    simpa using hstanding
  · obtain ⟨s, hs⟩ := h.sources name (h.mem_archived.2 hname)
    have hscript := hplace.node?_script h hx hq
    rw [hqname, harchived name (h.mem_archived.2 hname), hplace.standing_migration h hs] at hscript
    rw [hs]
    simpa using hscript
  · have hscript := hplace.node?_script h hx hq
    rw [hother q (apart_of_free (fun name hname => hfree name (h.mem_archived.1 hname))
      fun name hname => hvacant x q name hx hq (h.mem_archived.1 hname)), standing] at hscript
    -- What stands there is what was written there last, since something was.
    cases htext : l.lastText (r.plan.effects o) q with
    | none => exact absurd htext (lastText_ne_none hx hq)
    | some text =>
      rw [htext] at hscript
      simpa using hscript

/-- Effects that leave each other undisturbed leave the files of a run in place. -/
theorem Undisturbed.inPlace (h : l.Outcome o r t')
    (hundisturbed : l.Undisturbed (r.plan.effects o)) : l.InPlace r t' := by
  obtain ⟨harchived, hvacated, hother⟩ := h.node?
  refine ⟨fun i path hpath => ?_, fun name hname => ?_, fun name s hname hs => ?_⟩
  · obtain ⟨-, hnone⟩ | ⟨hwritten, hmem⟩ := h.written_cases
    · rw [hnone] at hpath
      exact absurd hpath (by simp)
    rw [hwritten, List.getElem?_map] at hpath
    obtain ⟨x, hi, rfl⟩ := Option.map_eq_some_iff.1 hpath
    have hx : .write x ∈ r.plan.effects o := (hmem x).2 (List.mem_of_getElem? hi)
    obtain ⟨q, hq, hread⟩ := h.exists_place hx
    refine ⟨x, hi, (hread _).2 ?_⟩
    -- Either a migration was moved over the script, or nothing was.
    by_cases hover : ∃ name ∈ r.archived, q = l.archive ++ [name]
    · obtain ⟨name, hname, hqname⟩ := hover
      rw [hqname, harchived name hname]
      exact hundisturbed.standing_migration
        (hundisturbed.displaced x q name hx hq (h.mem_archived.1 hname) hqname)
    · have hfree : ∀ name ∈ r.archived, q ≠ l.archive ++ [name] := fun name hname hqname =>
        hover ⟨name, hname, hqname⟩
      have hapart := apart_of_free hfree fun name hname =>
        hundisturbed.vacated x q name hx hq (h.mem_archived.1 hname)
      rw [hother q hapart, standing, hundisturbed.scripts x q hx hq fun name hname =>
        hfree name (h.mem_archived.2 hname)]
  · obtain ⟨s, hs⟩ := h.sources name hname
    refine ⟨s, hs, Tree.textAt?_eq_some_iff.2 ?_⟩
    rw [harchived name hname, hundisturbed.standing_migration hs]
  · rw [Tree.textAt?_eq_some_iff, hother _ (concat_ne_of_not_mem hname _)]
    exact hundisturbed.standing_migration hs

/-- **A run leaves its files in place exactly if its effects leave each other undisturbed.** -/
theorem inPlace_iff_undisturbed (ht : t.Proper) (l : f.Located t)
    (h : (f.store Tree.system).squash o t = (.ok r, t')) :
    l.InPlace r t' ↔ l.Undisturbed (r.plan.effects o) := by
  have hout := outcome ht l h
  exact ⟨fun hplace => hplace.undisturbed hout, fun hundisturbed => hundisturbed.inPlace hout⟩

/-- Effects leave each other undisturbed if they write to different places, none of which is that
of a migration, before or after it is moved. -/
theorem undisturbed_of_apart {es : List Effect} (hnodup : ((es.filterMap l.put?).map (·.1)).Nodup)
    (hapart : ∀ q ∈ (es.filterMap l.put?).map (·.1), ∀ name,
      q ≠ l.migrations ++ [name] ∧ q ≠ l.archive ++ [name]) : l.Undisturbed es := by
  have hplace : ∀ x q, .write x ∈ es → t.place? (f.scriptPath x.index x.table) = some q →
      ∀ name, q ≠ l.migrations ++ [name] ∧ q ≠ l.archive ++ [name] := fun x q hx hq =>
    hapart q (List.mem_map_of_mem (mem_puts hx hq))
  refine ⟨fun name s text _ htext => ?_, fun x q name hx hq _ hqname => ?_,
    fun x q name hx hq _ hqname => ?_, fun x q hx hq _ => ?_⟩
  · have hmem : l.migrations ++ [name] ∈ (es.filterMap l.put?).map (·.1) :=
      Dict.mem_keys_ofList.1 (Dict.mem_keys_of_find? htext)
    exact absurd rfl (hapart _ hmem name).1
  · exact absurd hqname (hplace x q hx hq name).1
  · exact absurd hqname (hplace x q hx hq name).2
  · -- No place occurs twice, so what is written there at all is what is written there last.
    rw [lastText, Dict.find?_eq_some_iff, Dict.entries_ofList hnodup]
    exact mem_puts hx hq

end Located

/-! ### A run after a squash of the same day -/

/-- The name of the script for the users, if they are the first table. -/
def usersFile : String :=
  "2024_01_01_000000_squashed_users_table.php"

/-- A migration that creates the users, with a remark that no script has. -/
def usersText : String :=
  "Schema::create('users', function ($table) \x7b\n$table->id(); // since 2019\n\x7d);\n"

/-- The users. -/
def usersTable : Table where
  name := "users"
  columns := Dict.ofList [("id", { type := .builder .bigIncrements, name := "id" })]

/-- The script for the users. -/
def usersScript : Script :=
  usersTable.script 0

/-- The plan for the migration of the users. -/
def usersPlan : Plan where
  schema := ⟨Dict.ofList [("users", usersTable)]⟩
  order := ["users"]
  diagnostics := []
  schemaSources := [usersFile]
  sourceCount := 1

/-- Folders for the archive, the migrations and the scripts, and a migration with the name of a
script. -/
def usersTree : Tree where
  nodes := Dict.ofList [(["a"], .folder), (["m"], .folder), (["o"], .folder),
    (["m", usersFile], .file (.text usersText))]

/-- The folders of a squash on the day that is in the name of the migration. -/
def usersFolders (output : String) : Folders where
  migrations := "m"
  output := output
  archive := some "a"
  date := ⟨2024, 1, 1, by decide⟩

/-- The report of a run. -/
def usersReport (output : String) : Report where
  plan := usersPlan
  scripts := [usersScript]
  written := [Path.join output usersFile]
  archived := [usersFile]

theorem effects_usersPlan : usersPlan.effects {} = [.write usersScript, .archive usersFile] := by
  decide +kernel

theorem scriptPath_usersFolders (output : String) :
    (usersFolders output).scriptPath usersScript.index usersScript.table =
      Path.join output usersFile := by
  have hname : scriptFileName ⟨2024, 1, 1, by decide⟩ 0 "users" "php" = usersFile := by
    decide
  exact congrArg (Path.join output) hname

theorem proper_usersTree : usersTree.Proper where
  rooted := by
    unfold Tree.Rooted
    decide
  names := by decide

theorem names_eq_singleton {folder : String} (h : folder ∈ ["a", "m"]) :
    Tree.names folder = .ok [folder] := by
  have hparts : Path.rawParts folder = [folder] := by
    revert folder
    decide
  rw [Tree.names_of_relative, hparts] <;> revert folder <;> decide

theorem names_join_usersFile {folder : String} (h : folder ∈ ["a", "m", "o"]) :
    Tree.names (Path.join folder usersFile) = .ok [folder, usersFile] := by
  have hparts : Path.rawParts (Path.join folder usersFile) = [folder, usersFile] := by
    revert folder
    decide
  rw [Tree.names_of_relative, hparts] <;> revert folder <;> decide

theorem lookup_usersTree {folder : String} (h : folder ∈ ["a", "m"]) :
    usersTree.lookup folder = .ok ([folder], .folder) := by
  rw [Tree.lookup, Tree.resolve, names_eq_singleton h]
  revert folder
  decide

theorem lookup_migrations_usersTree : usersTree.lookup "m" = .ok (["m"], .folder) :=
  lookup_usersTree (by decide)

theorem lookup_archive_usersTree : usersTree.lookup "a" = .ok (["a"], .folder) :=
  lookup_usersTree (by decide)

/-- Where the folders are. -/
def usersLocated (output : String) : (usersFolders output).Located usersTree where
  migrations := ["m"]
  archive := ["a"]
  archivePath := "a"
  archive_eq := rfl
  lookup_migrations := lookup_migrations_usersTree
  lookup_archive := lookup_archive_usersTree

/-- The tree that a run leaves. -/
def usersLeft (output : String) : Tree :=
  (usersTree.set [output, usersFile] (.file (.text usersScript.content))).relocate
    ["m", usersFile] ["a", usersFile]

theorem carryOut_usersTree {output : String} (h : output ∈ ["m", "o"]) :
    ∃ u, usersTree.write (Path.join output usersFile) usersScript.content = .ok u ∧
      u.move (Path.join "m" usersFile) (Path.join "a" usersFile) = .ok (usersLeft output) := by
  have hm := @names_join_usersFile "m" (by decide)
  have ha := @names_join_usersFile "a" (by decide)
  have ho := names_join_usersFile (List.mem_cons_of_mem "a" h)
  refine ⟨usersTree.set [output, usersFile] (.file (.text usersScript.content)), ?_, ?_⟩
  · rw [Tree.write, Tree.resolve, ho]
    clear ho
    revert output
    decide +kernel
  · rw [Tree.move, Tree.contains_nul_of_names_eq_ok hm, Tree.contains_nul_of_names_eq_ok ha,
      Tree.site, Tree.site, hm, ha]
    clear ho
    revert output
    decide +kernel

theorem squash_usersTree {output : String} (h : output ∈ ["m", "o"]) :
    ((usersFolders output).store Tree.system).squash {} usersTree =
      (.ok (usersReport output), usersLeft output) := by
  have hnames : usersTree.fileNames "m" = .ok [usersFile] := by
    rw [Tree.fileNames, lookup_usersTree (by decide)]
    decide +kernel
  have hread : usersTree.read (Path.join "m" usersFile) = .ok usersText := by
    rw [Tree.read, Tree.lookup, Tree.resolve, names_join_usersFile (by decide)]
    decide
  have hlist : ((usersFolders output).store Tree.system).list usersTree =
      (.ok [⟨usersFile, usersText⟩], usersTree) := by
    simp [store, list, readAll, Tree.system, bind, StateT.bind, StateM.pure_apply, usersFolders,
      hnames, hread, Except.mapError]
  have hplan : Plan.ofMigrations [⟨usersFile, usersText⟩] = .ok usersPlan := by
    decide +kernel
  have htarget : (usersFolders output).archiveTarget? = some "a" := by
    show (usersFolders "m").archiveTarget? = some "a"
    decide
  obtain ⟨u, hwrite, hmove⟩ := carryOut_usersTree h
  refine squash_eq_ok_iff.2 ⟨_, _, hlist, hplan, ?_⟩
  rw [effects_usersPlan, performAll_cons_eq_ok_iff]
  refine ⟨u, by rw [carryOut, scriptPath_usersFolders, hwrite],
    performAll_cons_eq_ok_iff.2 ⟨usersLeft output, ?_, ?_⟩⟩
  · rw [carryOut, htarget]
    exact hmove
  · have hscripts : usersPlan.scripts = [usersScript] := by decide +kernel
    simp only [Store.performAll, path?, scriptPath_usersFolders, Report.enter, hscripts]
    rfl

/-- A run whose scripts go to a folder of their own leaves its files in place. -/
theorem inPlace_usersTree :
    usersTree.Proper ∧
      ((usersFolders "o").store Tree.system).squash {} usersTree =
        (.ok (usersReport "o"), usersLeft "o") ∧
      (usersLocated "o").InPlace (usersReport "o") (usersLeft "o") := by
  have hrun := @squash_usersTree "o" (by decide)
  have hplace : usersTree.place? (Path.join "o" usersFile) = some ["o", usersFile] := by
    rw [Tree.place?, Tree.resolve, names_join_usersFile (by decide)]
    decide
  have hputs : (usersPlan.effects {}).filterMap (usersLocated "o").put? =
      [(["o", usersFile], usersScript.content)] := by
    simp [effects_usersPlan, Located.put?, scriptPath_usersFolders, hplace]
  have hundisturbed : (usersLocated "o").Undisturbed (usersPlan.effects {}) := by
    refine Located.undisturbed_of_apart ?_ ?_ <;> rw [hputs]
    · simp
    · simp [usersLocated]
  exact ⟨proper_usersTree, hrun,
    (Located.inPlace_iff_undisturbed proper_usersTree (usersLocated "o") hrun).2 hundisturbed⟩

/-- **A run whose scripts go to the migrations** writes the script over the migration and then moves
it away, so that neither the script is where it is reported to be nor the migration in the
archive. -/
theorem not_inPlace_usersTree :
    ((usersFolders "m").store Tree.system).squash {} usersTree =
      (.ok (usersReport "m"), usersLeft "m") ∧
    (usersLeft "m").read (Path.join "m" usersFile) = .error .notFound ∧
    (usersLeft "m").read (Path.join "a" usersFile) = .ok usersScript.content ∧
    ¬(usersLocated "m").InPlace (usersReport "m") (usersLeft "m") := by
  have hlost : (usersLeft "m").read (Path.join "m" usersFile) = .error .notFound := by
    rw [Tree.read, Tree.lookup, Tree.resolve, names_join_usersFile (by decide)]
    decide
  refine ⟨squash_usersTree (by decide), hlost, ?_, fun h => ?_⟩
  · rw [Tree.read, Tree.lookup, Tree.resolve, names_join_usersFile (by decide)]
    decide +kernel
  · obtain ⟨x, -, hread⟩ := h.scripts 0 (Path.join "m" usersFile) rfl
    rw [hlost] at hread
    exact absurd hread (by simp)

end Folders

end SchemaHistory

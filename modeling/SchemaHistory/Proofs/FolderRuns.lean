import SchemaHistory.Folders
import SchemaHistory.Proofs.RunSafety
import SchemaHistory.Proofs.TreePlaces

/-!
# What a run leaves in folders

A run in the folders of a file system writes scripts, perhaps a snapshot, and then moves
migrations. A tree of files is followed through such a run place by place: each effect changes the
places as its definition says (`SchemaHistory.Folders.Located.carryOut_eq_ok`), whatever the folders
are and whether some of them are the same, and so do all effects of a plan one after the other
(`SchemaHistory.Folders.Located.performAll_eq_ok`).

All writes come before all moves, and the names of the migrations are different. So it can be said
at once what stands at each place when the run is over
(`SchemaHistory.Folders.Located.Outcome.node?`).
-/

namespace SchemaHistory

open Files

/-! ### Plans -/

/-- The names of the sources with schema operations are names of sources, in their order. -/
theorem Replay.sublist_of_sources {r : Replay} {ms : List Migration} {names : List String}
    (h : (r.sources ms).2 = .ok names) : names.Sublist (ms.map (·.name)) := by
  rw [(sources_eq_ok h).2]
  clear h
  induction ms generalizing r with
  | nil => exact List.nil_sublist _
  | cons m ms ih =>
    rw [results, List.map_cons]
    cases hname : operationName? (m, (r.source m).2) with
    | none =>
      rw [List.filterMap_cons_none hname]
      exact ih.cons _
    | some name =>
      obtain rfl : m.name = name := by
        revert hname
        rcases (r.source m).2 with _ | _ | _ <;> simp [operationName?]
      rw [List.filterMap_cons_some hname]
      exact ih.cons_cons _

/-- What writes archive nothing, and what is archived behind them is archived. -/
theorem Effect.filterMap_archived? {ws : List Effect} (h : ∀ e ∈ ws, e.archived? = none)
    (names : List String) : (ws ++ names.map archive).filterMap archived? = names := by
  rw [List.filterMap_append, List.filterMap_eq_nil_iff.2 h, List.nil_append, List.filterMap_map]
  exact List.filterMap_some

/-- The effects of a plan are writes, and then the migrations that are archived. -/
theorem Plan.exists_effects_eq (p : Plan) (o : SquashOptions) :
    ∃ (ws : List Effect) (names : List String), p.effects o = ws ++ names.map .archive ∧
      (∀ e ∈ ws, e.archived? = none) ∧ names.Sublist p.schemaSources := by
  cases hdry : o.dryRun with
  | true => exact ⟨[], [], by simp [effects, hdry], by simp, List.nil_sublist _⟩
  | false =>
    refine ⟨_, p.schemaSources, p.effects_eq_sequence hdry, fun e he => ?_, List.Sublist.refl _⟩
    rcases List.mem_append.1 he with he | he
    · obtain ⟨x, -, rfl⟩ := List.mem_map.1 he
      rfl
    · obtain ⟨path, -, rfl⟩ := Option.map_eq_some_iff.1 (Option.mem_toList.1 he)
      rfl

namespace Folders

variable {f : Folders} {t u u' : Tree}

/-! ### The store of a tree -/

/-- Where an effect writes a script, if it does. -/
def path? (f : Folders) : Effect → Option String
  | .write x => some (f.scriptPath x.index x.table)
  | _ => none

/-- What an effect does to a tree, if it succeeds. -/
def carryOut (f : Folders) (u : Tree) : Effect → Except Files.Fault Tree
  | .write x => u.write (f.scriptPath x.index x.table) x.content
  | .save path text => u.write path text
  | .archive name =>
    match f.archiveTarget? with
    | none => .ok u
    | some folder => u.move (Path.join f.migrations name) (Path.join folder name)

/-- An effect is carried out and entered in the report, or it fails and changes nothing. -/
theorem perform_cases (f : Folders) (r : Report) (e : Effect) (u : Tree) :
    (∃ u', f.carryOut u e = .ok u' ∧
      (f.store Tree.system).perform r e u = (.ok (r.enter e (f.path? e)), u')) ∨
    ∃ c reason, f.carryOut u e = .error c ∧
      (f.store Tree.system).perform r e u = (.error (.io reason), u) := by
  cases e with
  | write x =>
    cases hw : u.write (f.scriptPath x.index x.table) x.content with
    | error c =>
      refine Or.inr ⟨c, (Fault.writeScript (f.scriptPath x.index x.table) c).message, hw, ?_⟩
      simp [Store.perform, store, write, Tree.system, Tree.updating, bind, StateT.bind,
        StateM.pure_apply, Except.mapError, hw]
    | ok u' =>
      refine Or.inl ⟨u', hw, ?_⟩
      simp [Store.perform, store, write, Tree.system, Tree.updating, bind, StateT.bind,
        StateM.pure_apply, Except.mapError, hw, Report.enter, path?, Effect.archived?]
  | save path text =>
    cases hw : u.write path text with
    | error c =>
      refine Or.inr ⟨c, c.message, hw, ?_⟩
      simp [Store.perform, store, Tree.system, Tree.updating, bind, StateT.bind,
        StateM.pure_apply, Except.mapError, hw]
    | ok u' =>
      refine Or.inl ⟨u', hw, ?_⟩
      simp [Store.perform, store, Tree.system, Tree.updating, bind, StateT.bind,
        StateM.pure_apply, Except.mapError, hw, Report.enter, path?, Effect.archived?]
  | archive name =>
    cases ha : f.archiveTarget? with
    | none =>
      refine Or.inl ⟨u, by simp [carryOut, ha], ?_⟩
      simp [Store.perform, store, moveAway, ha, bind, StateT.bind, StateM.pure_apply,
        Except.mapError, Report.enter, path?, Effect.archived?]
    | some folder =>
      cases hm : u.move (Path.join f.migrations name) (Path.join folder name) with
      | error c =>
        refine Or.inr ⟨c, (Fault.moveMigration (Path.join f.migrations name)
          (Path.join folder name) c).message, by simp [carryOut, ha, hm], ?_⟩
        simp [Store.perform, store, moveAway, ha, Tree.system, Tree.updating, bind, StateT.bind,
          StateM.pure_apply, Except.mapError, hm]
      | ok u' =>
        refine Or.inl ⟨u', by simp [carryOut, ha, hm], ?_⟩
        simp [Store.perform, store, moveAway, ha, Tree.system, Tree.updating, bind, StateT.bind,
          StateM.pure_apply, Except.mapError, hm, Report.enter, path?, Effect.archived?]

/-- Effects succeed if the first one can be carried out and the others succeed after it. -/
theorem performAll_cons_eq_ok_iff {r r' : Report} {e : Effect} {es : List Effect} :
    (f.store Tree.system).performAll r (e :: es) u = (.ok r', u') ↔
      ∃ v, f.carryOut u e = .ok v ∧
        (f.store Tree.system).performAll (r.enter e (f.path? e)) es v = (.ok r', u') := by
  rcases f.perform_cases r e u with ⟨v, hv, hperform⟩ | ⟨c, reason, hc, hperform⟩
  · simp [Store.performAll, bind, StateT.bind, hperform, hv]
  · have hstop : (f.store Tree.system).performAll r (e :: es) u = (.error (.io reason), u) := by
      simp [Store.performAll, bind, StateT.bind, StateM.pure_apply, hperform]
    constructor
    · exact fun h => absurd (Prod.mk.inj (hstop.symm.trans h)).1 (by simp)
    · rintro ⟨v, hv, -⟩
      exact absurd (hc.symm.trans hv) (by simp)

/-- Reading migrations leaves the tree as it is. -/
theorem readAll_eq (f : Folders) (names : List String) (u : Tree) :
    ∃ answer, f.readAll Tree.system names u = (answer, u) ∧ ∀ ms, answer = .ok ms →
      ms.map (·.name) = names ∧ ∀ m ∈ ms, u.read (Path.join f.migrations m.name) = .ok m.text := by
  induction names with
  | nil => exact ⟨.ok [], rfl, by rintro _ ⟨⟩; simp⟩
  | cons name rest ih =>
    obtain ⟨answer, hanswer, hms⟩ := ih
    cases hread : u.read (Path.join f.migrations name) with
    | error c =>
      refine ⟨.error (.readMigration (Path.join f.migrations name) c), ?_, by simp⟩
      simp [readAll, Tree.system, bind, StateT.bind, StateM.pure_apply, hread]
    | ok text =>
      refine ⟨answer.map fun ms => ⟨name, text⟩ :: ms, ?_, ?_⟩
      · have hread' : Tree.system.read (Path.join f.migrations name) u = (.ok text, u) := by
          simp [Tree.system, hread]
        cases answer <;>
          simp [readAll, bind, StateT.bind, StateM.pure_apply, hread', hanswer, Except.map]
      · intro ms h
        cases answer with
        | error c => simp [Except.map] at h
        | ok rest' =>
          obtain rfl := Except.ok.inj h
          obtain ⟨hnames, hreads⟩ := hms rest' rfl
          refine ⟨by rw [List.map_cons, hnames], fun m hm => ?_⟩
          rcases List.mem_cons.1 hm with rfl | hm
          · exact hread
          · exact hreads m hm

/-- Listing the migrations leaves the tree as it is, and gives the files in the folder. -/
theorem list_eq (f : Folders) (u : Tree) :
    ∃ answer, (f.store Tree.system).list u = (answer, u) ∧ ∀ ms, answer = .ok ms →
      ∃ names, u.fileNames f.migrations = .ok names ∧ (ms.map (·.name)).Perm names ∧
        ∀ m ∈ ms, u.read (Path.join f.migrations m.name) = .ok m.text := by
  cases hnames : u.fileNames f.migrations with
  | error c =>
    refine ⟨.error (Fault.readFolder f.migrations c).message, ?_, by simp⟩
    simp [store, list, Tree.system, bind, StateT.bind, StateM.pure_apply, hnames, Except.mapError]
  | ok names =>
    obtain ⟨answer, hanswer, hms⟩ := f.readAll_eq (names.mergeSort fun a b => decide (a ≤ b)) u
    refine ⟨answer.mapError Fault.message, ?_, fun ms h => ?_⟩
    · have hnames' : Tree.system.fileNames f.migrations u = (.ok names, u) := by
        simp [Tree.system, hnames]
      simp [store, list, bind, StateT.bind, StateM.pure_apply, hnames', hanswer]
    · cases answer with
      | error c => simp [Except.mapError] at h
      | ok ms' =>
        obtain rfl : ms' = ms := by simpa [Except.mapError] using h
        obtain ⟨hsorted, hreads⟩ := hms ms' rfl
        exact ⟨names, rfl, hsorted ▸ List.mergeSort_perm _ _, hreads⟩

/-- A run succeeds if the migrations can be listed, they have a plan, and the effects of the plan
succeed. -/
theorem squash_eq_ok_iff {o : SquashOptions} {r : Report} :
    (f.store Tree.system).squash o t = (.ok r, t') ↔
      ∃ ms p, (f.store Tree.system).list t = (.ok ms, t) ∧ Plan.ofMigrations ms = .ok p ∧
        (f.store Tree.system).performAll { plan := p, scripts := p.scripts } (p.effects o) t =
          (.ok r, t') := by
  constructor
  · intro h
    obtain ⟨answer, hlist, -⟩ := f.list_eq t
    rcases answer with reason | ms
    · have hstop : (f.store Tree.system).squash o t = (.error (.io reason), t) := by
        simp [Store.squash, Store.plan, bind, StateT.bind, StateM.pure_apply, hlist]
      exact absurd (Prod.mk.inj (hstop.symm.trans h)).1 (by simp)
    rcases hp : Plan.ofMigrations ms with e | p
    · have hstop : (f.store Tree.system).squash o t = (.error e, t) := by
        simp [Store.squash, Store.plan, bind, StateT.bind, StateM.pure_apply, hlist, hp]
      exact absurd (Prod.mk.inj (hstop.symm.trans h)).1 (by simp)
    · refine ⟨ms, p, hlist, hp, ?_⟩
      simpa [Store.squash, Store.plan, bind, StateT.bind, StateM.pure_apply, hlist, hp] using h
  · rintro ⟨ms, p, hlist, hp, h⟩
    simpa [Store.squash, Store.plan, bind, StateT.bind, StateM.pure_apply, hlist, hp] using h

/-! ### Effects on places -/

/-- The folders of a squash with an archive **located** in a tree that has them. -/
structure Located (f : Folders) (t : Tree) where
  migrations : Place
  archive : Place
  archivePath : String
  archive_eq : f.archive = some archivePath
  lookup_migrations : t.lookup f.migrations = .ok (migrations, .folder)
  lookup_archive : t.lookup archivePath = .ok (archive, .folder)

namespace Located

variable (l : f.Located t)

/-- What an effect puts into a file, and where the file is. -/
def put? (_ : f.Located t) : Effect → Option (Place × String)
  | .write x => (t.place? (f.scriptPath x.index x.table)).map fun q => (q, x.content)
  | .save path text => (t.place? path).map fun q => (q, text)
  | .archive _ => none

/-- What stands at each place **after** an effect, given what stood there before. -/
def after (view : Place → Option Node) (e : Effect) (q : Place) : Option Node :=
  match e with
  | .archive name =>
    if q = l.archive ++ [name] then view (l.migrations ++ [name])
    else if q = l.migrations ++ [name] then none
    else view q
  | e =>
    match l.put? e with
    | some (p, text) => if q = p then some (.file (.text text)) else view q
    | none => view q

variable {l}

theorem after_of_put {view : Place → Option Node} {e : Effect} {p : Place} {text : String}
    (h : l.put? e = some (p, text)) (q : Place) :
    l.after view e q = if q = p then some (.file (.text text)) else view q := by
  cases e with
  | write x => simp only [after, h]
  | save path text' => simp only [after, h]
  | archive name => exact absurd h (by simp [put?])

theorem after_of_put_eq_none {view : Place → Option Node} {e : Effect} (h : l.put? e = none)
    (he : e.archived? = none) : l.after view e = view := by
  funext q
  cases e with
  | write x => simp only [after, h]
  | save path text => simp only [after, h]
  | archive name => exact absurd he (by simp [Effect.archived?])

theorem place?_migrations (l : f.Located t) : t.place? f.migrations = some l.migrations :=
  (Tree.place?_of_lookup l.lookup_migrations).1

theorem place?_archive (l : f.Located t) : t.place? l.archivePath = some l.archive :=
  (Tree.place?_of_lookup l.lookup_archive).1

/-- An effect that puts a text at a path has it written there. -/
theorem write_eq_ok {path text : String} {e : Effect} (hu : u.Rooted) (hsame : t.SameFolders u)
    (hput : l.put? e = (t.place? path).map (·, text)) (h : u.write path text = .ok u') :
    u'.Rooted ∧ t.SameFolders u' ∧ u'.node? = l.after u.node? e ∧
      (∃ q, t.place? path = some q) ∧ Tree.wantsFolder path = false := by
  obtain ⟨q, hq, hwants, hrooted, hfolders, hnode⟩ := Tree.write_eq_ok hu h
  rw [hsame.place?_eq] at hq
  rw [hq, Option.map_some] at hput
  refine ⟨hrooted, fun r => (hsame r).trans (hfolders r), funext fun r => ?_, ⟨q, hq⟩, hwants⟩
  rw [after_of_put hput, hnode]

/-- A migration is moved into the archive, or it is where it is to go. -/
theorem archive_eq_ok {name : String} (hu : u.Rooted) (hsame : t.SameFolders u)
    (hname : IsEntryName name) (hfile : t.node? (l.migrations ++ [name]) ≠ some .folder)
    (h : f.carryOut u (.archive name) = .ok u') :
    u'.Rooted ∧ t.SameFolders u' ∧ u'.node? = l.after u.node? (.archive name) := by
  have htarget : f.archiveTarget? =
      if Path.same l.archivePath f.migrations then none else some l.archivePath := by
    rw [archiveTarget?, l.archive_eq]
  by_cases hpaths : Path.same l.archivePath f.migrations = true
  · have hplaces : l.archive = l.migrations :=
      Tree.place?_of_same hpaths l.place?_archive l.place?_migrations
    rw [if_pos hpaths] at htarget
    obtain rfl : u = u' := by simpa [carryOut, htarget] using h
    refine ⟨hu, hsame, funext fun q => ?_⟩
    simp only [after, hplaces]
    split
    · rename_i hq
      rw [hq]
    · rfl
  · rw [if_neg hpaths] at htarget
    simp only [carryOut, htarget] at h
    obtain ⟨hrooted, hfolders, hnode⟩ := Tree.move_eq_ok hu hname
      ((hsame.place?_eq _).trans l.place?_migrations) ((hsame.place?_eq _).trans l.place?_archive)
      (fun hfolder => hfile ((hsame _).2 hfolder)) h
    exact ⟨hrooted, fun r => (hsame r).trans (hfolders r), funext hnode⟩

/-- **What an effect does to the places of a tree** whose folders are those of the tree in which
the folders of the squash are located: the folders stay, and the places change as they should. -/
theorem carryOut_eq_ok {e : Effect} (hu : u.Rooted) (hsame : t.SameFolders u)
    (he : ∀ name, e = .archive name →
      IsEntryName name ∧ t.node? (l.migrations ++ [name]) ≠ some .folder)
    (h : f.carryOut u e = .ok u') :
    u'.Rooted ∧ t.SameFolders u' ∧ u'.node? = l.after u.node? e ∧
      ∀ path, f.path? e = some path →
        (∃ q, t.place? path = some q) ∧ Tree.wantsFolder path = false := by
  cases e with
  | write x =>
    have hwrite : u.write (f.scriptPath x.index x.table) x.content = .ok u' := h
    have hput : l.put? (.write x) =
        (t.place? (f.scriptPath x.index x.table)).map (·, x.content) := rfl
    obtain ⟨hrooted, hfolders, hnode, hpath⟩ := write_eq_ok hu hsame hput hwrite
    exact ⟨hrooted, hfolders, hnode, fun path heq => Option.some.inj heq ▸ hpath⟩
  | save path text =>
    have hwrite : u.write path text = .ok u' := h
    have hput : l.put? (.save path text) = (t.place? path).map (·, text) := rfl
    obtain ⟨hrooted, hfolders, hnode, -⟩ := write_eq_ok hu hsame hput hwrite
    exact ⟨hrooted, hfolders, hnode, by simp [path?]⟩
  | archive name =>
    obtain ⟨hname, hfile⟩ := he name rfl
    obtain ⟨hrooted, hfolders, hnode⟩ := archive_eq_ok hu hsame hname hfile h
    exact ⟨hrooted, hfolders, hnode, by simp [path?]⟩

/-- **What effects do to the places of a tree**, one after the other. -/
theorem performAll_eq_ok {r r' : Report} {es : List Effect} (hu : u.Rooted)
    (hsame : t.SameFolders u)
    (hes : ∀ name, .archive name ∈ es →
      IsEntryName name ∧ t.node? (l.migrations ++ [name]) ≠ some .folder)
    (h : (f.store Tree.system).performAll r es u = (.ok r', u')) :
    u'.node? = es.foldl l.after u.node? ∧ t.SameFolders u' ∧
      r' = es.foldl (fun r e => r.enter e (f.path? e)) r ∧
      ∀ e ∈ es, ∀ path, f.path? e = some path →
        (∃ q, t.place? path = some q) ∧ Tree.wantsFolder path = false := by
  induction es generalizing r u with
  | nil =>
    obtain ⟨hr, rfl⟩ := Prod.mk.inj h
    exact ⟨rfl, hsame, (Except.ok.inj hr).symm, by simp⟩
  | cons e es ih =>
    obtain ⟨v, hcarried, hrest⟩ := performAll_cons_eq_ok_iff.1 h
    obtain ⟨hrooted, hfolders, hview, hpaths⟩ := carryOut_eq_ok hu hsame
      (fun name hname => hes name (hname ▸ List.mem_cons_self)) hcarried
    obtain ⟨hviews, hfolders', hreport, hpaths'⟩ := ih hrooted hfolders
      (fun name hname => hes name (List.mem_cons_of_mem e hname)) hrest
    refine ⟨by rw [hviews, hview, List.foldl_cons], hfolders', hreport, ?_⟩
    intro e' he'
    rcases List.mem_cons.1 he' with rfl | he'
    · exact hpaths
    · exact hpaths' e' he'

/-! ### All effects of a plan -/

variable (l) in
/-- The text that is **written last** to a place, if something is written there. -/
def lastText (es : List Effect) (q : Place) : Option String :=
  (Dict.ofList (es.filterMap l.put?)).find? q

variable (l) in
/-- What stands at a place when everything is written and nothing is moved yet. -/
def standing (es : List Effect) (q : Place) : Option Node :=
  match l.lastText es q with
  | some text => some (.file (.text text))
  | none => t.node? q

/-- What stands at a place after writing is what was written there last. -/
theorem foldl_after_writes {es : List Effect} (h : ∀ e ∈ es, e.archived? = none)
    (view : Place → Option Node) (q : Place) :
    es.foldl l.after view q = match l.lastText es q with
      | some text => some (.file (.text text))
      | none => view q := by
  -- The last effect decides first, so the induction takes it off the end.
  induction es using List.reverseRecOn with
  | nil => rfl
  | append_singleton es e ih =>
    have hview := ih fun e' he' => h e' (List.mem_append_left _ he')
    rw [List.foldl_append, List.foldl_cons, List.foldl_nil]
    cases hput : l.put? e with
    | none =>
      rw [after_of_put_eq_none hput (h e (by simp)), hview, lastText, lastText, List.filterMap_append,
        List.filterMap_cons_none hput, List.filterMap_nil, List.append_nil]
    | some x =>
      obtain ⟨p, text⟩ := x
      rw [after_of_put hput, lastText, List.filterMap_append, List.filterMap_cons_some hput,
        List.filterMap_nil, Dict.ofList_concat]
      by_cases hq : q = p
      · rw [if_pos hq, hq, Dict.find?_insert_self]
      · rw [if_neg hq, hview, Dict.find?_insert_of_ne _ hq, lastText]

/-- The places of a name that is not among others are not places of the others. -/
theorem concat_ne_of_not_mem {names : List String} {name : String} (h : name ∉ names) (p : Place) :
    ∀ name' ∈ names, p ++ [name] ≠ l.archive ++ [name'] ∧ p ++ [name] ≠ l.migrations ++ [name'] := by
  have hne : ∀ p' : Place, ∀ name' ∈ names, p ++ [name] ≠ p' ++ [name'] :=
    fun p' name' hname' heq => h ((List.append_singleton_inj.1 heq).2 ▸ hname')
  exact fun name' hname' => ⟨hne _ name' hname', hne _ name' hname'⟩

/-- **Moving migrations** whose names are different takes each of them to the archive, leaves its
place, unless that is in the archive, and changes nothing else. -/
theorem foldl_after_archives {names : List String} (hnodup : names.Nodup)
    (view : Place → Option Node) :
    (∀ name ∈ names, (names.map Effect.archive).foldl l.after view (l.archive ++ [name]) =
      view (l.migrations ++ [name])) ∧
    (∀ name ∈ names, l.migrations ≠ l.archive →
      (names.map Effect.archive).foldl l.after view (l.migrations ++ [name]) = none) ∧
    ∀ q, (∀ name ∈ names, q ≠ l.archive ++ [name] ∧ q ≠ l.migrations ++ [name]) →
      (names.map Effect.archive).foldl l.after view q = view q := by
  induction names generalizing view with
  | nil => simp
  | cons n names ih =>
    obtain ⟨hn, hnodup⟩ := List.nodup_cons.1 hnodup
    obtain ⟨harchived, hvacated, hother⟩ := ih hnodup (l.after view (.archive n))
    rw [List.map_cons, List.foldl_cons]
    -- What was moved first stays where it is, because the other names are not its name.
    have happly : ∀ p : Place, (names.map Effect.archive).foldl l.after
        (l.after view (.archive n)) (p ++ [n]) = l.after view (.archive n) (p ++ [n]) :=
      fun p => hother _ (concat_ne_of_not_mem hn p)
    refine ⟨fun name hname => ?_, fun name hname hplaces => ?_, fun q hq => ?_⟩
    · rcases List.mem_cons.1 hname with rfl | hname
      · rw [happly]
        simp only [after, if_true]
      · rw [harchived name hname]
        have hplaces : ∀ p, l.migrations ++ [name] ≠ p ++ [n] := fun p heq =>
          hn ((List.append_singleton_inj.1 heq).2 ▸ hname)
        simp only [after, if_neg (hplaces _)]
    · rcases List.mem_cons.1 hname with rfl | hname
      · rw [happly]
        have hmoved : l.migrations ++ [name] ≠ l.archive ++ [name] := by simpa using hplaces
        simp only [after, if_neg hmoved, if_true]
      · exact hvacated name hname hplaces
    · obtain ⟨harchive, hmigrations⟩ := hq n List.mem_cons_self
      rw [hother q fun name hname => hq name (List.mem_cons_of_mem n hname)]
      simp only [after, if_neg harchive, if_neg hmigrations]

end Located

/-- What is entered in the report of a run. -/
theorem foldl_enter (f : Folders) (r : Report) (es : List Effect) :
    es.foldl (fun r e => r.enter e (f.path? e)) r =
      { r with
        written := r.written ++ es.filterMap f.path?
        archived := r.archived ++ es.filterMap Effect.archived? } := by
  induction es generalizing r with
  | nil => simp
  | cons e es ih =>
    rw [List.foldl_cons, ih, Report.enter]
    cases hpath : f.path? e <;> cases harchived : e.archived? <;>
      simp [hpath, harchived]

namespace Located

variable {l : f.Located t} {o : SquashOptions} {r : Report} {t' : Tree}

/-! ### Whole runs -/

/-- What a run that succeeds **comes to**. -/
structure Outcome (l : f.Located t) (o : SquashOptions) (r : Report) (t' : Tree) : Prop where
  scripts : r.scripts = r.plan.scripts
  written : r.written = (r.plan.effects o).filterMap f.path?
  archived : r.archived = (r.plan.effects o).filterMap Effect.archived?
  nodup : r.archived.Nodup
  /-- What is archived was a migration. -/
  sources : ∀ name ∈ r.archived, ∃ s, t.textAt? (l.migrations ++ [name]) = some s
  folders : t.SameFolders t'
  paths : ∀ e ∈ r.plan.effects o, ∀ path, f.path? e = some path →
    (∃ q, t.place? path = some q) ∧ Tree.wantsFolder path = false
  view : t'.node? = (r.plan.effects o).foldl l.after t.node?

/-- A run that succeeds has listed the migrations, has made a plan, and has carried out the effects
of the plan. -/
theorem outcome (ht : t.Proper) (l : f.Located t)
    (h : (f.store Tree.system).squash o t = (.ok r, t')) : l.Outcome o r t' := by
  obtain ⟨ms, p, hlist, hp, hrun⟩ := squash_eq_ok_iff.1 h
  obtain ⟨answer, hanswer, hms⟩ := f.list_eq t
  obtain rfl : answer = .ok ms := (Prod.mk.inj (hanswer.symm.trans hlist)).1
  obtain ⟨names, hnames, hperm, hreads⟩ := hms ms rfl
  obtain ⟨q, hq, -, hnodup, hfiles⟩ := Tree.fileNames_eq_ok ht hnames
  obtain rfl : l.migrations = q := Option.some.inj (l.place?_migrations.symm.trans hq)
  obtain ⟨ws, archived, heffects, hws, hsub⟩ := p.exists_effects_eq o
  have hsublist : archived.Sublist (ms.map (·.name)) :=
    hsub.trans (Replay.sublist_of_sources (Plan.ofMigrations_eq_ok hp).2.2)
  have harchived : (p.effects o).filterMap Effect.archived? = archived := by
    rw [heffects, Effect.filterMap_archived? hws]
  have hmem : ∀ name, .archive name ∈ p.effects o → name ∈ names := fun name hname => by
    have hfound : name ∈ (p.effects o).filterMap Effect.archived? :=
      List.mem_filterMap.2 ⟨_, hname, rfl⟩
    exact hperm.mem_iff.1 (hsublist.subset (harchived ▸ hfound))
  obtain ⟨hview, hfolders, hreport, hpaths⟩ := performAll_eq_ok (l := l) ht.rooted
    (fun _ => Iff.rfl) (fun name hname => by
      obtain ⟨hentry, c, hc⟩ := hfiles name (hmem name hname)
      exact ⟨hentry, by simp [hc]⟩) hrun
  rw [foldl_enter] at hreport
  subst hreport
  refine ⟨rfl, rfl, rfl, ?_, fun name hname => ?_, hfolders, hpaths, hview⟩
  · rw [harchived, List.nil_append]
    exact (hperm.nodup_iff.2 hnodup).sublist hsublist
  · rw [harchived, List.nil_append] at hname
    obtain ⟨m, hm, rfl⟩ := List.mem_map.1 (hsublist.subset hname)
    obtain ⟨q, hq, htext⟩ := Tree.textAt?_of_read (hreads m hm)
    have hentry := (hfiles m.name (hperm.mem_iff.1 (List.mem_map_of_mem hm))).1
    obtain rfl := Tree.place?_join hentry l.place?_migrations hq
    exact ⟨m.text, htext⟩

/-- A run does nothing but plan, or it writes all scripts and reports where each of them is. -/
theorem Outcome.written_cases (h : l.Outcome o r t') :
    (r.plan.effects o = [] ∧ r.written = []) ∨
    (r.written = r.scripts.map (fun x => f.scriptPath x.index x.table) ∧
      ∀ x, .write x ∈ r.plan.effects o ↔ x ∈ r.scripts) := by
  cases hdry : o.dryRun with
  | true =>
    have hnone : r.plan.effects o = [] := by simp [Plan.effects, hdry]
    exact Or.inl ⟨hnone, by rw [h.written, hnone, List.filterMap_nil]⟩
  | false =>
    rw [h.written, h.scripts, r.plan.effects_eq_sequence hdry, Plan.sequence]
    refine Or.inr ⟨?_, fun x => ?_⟩
    · have hscripts : (r.plan.scripts.map Effect.write).filterMap f.path? =
          r.plan.scripts.map fun x => f.scriptPath x.index x.table := by
        rw [List.filterMap_map, ← List.filterMap_eq_map]
        rfl
      have hmoves : (r.plan.schemaSources.map Effect.archive).filterMap f.path? = [] :=
        List.filterMap_eq_nil_iff.2 (by simp [path?])
      rw [List.filterMap_append, List.filterMap_append, hscripts, hmoves]
      cases o.snapshot <;> simp [path?]
    · cases o.snapshot <;> simp

/-- What a run archives. -/
theorem Outcome.mem_archived (h : l.Outcome o r t') {name : String} :
    name ∈ r.archived ↔ .archive name ∈ r.plan.effects o := by
  rw [h.archived, List.mem_filterMap]
  constructor
  · rintro ⟨e, he, hname⟩
    cases e <;> simp_all [Effect.archived?]
  · exact fun hname => ⟨_, hname, rfl⟩

/-- **What stands where after a run**: an archived migration in the archive with what was written
over it, nothing where it was, and everywhere else what was written there last. -/
theorem Outcome.node? (h : l.Outcome o r t') :
    (∀ name ∈ r.archived, t'.node? (l.archive ++ [name]) =
      l.standing (r.plan.effects o) (l.migrations ++ [name])) ∧
    (∀ name ∈ r.archived, l.migrations ≠ l.archive →
      t'.node? (l.migrations ++ [name]) = none) ∧
    ∀ q, (∀ name ∈ r.archived, q ≠ l.archive ++ [name] ∧ q ≠ l.migrations ++ [name]) →
      t'.node? q = l.standing (r.plan.effects o) q := by
  obtain ⟨ws, names, heffects, hws, -⟩ := r.plan.exists_effects_eq o
  have hputs : (names.map Effect.archive).filterMap l.put? = [] := by
    refine List.filterMap_eq_nil_iff.2 fun e he => ?_
    obtain ⟨name, -, rfl⟩ := List.mem_map.1 he
    rfl
  have hwritten : ∀ q, ws.foldl l.after t.node? q = l.standing (r.plan.effects o) q := by
    intro q
    rw [foldl_after_writes hws, standing, heffects, lastText, lastText, List.filterMap_append, hputs,
      List.append_nil]
  have harchived : r.archived = names := by
    rw [h.archived, heffects, Effect.filterMap_archived? hws]
  have hview : t'.node? = (names.map Effect.archive).foldl l.after (ws.foldl l.after t.node?) := by
    rw [h.view, heffects, List.foldl_append]
  obtain ⟨hmoved, hvacated, hother⟩ :=
    foldl_after_archives (l := l) (harchived ▸ h.nodup) (ws.foldl l.after t.node?)
  rw [hview, harchived]
  refine ⟨fun name hname => ?_, hvacated, fun q hq => ?_⟩
  · rw [hmoved name hname, hwritten]
  · rw [hother q hq, hwritten]

end Located

end Folders

end SchemaHistory

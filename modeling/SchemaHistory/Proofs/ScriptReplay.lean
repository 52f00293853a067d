import SchemaHistory.Proofs.HeadLines
import SchemaHistory.Proofs.RebuiltTables
import SchemaHistory.Proofs.Replays

/-!
# Replaying a script

The logical lines of a script are replayed one after the other, and what a stretch of lines leads
to is put together from what its parts lead to (`SchemaHistory.Replay.Leads`). Three stretches
make up a script:

* the lines before the table is opened do nothing,
* the statements between the braces of the table rebuild it, and each of them turns the table that
  is open into another one,
* the lines behind close the block, and the head of the reverse direction ends the source.

So replaying the script of a plain table adds that table to the schema
(`SchemaHistory.Table.Plain.source`), but for a primary key that an increments column implies
(`SchemaHistory.Table.withoutImpliedKey`).
-/

namespace SchemaHistory

open Source Text

namespace Replay

/-! ### Stretches of lines -/

/-- A stretch of lines **leads** from one state to another, whatever stands before and behind it.
The flag says whether it holds a schema operation. -/
def Leads (r : Replay) (texts : List String) (operation : Bool) (r' : Replay) : Prop :=
  ∀ (source : String) (n : Nat) (before : Bool) (rest : List String), ∃ m,
    lines source n before r (texts ++ rest) = lines source m (before || operation) r' rest

theorem Leads.nil (r : Replay) : Leads r [] false r := fun _ n before _ =>
  ⟨n, by rw [Bool.or_false]; rfl⟩

theorem Leads.append {r r' r'' : Replay} {xs ys : List String} {a b : Bool}
    (hx : Leads r xs a r') (hy : Leads r' ys b r'') : Leads r (xs ++ ys) (a || b) r'' := by
  intro source n before rest
  obtain ⟨m, hm⟩ := hx source n before (ys ++ rest)
  obtain ⟨k, hk⟩ := hy source m (before || a) rest
  exact ⟨k, by rw [List.append_assoc, hm, hk, Bool.or_assoc]⟩

/-- One line leads where its step leads. -/
theorem Leads.of_line {r r' : Replay} {text : String} {operation : Bool}
    (h : ∀ l, r.line text l = (r', .proceed operation)) : Leads r [text] operation r' := by
  intro source n before rest
  refine ⟨n + 1, ?_⟩
  rw [List.singleton_append, lines, h]

/-- Lines that do nothing lead nowhere. -/
theorem Leads.of_silent {r : Replay} {texts : List String}
    (h : ∀ text ∈ texts, ∀ l, r.line text l = (r, .proceed false)) : Leads r texts false r := by
  induction texts with
  | nil => exact .nil r
  | cons text texts ih =>
    have hfirst : Leads r [text] false r := .of_line (h text List.mem_cons_self)
    exact hfirst.append (ih fun t ht => h t (List.mem_cons_of_mem text ht))

/-- Outside of tables a quiet line without a colon does nothing. -/
theorem line_silent {r : Replay} (hr : r.current = none) {text : String}
    (h : Quiet text.toList ∧ '\x7d' ∉ text.toList ∧ ':' ∉ text.toList) (l : Location) :
    r.line text l = (r, .proceed false) := by
  have hcurrent : r.current.isSome = false := by rw [hr]; rfl
  rw [line, hcurrent, recognize_silent h.1 h.2]

/-! ### Inside the block of a table -/

/-- The state inside the block of a table, which is stored under its name. -/
def inside (r : Replay) (t : Table) : Replay :=
  { r with schema := r.schema.setTable t.name t, current := some t.name }

theorem setTable_inside (r : Replay) {t t' : Table} (h : t'.name = t.name) :
    { r.inside t with schema := (r.inside t).schema.setTable t.name t' } = r.inside t' := by
  have hset := r.schema.setTable_setTable t.name t t'
  rw [inside, inside, hset, h]

/-- **A chain on the open table changes it** as the table says. -/
theorem line_chain {t t' : Table} {k : Link} {ks : List Link} (htame : ∀ l ∈ k :: ks, l.Tame)
    (happly : ∀ l, t.apply t.name k.call ⟨"$table", (k :: ks).map Link.call⟩ l = .ok (t', []))
    {text : String} (htext : text.toList = chainText (k :: ks)) (r : Replay) (l : Location) :
    (r.inside t).line text l = (r.inside t', .proceed false) := by
  have hname : t'.name = t.name := Table.name_apply (happly l)
  have ht : (r.inside t).schema.table? t.name = some t :=
    r.schema.table?_setTable t.name t
  have hcall : (r.inside t).call ⟨"$table", (k :: ks).map Link.call⟩ l = (r.inside t', none) := by
    rw [call_inside rfl ht rfl, happly]
    simp only
    rw [r.setTable_inside hname, report, List.append_nil]
  have hcurrent : (r.inside t).current.isSome = true := rfl
  rw [line, htext, hcurrent, recognize_chainText htame]
  simp only [step]
  rw [hcall]

/-- **An assignment on the open table changes it** as the table says. -/
theorem line_option {property value : String} (hproperty : property ∈ Table.optionNames)
    (hvalue : Quoted value) (t : Table) (r : Replay) (l : Location) :
    (r.inside t).line ("$table->" ++ property ++ " = " ++ literal value ++ ";") l =
      (r.inside (t.assign property value), .proceed false) := by
  have ht : (r.inside t).schema.table? t.name = some t :=
    r.schema.table?_setTable t.name t
  have hassign : (r.inside t).assign property value = r.inside (t.assign property value) := by
    rw [assign_inside rfl ht]
    exact r.setTable_inside (t.name_assign property value)
  have hcurrent : (r.inside t).current.isSome = true := rfl
  rw [line, toList_option, hcurrent, recognize_option hproperty hvalue]
  simp only [step]
  rw [hassign]

/-- Statements that each turn the open table into another one lead to the last one. -/
theorem Leads.of_items {α : Type} {text : α → String} {f : Table → α → Table} {items : List α}
    {r : Replay} (h : ∀ a ∈ items, ∀ t l,
      (r.inside t).line (text a) l = (r.inside (f t a), .proceed false)) (t : Table) :
    Leads (r.inside t) (items.map text) false (r.inside (items.foldl f t)) := by
  induction items generalizing t with
  | nil => exact .nil _
  | cons a items ih =>
    have hfirst : Leads (r.inside t) [text a] false (r.inside (f t a)) :=
      .of_line (h a List.mem_cons_self t)
    exact hfirst.append (ih (fun b hb => h b (List.mem_cons_of_mem a hb)) (f t a))

end Replay

/-! ### The statements of a table -/

namespace Table

/-- The primary key that is written: the one of the table, unless an increments column is it. -/
def writtenKey (t : Table) : Option String :=
  t.primaryKey.filter fun key => !(t.columns.find? key).any (·.type.isIncrements)

/-- The table **without an implied key**: its primary key is gone if it is an increments
column. -/
def withoutImpliedKey (t : Table) : Table :=
  { t with primaryKey := t.writtenKey }

theorem primaryStatement?_eq (t : Table) :
    t.primaryStatement? = t.writtenKey.map fun key => "$table->primary(" ++ literal key ++ ");" := by
  rw [primaryStatement?, writtenKey]
  cases t.primaryKey with
  | none => rfl
  | some key =>
    rw [Option.bind_some]
    cases hf : t.columns.find? key with
    | none => simp [Option.filter, hf]
    | some c => cases hc : c.type.isIncrements <;> simp [Option.filter, hf, hc]

/-- An option that is set is assigned once. -/
theorem foldl_assign (t : Table) (value : Option String) :
    (t.engine = none → value.toList.foldl (·.assign "engine" ·) t = { t with engine := value }) ∧
      (t.charset = none →
        value.toList.foldl (·.assign "charset" ·) t = { t with charset := value }) ∧
      (t.collation = none →
        value.toList.foldl (·.assign "collation" ·) t = { t with collation := value }) := by
  cases value with
  | some v => exact ⟨fun _ => rfl, fun _ => rfl, fun _ => rfl⟩
  | none =>
    refine ⟨fun h => ?_, fun h => ?_, fun h => ?_⟩
    · have heta : { t with engine := none } = t := by rw [← h]
      exact heta.symm
    · have heta : { t with charset := none } = t := by rw [← h]
      exact heta.symm
    · have heta : { t with collation := none } = t := by rw [← h]
      exact heta.symm

/-- The statement for an option, if there is one, assigns it. -/
theorem leads_option {property : String} (hproperty : property ∈ optionNames)
    {value : Option String} (hvalue : ∀ v ∈ value, Quoted v) (t : Table) (r : Replay) :
    Replay.Leads (r.inside t) (optionStatement? property value).toList false
      (r.inside (value.toList.foldl (·.assign property ·) t)) := by
  rw [optionStatement?, Option.toList_map]
  exact .of_items (fun v hv t l =>
    Replay.line_option hproperty (hvalue v (Option.mem_toList.1 hv)) t r l) t

/-- The statement for the primary key, if there is one, sets it. -/
theorem leads_primary {t : Table} (h : ∀ key ∈ t.primaryKey, Quoted key) {u : Table}
    (hu : u.primaryKey = none) (r : Replay) :
    Replay.Leads (r.inside u) t.primaryStatement?.toList false
      (r.inside { u with primaryKey := t.writtenKey }) := by
  have hwritten : ∀ key ∈ t.writtenKey, Quoted key := fun key hkey =>
    h key (Option.mem_filter_iff.1 hkey).1
  have hfold : t.writtenKey.toList.foldl (fun u key => { u with primaryKey := some key }) u =
      { u with primaryKey := t.writtenKey } := by
    cases t.writtenKey with
    | some key => rfl
    | none =>
      have heta : { u with primaryKey := none } = u := by rw [← hu]
      exact heta.symm
  have hline : ∀ key ∈ t.writtenKey.toList, ∀ (u : Table) l,
      (r.inside u).line ("$table->primary(" ++ literal key ++ ");") l =
        (r.inside { u with primaryKey := some key }, .proceed false) := by
    intro key hkey u l
    have hquoted := hwritten key (Option.mem_toList.1 hkey)
    have htame : ∀ k ∈ [(⟨"primary", literal key⟩ : Link)], k.Tame := by
      intro k hk
      obtain rfl := List.mem_singleton.1 hk
      exact ⟨(by decide : isWord "primary".toList = true), hquoted.tame⟩
    exact Replay.line_chain htame (apply_primary hquoted u u.name) (toList_primary key) r l
  rw [primaryStatement?_eq, Option.toList_map, ← hfold]
  exact .of_items hline u

/-- **The statements of a plain table rebuild it.** -/
theorem Plain.leads_statements {t : Table} (h : t.Plain) (r : Replay) :
    Replay.Leads (r.inside { name := t.name }) t.statements false
      (r.inside t.withoutImpliedKey) := by
  have hcolumns : ∀ c ∈ t.columns.values, ∀ (u : Table) l,
      (r.inside u).line c.statement l = (r.inside (u.addColumn c), .proceed false) := by
    intro c hc u l
    have hplain := h.columns c hc
    exact Replay.line_chain hplain.tame_links (hplain.apply u u.name) c.toList_statement r l
  have hrelationships : ∀ s ∈ t.relationships, ∀ (u : Table) l,
      (r.inside u).line s.statement l = (r.inside (u.addRelationship s), .proceed false) := by
    intro s hs u l
    have hplain := h.relationships s hs
    exact Replay.line_chain hplain.tame_links (hplain.apply u u.name) s.toList_statement r l
  -- The table grows by one field with each kind of statement.
  have h1 := leads_option (by decide : "engine" ∈ optionNames)
    (fun v hv => (h.engine v hv).quoted) { name := t.name } r
  rw [(foldl_assign _ _).1 rfl] at h1
  have h2 := leads_option (by decide : "charset" ∈ optionNames)
    (fun v hv => (h.charset v hv).quoted) { name := t.name, engine := t.engine } r
  rw [(foldl_assign _ _).2.1 rfl] at h2
  have h3 := leads_option (by decide : "collation" ∈ optionNames)
    (fun v hv => (h.collation v hv).quoted)
    { name := t.name, engine := t.engine, charset := t.charset } r
  rw [(foldl_assign _ _).2.2 rfl] at h3
  have h4 := Replay.Leads.of_items hcolumns
    { name := t.name, engine := t.engine, charset := t.charset, collation := t.collation }
  rw [foldl_addColumn h.keys rfl] at h4
  have h5 := leads_primary (fun key hkey => (h.primaryKey key hkey).quoted) (u :=
    { name := t.name, engine := t.engine, charset := t.charset, collation := t.collation
      columns := t.columns }) rfl r
  have h6 := Replay.Leads.of_items hrelationships
    { name := t.name, engine := t.engine, charset := t.charset, collation := t.collation
      primaryKey := t.writtenKey, columns := t.columns }
  rw [foldl_addRelationship (by exact h.distinct)] at h6
  exact ((((h1.append h2).append h3).append h4).append h5).append h6

/-! ### A whole script -/

/-- The statement that opens a table enters its block. -/
theorem Plain.line_createText {t : Table} (h : t.Plain) {r : Replay} (hr : r.current = none)
    (hnew : t.name ∉ r.schema.tableNames) (l : Location) :
    r.line t.createText l = (r.inside { name := t.name }, .proceed true) := by
  have hcontains : r.schema.tables.contains t.name = false := by
    cases hc : r.schema.tables.contains t.name with
    | false => rfl
    | true => exact absurd (Dict.mem_keys_iff_contains.2 hc) hnew
  have hopen : r.schema.openTable t.name = r.schema.setTable t.name { name := t.name } := by
    rw [Schema.openTable, hcontains, if_neg (by simp)]
    rfl
  have hcurrent : r.current.isSome = false := by rw [hr]; rfl
  rw [Replay.line, hcurrent, recognize_createText h.name.quoted]
  simp only [Replay.step, Replay.direct]
  rw [hopen]
  rfl

/-- The logical lines of a script, if each of its statements is one line. -/
theorem normalize_scriptText {t : Table} (hcreate : IsLine t.createText.toList)
    (hstatements : ∀ st ∈ t.statements, IsLine st.toList)
    (hclass : ∀ c ∈ (className t.name).toList, endsLine c = false ∧ c ≠ '\n') :
    ∃ rest, Source.normalize t.scriptText =
      ["<?php use Illuminate\\Database\\Migrations\\Migration;",
        "use Illuminate\\Database\\Schema\\Blueprint;",
        "use Illuminate\\Support\\Facades\\Schema;"] ++ (t.classLines.map String.ofList ++
      ([t.createText] ++ (t.statements ++
      (["\x7d", ");", "\x7d"] ++ "public function down() \x7b" :: rest)))) := by
  obtain ⟨rest, hrest⟩ := lines_scriptText hcreate hstatements hclass
  have hback : ∀ texts : List String, (texts.map String.toList).map String.ofList = texts := by
    intro texts
    rw [List.map_map]
    exact (List.map_congr_left fun s _ => String.ofList_toList).trans (List.map_id _)
  refine ⟨rest.map String.ofList, ?_⟩
  rw [Source.normalize, hrest]
  simp only [List.map_append, List.map_cons, String.ofList_toList, hback, List.cons_append,
    List.nil_append]

/-- **The lines before the statement that opens the table do nothing.** -/
theorem Plain.leads_head {t : Table} (h : t.Plain) {r : Replay} (hr : r.current = none) :
    Replay.Leads r (["<?php use Illuminate\\Database\\Migrations\\Migration;",
      "use Illuminate\\Database\\Schema\\Blueprint;",
      "use Illuminate\\Support\\Facades\\Schema;"] ++ t.classLines.map String.ofList) false r := by
  refine .of_silent fun text htext => Replay.line_silent hr ?_
  rcases List.mem_append.1 htext with htext | htext
  · simp only [List.mem_cons, List.not_mem_nil, or_false] at htext
    rcases htext with rfl | rfl | rfl
    · exact ⟨.of_run (v := .idle) (u := .idle) (by decide) (by decide) rfl rfl, by decide, by decide⟩
    · exact ⟨.of_run (v := .idle) (u := .idle) (by decide) (by decide) rfl rfl, by decide, by decide⟩
    · exact ⟨.of_run (v := .idle) (u := .idle) (by decide) (by decide) rfl rfl, by decide, by decide⟩
  · obtain ⟨line, hline, rfl⟩ := List.mem_map.1 htext
    rw [String.toList_ofList]
    exact quiet_classLines h.name line hline

/-- **The lines behind the statements close the block**, and nothing behind them is replayed. -/
theorem lines_tail (source : String) (n : Nat) (operation : Bool) (r : Replay)
    (rest : List String) :
    Replay.lines source n operation r
        (["\x7d", ");", "\x7d"] ++ "public function down() \x7b" :: rest) =
      ({ r with current := none }, .ok operation) := by
  have hclose : ∀ (r : Replay) l, r.line "\x7d" l = ({ r with current := none }, .proceed false) := by
    intro r l
    have hdown : ¬Statement.opensDown "\x7d".toList = true := by decide
    have hbrace : "\x7d".toList.contains '\x7d' = true := by decide
    rw [Replay.line, Statement.recognize, if_neg hdown, if_pos hbrace]
    rfl
  have hend : ∀ l, ({ r with current := none } : Replay).line ");" l =
      ({ r with current := none }, .proceed false) :=
    Replay.line_silent rfl ⟨quiet_of_not_isBlank (by decide), by decide, by decide⟩
  have hdown : ∀ (r : Replay) l, r.line "public function down() \x7b" l = (r, .stop) := by
    intro r l
    have hopens : Statement.opensDown "public function down() \x7b".toList = true := by decide
    rw [Replay.line, Statement.recognize, if_pos hopens]
    rfl
  simp only [List.cons_append, List.nil_append]
  rw [Replay.lines, hclose]
  simp only
  rw [Replay.lines, hend]
  simp only
  rw [Replay.lines, hclose]
  simp only
  rw [Replay.lines, hdown]
  simp only [Bool.or_false]

/-- **Replaying the script of a plain table adds the table.** -/
theorem Plain.source {t : Table} (h : t.Plain) {r : Replay} (hr : r.current = none)
    (hnew : t.name ∉ r.schema.tableNames) (name : String) :
    r.source ⟨name, t.scriptText⟩ =
      ({ r with schema := r.schema.setTable t.name t.withoutImpliedKey }, .ok true) := by
  have hw := h.writable
  obtain ⟨rest, hrest⟩ := normalize_scriptText hw.isLine_createText hw.isLine hw.className_inline
  have hstart : { r with current := none } = r := by rw [← hr]
  have hcreate : Replay.Leads r [t.createText] true (r.inside { name := t.name }) :=
    .of_line (h.line_createText hr hnew)
  have hlead := (h.leads_head hr).append (hcreate.append (h.leads_statements r))
  obtain ⟨m, hm⟩ := hlead name 1 false (["\x7d", ");", "\x7d"] ++
    "public function down() \x7b" :: rest)
  rw [lines_tail] at hm
  have hlines : Replay.lines name 1 false r (Source.normalize t.scriptText) =
      ({ r.inside t.withoutImpliedKey with current := none }, .ok true) := by
    rw [hrest, ← List.append_assoc, ← List.append_assoc [t.createText], ← List.append_assoc]
    exact hm
  have hinside : ({ r.inside t.withoutImpliedKey with current := none } : Replay) =
      { r with schema := r.schema.setTable t.name t.withoutImpliedKey } := by
    rw [Replay.inside, ← hr]
    rfl
  rw [Replay.source, hstart, hlines]
  simp only
  rw [hinside]

end Table

end SchemaHistory

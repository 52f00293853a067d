import SchemaHistory.Proofs.Calls
import SchemaHistory.Proofs.PlainSchemas

/-!
# Rebuilding a table

The statements of a plain table, made one after the other on a table that has nothing but its
name, rebuild the table. Each statement does one thing: the call for a column adds that column
(`SchemaHistory.Column.Plain.apply`), the call for a relationship adds that relationship
(`SchemaHistory.Relationship.Plain.apply`), and a row of them adds them all, in order, because the
columns are stored under their names and no two relationships belong to one column
(`SchemaHistory.Table.Plain.foldl_addColumn`, `SchemaHistory.Table.Plain.foldl_addRelationship`).

One thing is not written: the primary key, if it is an increments column. Such a column is a
primary key by itself.
-/

namespace SchemaHistory

open Source Text

/-! ### Columns -/

namespace Builder

/-- No builder call has another meaning. -/
theorem name_ne (b : Builder) : b.name ≠ "primary" ∧ b.name ≠ "constrained" := by
  cases b <;> decide

end Builder

namespace Column

/-- The chain of the statement that defines a column. -/
def chain (c : Column) : Chain :=
  ⟨"$table", c.links.map Link.call⟩

/-- Each flag that is written is set. -/
theorem applyModifier_flags (c : Column) :
    c.applyModifier (Link.call ⟨"unsigned", ""⟩) = { c with unsigned := true } ∧
      c.applyModifier (Link.call ⟨"nullable", ""⟩) = { c with nullable := true } ∧
      c.applyModifier (Link.call ⟨"unique", ""⟩) = { c with unique := true } := by
  rw [Link.call_empty, Link.call_empty, Link.call_empty]
  exact ⟨rfl, rfl, rfl⟩

/-- The links for the flags set those that are there. -/
theorem foldl_flags (unsigned nullable unique : Bool) (c : Column) :
    (((if unsigned then [⟨"unsigned", ""⟩] else []) ++
        ((if nullable then [⟨"nullable", ""⟩] else []) ++
          (if unique then [⟨"unique", ""⟩] else [])) : List Link).map Link.call).foldl
      applyModifier c =
    { c with
      unsigned := c.unsigned || unsigned
      nullable := c.nullable || nullable
      unique := c.unique || unique } := by
  cases unsigned <;> cases nullable <;> cases unique <;> simp [applyModifier_flags]

namespace Plain

variable {c : Column}

/-- The first call of the chain says everything but the modifiers. -/
theorem ofHead_call (h : c.Plain) (l : Location) :
    ofHead c.type (Link.call ⟨c.type.name, c.argumentsText⟩) l =
      .ok { type := c.type, name := c.name, parameters := c.parameters } := by
  rw [ofHead]
  cases hs : c.type.isStructural with
  | true =>
    have hname : c.name = c.type.name := h.structural hs
    have hraw : nonempty? (Link.call ⟨c.type.name, c.argumentsText⟩).rawArgs = c.parameters := by
      rw [argumentsText, isStructural, hs, if_pos rfl]
      cases hp : c.parameters with
      | none => rw [Option.getD_none, Link.call_empty]; rfl
      | some text =>
        have hlegible := (h.parameters text hp).legible
        have hne : text.isEmpty = false := by simpa using hlegible.nonempty
        rw [Option.getD_some, Link.rawArgs_call hlegible, nonempty?, if_neg (by simp [hne])]
    rw [if_pos rfl, hraw, hname]
    rfl
  | false =>
    have hquoted := h.name.quoted
    have hnot : ¬c.isStructural = true := by simp [isStructural, hs]
    rw [if_neg (by simp)]
    cases hp : c.parameters with
    | none =>
      have hargs : c.argumentsText = literal c.name := by
        rw [argumentsText, if_neg hnot, hp]
      rw [hargs, (Link.stringAt?_call hquoted.toQuotable).1, contentOf_eq hquoted.escapeFree,
        (Link.trailingArgs_call hquoted.toQuotable).1]
      rfl
    | some text =>
      have hargs : c.argumentsText = literal c.name ++ ", " ++ text := by
        rw [argumentsText, if_neg hnot, hp]
      rw [hargs, (Link.stringAt?_call hquoted.toQuotable).2, contentOf_eq hquoted.escapeFree,
        (Link.trailingArgs_call hquoted.toQuotable).2 text (h.parameters text hp).legible]
      rfl

/-- The modifiers add what the first call leaves out. -/
theorem foldl_modifiers (h : c.Plain) :
    (c.modifierLinks.map Link.call).foldl applyModifier
      { type := c.type, name := c.name, parameters := c.parameters } = c := by
  have hdefault : ∀ d : Column, d.default = none →
      ((c.default.map fun text => (⟨"default", text⟩ : Link)).toList.map Link.call).foldl
        applyModifier d = { d with default := c.default } := by
    intro d hd
    cases hc : c.default with
    | none =>
      have heta : { d with default := none } = d := by rw [← hd]
      exact heta.symm
    | some text =>
      have hraw : (Link.call ⟨"default", text⟩).rawArgs = text :=
        Link.rawArgs_call (h.default text hc).legible
      have hset : d.applyModifier (Link.call ⟨"default", text⟩) =
          { d with default := some (Link.call ⟨"default", text⟩).rawArgs } := rfl
      rw [hraw] at hset
      exact hset
  have hlinks : c.modifierLinks = ((if c.unsigned then [⟨"unsigned", ""⟩] else []) ++
      ((if c.nullable then [⟨"nullable", ""⟩] else []) ++
        (if c.unique then [⟨"unique", ""⟩] else []))) ++
          (c.default.map fun text => (⟨"default", text⟩ : Link)).toList := by
    simp [modifierLinks]
  rw [hlinks, List.map_append, List.foldl_append, foldl_flags, hdefault _ rfl]
  simp

/-- **The chain of a plain column defines it.** -/
theorem ofChain_chain (h : c.Plain) (l : Location) : ofChain c.type c.chain l = .ok c := by
  have hread : ofChain c.type c.chain l =
      (ofHead c.type (Link.call ⟨c.type.name, c.argumentsText⟩) l).map
        ((c.modifierLinks.map Link.call).foldl applyModifier ·) := rfl
  rw [hread, h.ofHead_call, Except.map, h.foldl_modifiers]

/-- No call of the chain has a name that is not written. -/
theorem find?_chain {name : String} (hname : c.type.name ≠ name ∧ name ∉ "default" :: flagNames) :
    c.chain.find? name = none := by
  rw [Chain.find?, List.find?_eq_none]
  intro call hcall
  obtain ⟨l, hl, rfl⟩ := List.mem_map.1 hcall
  have hl : l.call.name ≠ name := by
    change l.name ≠ name
    rcases mem_links hl with rfl | ⟨flag, hflag, rfl⟩ | ⟨text, -, rfl⟩
    · exact hname.1
    · rintro rfl
      exact hname.2 (List.mem_cons_of_mem _ hflag)
    · rintro rfl
      exact hname.2 List.mem_cons_self
  simpa using hl

/-- **The statement of a plain column adds it to the table.** -/
theorem apply (h : c.Plain) (t : Table) (key : String) (l : Location) :
    t.apply key (Link.call ⟨c.type.name, c.argumentsText⟩) c.chain l = .ok (t.addColumn c, []) := by
  obtain ⟨b, hb⟩ := h.builder
  have hhead : (Link.call ⟨c.type.name, c.argumentsText⟩).name = b.name := by
    rw [hb]
    rfl
  have hprimary : c.chain.find? "primary" = none :=
    find?_chain ⟨by rw [hb]; exact b.name_ne.1, by decide⟩
  have hconstrained : c.chain.find? "constrained" = none :=
    find?_chain ⟨by rw [hb]; exact b.name_ne.2, by decide⟩
  rw [Table.apply_builder hhead, Table.define, ← hb, h.ofChain_chain, Except.map, hprimary,
    Relationship.constrained?, hconstrained]
  rfl

end Plain

end Column

/-! ### Relationships and the primary key -/

namespace Relationship

/-- The chain of the statement that defines a relationship. -/
def chain (r : Relationship) : Chain :=
  ⟨"$table", r.links.map Link.call⟩

/-- The link for an action on deletion sets it. -/
theorem foldl_onDelete {action : Option String} (h : ∀ a ∈ action, Quoted a) {r : Relationship}
    (hr : r.onDelete = none) :
    ((actionLinks "onDelete" action).map Link.call).foldl applyModifier r =
      { r with onDelete := action } := by
  cases action with
  | none =>
    have heta : { r with onDelete := none } = r := by rw [← hr]
    exact heta.symm
  | some a =>
    have hset : r.applyModifier (Link.call ⟨"onDelete", literal a⟩) =
        { r with onDelete := (Link.call ⟨"onDelete", literal a⟩).firstString? } := rfl
    rw [(h a rfl).firstString?_call] at hset
    exact hset

/-- The link for an action on update sets it. -/
theorem foldl_onUpdate {action : Option String} (h : ∀ a ∈ action, Quoted a) {r : Relationship}
    (hr : r.onUpdate = none) :
    ((actionLinks "onUpdate" action).map Link.call).foldl applyModifier r =
      { r with onUpdate := action } := by
  cases action with
  | none =>
    have heta : { r with onUpdate := none } = r := by rw [← hr]
    exact heta.symm
  | some a =>
    have hset : r.applyModifier (Link.call ⟨"onUpdate", literal a⟩) =
        { r with onUpdate := (Link.call ⟨"onUpdate", literal a⟩).firstString? } := rfl
    rw [(h a rfl).firstString?_call] at hset
    exact hset

namespace Plain

variable {r : Relationship}

/-- **The chain of a plain relationship defines it.** -/
theorem ofChain_chain (h : r.Plain) (l : Location) : ofChain r.chain l = .ok r := by
  have hhead : r.chain.head?.bind Call.firstString? = some r.localColumn :=
    h.localColumn.quoted.firstString?_call
  have hreferences : (r.chain.find? "references").bind Call.firstString? =
      some r.foreignColumn := h.foreignColumn.quoted.firstString?_call
  have hon : (r.chain.find? "on").bind Call.firstString? = some r.foreignTable :=
    h.foreignTable.quoted.firstString?_call
  have hactions : r.chain.modifiers = (Link.call ⟨"references", literal r.foreignColumn⟩) ::
      (Link.call ⟨"on", literal r.foreignTable⟩) ::
        ((actionLinks "onDelete" r.onDelete).map Link.call ++
          (actionLinks "onUpdate" r.onUpdate).map Link.call) := by
    simp [chain, Chain.modifiers, links]
  have hskip : ∀ s : Relationship,
      s.applyModifier (Link.call ⟨"references", literal r.foreignColumn⟩) = s ∧
        s.applyModifier (Link.call ⟨"on", literal r.foreignTable⟩) = s := fun s => ⟨rfl, rfl⟩
  rw [ofChain, hhead, hreferences, hon]
  simp only
  rw [applyModifiers, hactions, List.foldl_cons, List.foldl_cons, (hskip _).1, (hskip _).2,
    List.foldl_append, foldl_onDelete fun a ha => (h.onDelete a ha).quoted,
    foldl_onUpdate fun a ha => (h.onUpdate a ha).quoted]
  · rfl
  · rfl

/-- **The statement of a plain relationship adds it to the table.** -/
theorem apply (h : r.Plain) (t : Table) (key : String) (l : Location) :
    t.apply key (Link.call ⟨"foreign", literal r.localColumn⟩) r.chain l =
      .ok (t.addRelationship r, []) := by
  rw [Table.apply_of_foreign t key r.chain l rfl, h.ofChain_chain]
  rfl

end Plain

end Relationship

/-- **The statement for the primary key sets it.** -/
theorem Table.apply_primary {name : String} (h : Quoted name) (t : Table) (key : String)
    (l : Location) :
    t.apply key (Link.call ⟨"primary", literal name⟩)
        ⟨"$table", [Link.call ⟨"primary", literal name⟩]⟩ l =
      .ok ({ t with primaryKey := some name }, []) := by
  rw [apply_of_primary t key _ l rfl, h.firstString?_call]

/-! ### All columns and all relationships -/

namespace Table

/-- Columns under new names are added at the end, in order. -/
theorem entries_foldl_addColumn {t : Table} {cs : List Column}
    (h : (t.columns.keys ++ cs.map (·.name)).Nodup) :
    (cs.foldl addColumn t).columns.entries = t.columns.entries ++ cs.map fun c => (c.name, c) := by
  induction cs generalizing t with
  | nil => simp
  | cons c cs ih =>
    have hnew : c.name ∉ t.columns.keys := by
      intro hmem
      exact (List.nodup_append.1 h).2.2 _ hmem _ (by simp) rfl
    have hkeys : (t.addColumn c).columns.keys = t.columns.keys ++ [c.name] :=
      Dict.keys_insert_of_not_mem c hnew
    have hentries : (t.addColumn c).columns.entries = t.columns.entries ++ [(c.name, c)] :=
      Dict.entries_insert_of_not_mem c hnew
    have hnodup : ((t.addColumn c).columns.keys ++ cs.map (·.name)).Nodup := by
      rw [hkeys, List.append_assoc]
      exact h
    rw [List.foldl_cons, ih hnodup, hentries, List.append_assoc]
    rfl

theorem foldl_addColumn_eq (t : Table) (cs : List Column) :
    cs.foldl addColumn t = { t with columns := (cs.foldl addColumn t).columns } := by
  induction cs generalizing t with
  | nil => rfl
  | cons c cs ih => rw [List.foldl_cons, ih]; rfl

/-- **Adding the columns of a table under its own names gives them back.** -/
theorem foldl_addColumn {t u : Table} (hkeys : ∀ e ∈ t.columns.entries, e.2.name = e.1)
    (hu : u.columns = ∅) : t.columns.values.foldl addColumn u = { u with columns := t.columns } := by
  have hnames : t.columns.values.map (·.name) = t.columns.keys := by
    rw [Dict.values, Dict.keys, List.map_map]
    exact List.map_congr_left hkeys
  have hpairs : t.columns.values.map (fun c => (c.name, c)) = t.columns.entries := by
    rw [Dict.values, List.map_map]
    refine (List.map_congr_left fun e he => ?_).trans (List.map_id _)
    exact Prod.ext (hkeys e he) rfl
  have hnodup : (u.columns.keys ++ t.columns.values.map (·.name)).Nodup := by
    rw [hu, hnames]
    exact t.columns.nodup_keys
  have hentries := entries_foldl_addColumn hnodup
  rw [hu, hpairs] at hentries
  rw [foldl_addColumn_eq, Dict.ext hentries]

theorem replaceFirst_of_not_mem {r : Relationship} {rs : List Relationship}
    (h : r.localColumn ∉ rs.map (·.localColumn)) :
    replaceFirst (·.localColumn == r.localColumn) r rs = rs ++ [r] := by
  induction rs with
  | nil => rfl
  | cons s rs ih =>
    rw [List.map_cons, List.mem_cons, not_or] at h
    have hs : (s.localColumn == r.localColumn) = false := by
      simpa using fun heq => h.1 (Eq.symm heq)
    rw [replaceFirst, hs, if_neg (by simp), ih h.2, List.cons_append]

/-- **Adding relationships of different columns adds them all, in order.** -/
theorem foldl_addRelationship {t : Table} {rs : List Relationship}
    (h : ((t.relationships ++ rs).map (·.localColumn)).Nodup) :
    rs.foldl addRelationship t = { t with relationships := t.relationships ++ rs } := by
  induction rs generalizing t with
  | nil => simp
  | cons r rs ih =>
    have hnew : r.localColumn ∉ t.relationships.map (·.localColumn) := by
      intro hmem
      rw [List.map_append, List.nodup_append] at h
      exact h.2.2 _ hmem _ (by simp) rfl
    have hadd : t.addRelationship r = { t with relationships := t.relationships ++ [r] } := by
      rw [addRelationship, replaceFirst_of_not_mem hnew]
    have hnodup : (((t.addRelationship r).relationships ++ rs).map (·.localColumn)).Nodup := by
      rw [hadd, List.append_assoc]
      exact h
    rw [List.foldl_cons, ih hnodup, hadd]
    simp

end Table

end SchemaHistory

import SchemaHistory.Proofs.SpelledTexts
import SchemaHistory.Toml.Reader
/-!
# Plain lines of a document

The lines that a document is mostly made of are headers and settings with a plain key, and they are
read as what they look like: a header opens a table (`SchemaHistory.Toml.lines?_header`), and a line
with a key and a value adds an entry to it (`SchemaHistory.Toml.lines?_line`). The value can be any
that is read back from its spelling, such as a text (`SchemaHistory.Toml.value?_spell`).
-/

namespace SchemaHistory.Toml

open Text

/-! ### Keys -/

theorem blanks_append (space : List Char) {s : List Char}
    (hspace : ∀ c ∈ space, isBlank c = true)
    (hs : ∀ c ∈ s.head?, isBlank c = false) : blanks (space ++ s) = (space, s) := by
  obtain ⟨htake, hdrop⟩ := takeWhile_dropWhile_append hspace hs
  rw [blanks, htake, hdrop]

theorem isKeyChar_cases {c : Char} (h : isKeyChar c = true) :
    isBlank c = false ∧ c ≠ '"' ∧ c ≠ '\'' ∧ c ≠ '[' ∧ c ≠ '#' ∧ c ≠ '\n' ∧ c ≠ '\r' := by
  refine ⟨?_, ?_⟩
  · rw [isBlank, Bool.or_eq_false_iff, beq_eq_false_iff_ne, beq_eq_false_iff_ne]
    constructor <;> rintro rfl <;> exact absurd h (by decide)
  · refine ⟨?_, ?_, ?_, ?_, ?_, ?_⟩ <;> rintro rfl <;> exact absurd h (by decide)

theorem spelled_append (s rest : List Char) : spelled (s ++ rest) rest = s := by
  rw [spelled, List.length_append, Nat.add_sub_cancel, List.take_left]

section Path

variable {name : List Char} (hne : name ≠ []) (hname : ∀ c ∈ name, isKeyChar c = true)

include hne hname

theorem keyName?_plain {s : List Char} (hs : ∀ c ∈ s.head?, isKeyChar c = false) :
    keyName? (name ++ s) = some (name, s) := by
  obtain ⟨htake, hdrop⟩ := takeWhile_dropWhile_append hname hs
  have hline : lineText? (name ++ s) = none := by
    obtain ⟨c, t, rfl⟩ := List.exists_cons_of_ne_nil hne
    obtain ⟨-, hdouble, hsingle, -⟩ := isKeyChar_cases (hname c List.mem_cons_self)
    rw [List.cons_append, lineText?]
    · exact fun _ h => hdouble (List.cons.inj h).1
    · exact fun _ h => hsingle (List.cons.inj h).1
  rw [keyName?, hline]
  simp only [htake, hdrop]
  rw [if_neg (by simpa using hne)]

theorem step?_plain {space s : List Char} (hspace : ∀ c ∈ space, isBlank c = true)
    (hs : ∀ c ∈ s.head?, isBlank c = false) (hstop : ∀ c ∈ (space ++ s).head?, isKeyChar c = false) :
    step? (name ++ (space ++ s)) = some (⟨[], name, name, space⟩, s) := by
  have hstart : blanks (name ++ (space ++ s)) = ([], name ++ (space ++ s)) := by
    obtain ⟨c, t, rfl⟩ := List.exists_cons_of_ne_nil hne
    refine blanks_append [] (by simp) ?_
    rintro d hd
    obtain rfl : c = d := by simpa using hd
    exact (isKeyChar_cases (hname c List.mem_cons_self)).1
  rw [step?, hstart]
  simp only [keyName?_plain hne hname hstop, Option.bind_eq_bind, Option.bind_some,
    blanks_append space hspace hs, spelled_append]
  rfl

end Path

/-- A **plain key** as it is read, with the blanks behind it. -/
def plainKey (name : String) (after : List Char) : Key where
  name := name
  spelling := some name.toList
  leaf := ⟨some [], some after⟩
  dotted := ⟨some [], some []⟩

/-- A text that can stand as a key without quotes. -/
structure IsPlainKey (name : String) : Prop where
  nonempty : name.toList ≠ []
  chars : ∀ c ∈ name.toList, isKeyChar c = true

/-- A plain key is a **path** of one step. -/
theorem IsPlainKey.path?_eq {name : String} (h : IsPlainKey name) (space : List Char)
    {s : List Char} {c : Char}
    (hspace : ∀ c ∈ space, isBlank c = true) (hblank : isBlank c = false)
    (hkey : isKeyChar c = false) (hdot : c ≠ '.') :
    path? (name.toList ++ (space ++ c :: s)) = some ([], plainKey name space, c :: s) := by
  -- What ends the name is the first blank, or the character itself if there is none.
  have hstop : ∀ d ∈ (space ++ c :: s).head?, isKeyChar d = false := by
    intro d hd
    cases space with
    | nil =>
      obtain rfl : c = d := by simpa using hd
      exact hkey
    | cons b space =>
      obtain rfl : b = d := by simpa using hd
      exact Bool.eq_false_iff.2 fun h => by
        simp [(isKeyChar_cases h).1] at hspace
  have hstep := step?_plain h.nonempty h.chars hspace (s := c :: s) (by simpa using hblank) hstop
  have hsteps : steps? ((name.toList ++ (space ++ c :: s)).length + 1)
      (name.toList ++ (space ++ c :: s)) =
        some (⟨[], name.toList, name.toList, space⟩, [], c :: s) := by
    rw [steps?, hstep]
    simp only [Option.bind_eq_bind, Option.bind_some]
    split
    · rename_i h
      exact absurd (List.cons.inj h).1 hdot
    · rfl
  rw [path?, hsteps, plainKey]
  simp only [Option.bind_eq_bind, Option.bind_some, Step.keys, String.ofList_toList]
  rfl

/-! ### Lines -/

theorem spacing_of_isKeyChar {c : Char} (h : isKeyChar c = true) (s : List Char) :
    spacing false (c :: s) = ([], c :: s) := by
  obtain ⟨hblank, -, -, -, hcomment, hnewline, hreturn⟩ := isKeyChar_cases h
  rw [spacing]
  · simp [hblank, hcomment]
  · exact hnewline
  · exact fun _ h => absurd h hreturn

/-- The end of a line that has nothing more. -/
theorem lineEnd?_newline (rest : List Char) : lineEnd? ('\n' :: rest) = some ([], rest) := rfl

/-- **A spelled text is a value.** -/
theorem value?_spell (room fuel : Nat) (s rest : List Char) :
    value? room (fuel + 1) (spell s ++ '\n' :: rest) =
      some (.scalar (.string (String.ofList s)) (spell s) {}, '\n' :: rest) := by
  have htext := text?_spell s ('\n' :: rest) (by simp)
  have hspelled := spelled_append (spell s) ('\n' :: rest)
  obtain ⟨q, t, hq, hquote⟩ := exists_spell s
  rw [hq] at htext hspelled ⊢
  rw [List.cons_append] at *
  have hscalar : scalar? (q :: (t ++ '\n' :: rest)) =
      some (.string (String.ofList s), '\n' :: rest) := by
    rw [scalar?]
    · rw [htext]
    · rintro t' h
      rcases hquote with rfl | rfl <;> exact absurd (List.cons.inj h).1 (by decide)
    · rintro t' h
      rcases hquote with rfl | rfl <;> exact absurd (List.cons.inj h).1 (by decide)
  rw [value?]
  · rw [hscalar]
    simp [hspelled]
  · rintro t' h
    rcases hquote with rfl | rfl <;> exact absurd (List.cons.inj h).1 (by decide)
  · rintro t' h
    rcases hquote with rfl | rfl <;> exact absurd (List.cons.inj h).1 (by decide)

/-- A **line** with a plain key. -/
def line (name : String) (spelling : List Char) : List Char :=
  name.toList ++ ' ' :: '=' :: ' ' :: (spelling ++ ['\n'])

theorem addEntry?_nil (key : Key) (v : Value) {t : Table} (hdotted : t.1.dotted = false)
    (hnew : find? key.name t.2 = none) :
    addEntry? [] key v t = some (t.1, t.2 ++ [(key, .value v)]) := by
  rw [ addEntry?, descend?, if_neg]
  simp [hdotted, hnew]

theorem open?_nil {d : Draft} {root : Table} (key : Key) (decor : Decor)
    (hclose : d.close? = some root) (hnew : find? key.name root.2 = none) :
    d.open? [] key decor =
      some { root, table := ({ decor, position := some (d.headers + 1) }, [])
             target := some ([], key), headers := d.headers + 1 } := by
  have hrelease : release? key root = some (root, []) := by rw [release?, hnew]
  simp only [Draft.open?, hclose, tableAt?, descend?, hrelease, Option.bind_eq_bind,
    Option.bind_some, Option.map_some]
  rfl

section Lines

variable {d : Draft} {name : String} {rest : List Char}

theorem IsPlainKey.exists_cons (h : IsPlainKey name) :
    ∃ c t, name.toList = c :: t ∧ isKeyChar c = true := by
  obtain ⟨c, t, hc⟩ := List.exists_cons_of_ne_nil h.nonempty
  exact ⟨c, t, hc, h.chars c (by rw [hc]; exact List.mem_cons_self)⟩

/-- **A line with a plain key** adds an entry to the table that is open. -/
theorem lines?_line (h : IsPlainKey name) {spelling : List Char} {v : Scalar}
    (hstart : ∀ c ∈ (spelling ++ '\n' :: rest).head?, isBlank c = false)
    (hvalue : ∀ room fuel, value? room (fuel + 1) (spelling ++ '\n' :: rest) =
      some (.scalar v spelling {}, '\n' :: rest))
    (hdotted : d.table.1.dotted = false) (hnew : find? name d.table.2 = none) (fuel : Nat) :
    lines? (fuel + 1) d (line name spelling ++ rest) =
      lines? fuel { d with table := (d.table.1, d.table.2 ++
        [(plainKey name [' '], .value (.scalar v spelling ⟨some [' '], some []⟩))]) } rest := by
  have hline : line name spelling ++ rest =
      name.toList ++ ([' '] ++ '=' :: ([' '] ++ (spelling ++ '\n' :: rest))) := by
    simp [line]
  have hpath := h.path?_eq [' '] (c := '=') (s := [' '] ++ (spelling ++ '\n' :: rest))
    (by decide) (by decide) (by decide) (by decide)
  have hentry : entry? d [] (line name spelling ++ rest) =
      some ({ d with table := (d.table.1, d.table.2 ++
        [(plainKey name [' '], .value (.scalar v spelling ⟨some [' '], some []⟩))]) }, rest) := by
    rw [hline, entry?, hpath]
    simp only [Option.bind_eq_bind, Option.bind_some,
      blanks_append [' '] (by decide) hstart, hvalue, lineEnd?_newline]
    have hadd := addEntry?_nil (plainKey name [' ']) (.scalar v spelling ⟨some [' '], some []⟩)
      hdotted hnew
    change ( addEntry? [] (plainKey name [' ']) (.scalar v spelling ⟨some [' '], some []⟩)
      d.table).bind _ = _
    rw [hadd]
    rfl
  obtain ⟨c, t, hc, hkey⟩ := h.exists_cons
  obtain ⟨tail, htail⟩ : ∃ tail, line name spelling ++ rest = c :: tail :=
    ⟨_, by rw [line, hc]; rfl⟩
  rw [htail] at hentry ⊢
  rw [lines?, spacing_of_isKeyChar hkey]
  simp only
  split
  · rename_i h
    exact absurd h (by simp)
  · rename_i h
    exact absurd (List.cons.inj h).1 (isKeyChar_cases hkey).2.2.2.1
  · rw [hentry]
    rfl

/-- **A header with a plain key** opens a table, if there is none under the name. -/
theorem lines?_header (h : IsPlainKey name) {space : List Char} {root : Table}
    (hspace : ∀ t, spacing false (space ++ '[' :: t) = (space, '[' :: t))
    (hclose : d.close? = some root) (hnew : find? name root.2 = none) (fuel : Nat) :
    lines? (fuel + 1) d (space ++ '[' :: (name.toList ++ ']' :: '\n' :: rest)) =
      lines? fuel
        { root, table := ({ decor := ⟨some space, some []⟩, position := some (d.headers + 1) }, [])
          target := some ([], plainKey name []), headers := d.headers + 1 } rest := by
  have hpath := h.path?_eq [] (c := ']') (s := '\n' :: rest) (by simp) (by decide)
    (by decide) (by decide)
  have hopen := fun decor => open?_nil (plainKey name []) decor hclose hnew
  obtain ⟨c, t, hc, hkey⟩ := h.exists_cons
  rw [List.nil_append] at hpath
  rw [lines?, hspace]
  simp only
  rw [header?]
  · rw [hpath]
    simp only [Option.bind_eq_bind, Option.bind_some, lineEnd?_newline, hopen]
    rfl
  · intro rest' h
    rw [hc, List.cons_append] at h
    exact (isKeyChar_cases hkey).2.2.2.1 (List.cons.inj h).1

end Lines

end SchemaHistory.Toml

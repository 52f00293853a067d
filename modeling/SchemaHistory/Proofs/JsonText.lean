import SchemaHistory.Json.Reader
import SchemaHistory.Json.Writer

/-!
# Reading what was written

The text of a JSON value is read back as that value (`SchemaHistory.Json.Textual.parse?_write`),
if the value is made of the bodies that texts are encoded by and holds no number, as is the case
for everything that is kept of a schema.

There are two parts to it. A string is left by the reader at the quote that ends it and at no
earlier one, and it says the text that it was made of: both are shown one character at a time,
for each of the ways in which a character is encoded (`SchemaHistory.Json.body?_encode`,
`SchemaHistory.Json.textOf?_encode`). And the reader of a value of any depth takes as much as was
written: the line breaks and the indentation are skipped, since nothing that is written starts
with space, and neither the first item of a list nor the first key of an object looks like the
end of it.
-/

namespace SchemaHistory.Json

/-! ### Strings -/

/-- The code of a control character is a code unit, and it is no half of a surrogate pair. -/
theorem codeUnit?_digits {n : Nat} (h : n < 0x20) :
    codeUnit? '0' '0' (Text.digit (n / 16)) (Text.digit (n % 16)) = some n ∧
      isLowSurrogate n = false ∧ isHighSurrogate n = false := by
  revert n
  decide

/-- How a character is encoded: by a short escape, by its code or by itself. -/
theorem encodeChar_cases (c : Char) :
    (∃ e, encodeChar c = ['\\', e] ∧ e ≠ 'u' ∧ shortEscape? e = some c) ∨
      (c.toNat < 0x20 ∧ encodeChar c =
        ['\\', 'u', '0', '0', Text.digit (c.toNat / 16), Text.digit (c.toNat % 16)]) ∨
      (encodeChar c = [c] ∧ c ≠ '"' ∧ c ≠ '\\' ∧ ¬c.toNat < 0x20) := by
  unfold encodeChar
  split
  case h_8 c hquote hbackslash _ _ _ _ _ =>
    split
    case isTrue h => exact Or.inr (Or.inl ⟨h, rfl⟩)
    case isFalse h => exact Or.inr (Or.inr ⟨rfl, hquote, hbackslash, h⟩)
  all_goals exact Or.inl ⟨_, rfl, by decide, rfl⟩

/-- The body of a string goes on behind an encoded character. -/
theorem body?_encodeChar (c : Char) (s : List Char) :
    body? (encodeChar c ++ s) = (body? s).map fun r => (encodeChar c ++ r.1, r.2) := by
  obtain ⟨e, he, hu, hc⟩ | ⟨hc, he⟩ | ⟨he, hquote, hbackslash, hc⟩ := encodeChar_cases c
  · rw [he, List.cons_append, List.singleton_append, body?]
    · rw [hc, Option.isSome_some, if_pos rfl]
      rfl
    · rintro - - - - - rfl
      exact absurd rfl hu
  · rw [he]
    simp only [List.cons_append, List.nil_append, body?, (codeUnit?_digits hc).1,
      Option.isSome_some, if_true]
  · rw [he, List.singleton_append, body?, if_neg (by simp [hbackslash, hc])]
    · rfl
    all_goals simp_all

/-- An encoded character says the character. -/
theorem textOf?_encodeChar (c : Char) (s : List Char) :
    textOf? (encodeChar c ++ s) = (textOf? s).map (c :: ·) := by
  obtain ⟨e, he, hu, hc⟩ | ⟨hc, he⟩ | ⟨he, -, hbackslash, hc⟩ := encodeChar_cases c
  · rw [he, List.cons_append, List.singleton_append, textOf?]
    · rw [hc]
    · rintro - - - - - rfl
      exact absurd rfl hu
  · obtain ⟨hcode, hlow, hhigh⟩ := codeUnit?_digits hc
    rw [he]
    simp only [List.cons_append, List.nil_append, textOf?, hcode, hlow, hhigh, Bool.false_eq_true,
      if_false, Char.ofNat_toNat]
  · rw [he, List.singleton_append, textOf?]
    all_goals simp_all

/-- **The body of a string ends at its closing quote**, whatever the string says. -/
theorem body?_encode (s rest : List Char) :
    body? (encode s ++ '"' :: rest) = some (encode s, rest) := by
  induction s with
  | nil => rfl
  | cons c s ih =>
    have hcons : encode (c :: s) = encodeChar c ++ encode s := List.flatMap_cons
    rw [hcons, List.append_assoc, body?_encodeChar, ih]
    rfl

/-- **A string says the text that it was made of.** -/
theorem textOf?_encode (s : List Char) : textOf? (encode s) = some s := by
  induction s with
  | nil => rfl
  | cons c s ih =>
    have hcons : encode (c :: s) = encodeChar c ++ encode s := List.flatMap_cons
    rw [hcons, textOf?_encodeChar, ih]
    rfl

/-! ### Values that are made of texts -/

/-- A value is **textual** if its strings and its keys are what texts are encoded by, and if it has
no numbers. -/
inductive Textual : Json → Prop
  | null : Textual null
  | bool (b : Bool) : Textual (bool b)
  | string (s : List Char) : Textual (string (encode s))
  | list {items : List Json} (h : ∀ j ∈ items, Textual j) : Textual (list items)
  | object {entries : List (List Char × Json)} (hkeys : ∀ e ∈ entries, ∃ s, e.1 = encode s)
      (h : ∀ e ∈ entries, Textual e.2) : Textual (object entries)

/-! ### Space -/

theorem skipSpace_of_not {c : Char} (h : isSpace c = false) (s : List Char) :
    skipSpace (c :: s) = c :: s := by
  rw [skipSpace, List.dropWhile_cons_of_neg (by simp [h])]

/-- The start of a line is skipped. -/
theorem skipSpace_newLine (level : Nat) (s : List Char) :
    skipSpace (newLine level ++ s) = skipSpace s := by
  have hblanks : ∀ n, skipSpace (List.replicate n ' ' ++ s) = skipSpace s := by
    intro n
    induction n with
    | zero => rfl
    | succ n ih =>
      rw [List.replicate_succ, List.cons_append, skipSpace,
        List.dropWhile_cons_of_pos (by decide)]
      exact ih
  rw [newLine, List.cons_append, skipSpace, List.dropWhile_cons_of_pos (by decide)]
  exact hblanks _

/-- What is written starts with a character that is neither space nor the end of a list. -/
theorem Textual.write_eq_cons {j : Json} (h : Textual j) (level : Nat) :
    ∃ c s, write level j = c :: s ∧ isSpace c = false ∧ c ≠ ']' := by
  cases h with
  | null => exact ⟨'n', _, rfl, by decide⟩
  | bool b =>
    cases b
    · exact ⟨'f', _, rfl, by decide⟩
    · exact ⟨'t', _, rfl, by decide⟩
  | string s => exact ⟨'"', _, rfl, by decide⟩
  | @list items h =>
    cases items <;> exact ⟨'[', _, rfl, by decide⟩
  | @object entries hkeys h =>
    cases entries <;> exact ⟨'\x7b', _, rfl, by decide⟩

/-- What is written behind the start of a line is found there. -/
theorem Textual.skipSpace_write {j : Json} (h : Textual j) (level : Nat) (s : List Char) :
    skipSpace (write level j ++ s) = write level j ++ s := by
  obtain ⟨c, t, hc, hspace, -⟩ := h.write_eq_cons level
  rw [hc, List.cons_append, skipSpace_of_not hspace]

theorem skipSpace_quoteBody (body s : List Char) :
    skipSpace (quoteBody body ++ s) = quoteBody body ++ s :=
  skipSpace_of_not (by decide) _

/-- A key is read with the colon and the space behind it. -/
theorem key?_quoteBody (key : List Char) {s : List Char} (hs : skipSpace s = s) :
    key? (quoteBody (encode key) ++ ':' :: ' ' :: s) = some (encode key, s) := by
  have hblank : skipSpace (' ' :: s) = s := by
    rw [skipSpace, List.dropWhile_cons_of_pos (by decide)]
    exact hs
  have hquote : quoteBody (encode key) ++ ':' :: ' ' :: s =
      '"' :: (encode key ++ '"' :: ':' :: ' ' :: s) := by
    simp [quoteBody]
  rw [hquote, key?, body?_encode, Option.bind_some, skipSpace_of_not (by decide)]
  simp only [hblank]

/-! ### Items and entries -/

/-- That a value is **read back** at any level of depth, with anything behind it, where as much
depth is left as the text is long. -/
def ReadsBack (j : Json) : Prop :=
  ∀ level depth rest, (write level j).length < depth →
    value? depth (write level j ++ rest) = some (j, rest)

/-- The items behind the first one are read back up to the closing bracket. -/
theorem items?_writeItems {items : List Json} (htextual : ∀ j ∈ items, Textual j)
    (hitems : ∀ j ∈ items, ReadsBack j) (level below : Nat) {depth : Nat} (rest : List Char)
    (hdepth : (writeItems level items).length < depth) :
    items? depth (skipSpace (writeItems level items ++ (newLine below ++ ']' :: rest))) =
      some (items, rest) := by
  induction items generalizing depth with
  | nil =>
    obtain ⟨depth, rfl⟩ := Nat.exists_eq_add_of_lt hdepth
    rw [writeItems, List.nil_append, skipSpace_newLine, skipSpace_of_not (by decide)]
    rfl
  | cons j items ih =>
    obtain _ | depth := depth
    · exact absurd hdepth (Nat.not_lt_zero _)
    have hlength : (write level j).length < depth ∧ (writeItems level items).length < depth := by
      simp only [writeItems, List.cons_append, List.length_cons, List.length_append] at hdepth
      omega
    have hj := htextual j List.mem_cons_self
    have hrest := ih (fun i hi => htextual i (List.mem_cons_of_mem j hi))
      (fun i hi => hitems i (List.mem_cons_of_mem j hi)) hlength.2
    rw [writeItems]
    simp only [List.cons_append, List.append_assoc]
    rw [skipSpace_of_not (by decide), items?, skipSpace_newLine, hj.skipSpace_write,
      hitems j List.mem_cons_self level depth _ hlength.1]
    simp only [Option.bind_eq_bind, Option.bind_some]
    rw [hrest]
    rfl

/-- The entries behind the first one are read back up to the closing brace. -/
theorem entries?_writeEntries {entries : List (List Char × Json)}
    (hkeys : ∀ e ∈ entries, ∃ s, e.1 = encode s) (htextual : ∀ e ∈ entries, Textual e.2)
    (hentries : ∀ e ∈ entries, ReadsBack e.2) (level below : Nat) {depth : Nat}
    (rest : List Char) (hdepth : (writeEntries level entries).length < depth) :
    entries? depth
        (skipSpace (writeEntries level entries ++ (newLine below ++ '\x7d' :: rest))) =
      some (entries, rest) := by
  induction entries generalizing depth with
  | nil =>
    obtain ⟨depth, rfl⟩ := Nat.exists_eq_add_of_lt hdepth
    rw [writeEntries, List.nil_append, skipSpace_newLine, skipSpace_of_not (by decide)]
    rfl
  | cons e entries ih =>
    obtain _ | depth := depth
    · exact absurd hdepth (Nat.not_lt_zero _)
    obtain ⟨key, j⟩ := e
    obtain ⟨text, rfl⟩ : ∃ s, key = encode s := hkeys (key, j) List.mem_cons_self
    have hlength : (write level j).length < depth ∧
        (writeEntries level entries).length < depth := by
      simp only [writeEntries, List.cons_append, List.length_cons, List.length_append] at hdepth
      omega
    have hj : Textual j := htextual (encode text, j) List.mem_cons_self
    have hread : ReadsBack j := hentries (encode text, j) List.mem_cons_self
    have hrest := ih (fun i hi => hkeys i (List.mem_cons_of_mem _ hi))
      (fun i hi => htextual i (List.mem_cons_of_mem _ hi))
      (fun i hi => hentries i (List.mem_cons_of_mem _ hi)) hlength.2
    rw [writeEntries]
    simp only [List.cons_append, List.append_assoc, List.nil_append]
    rw [skipSpace_of_not (by decide), entries?, skipSpace_newLine, skipSpace_quoteBody,
      key?_quoteBody text (hj.skipSpace_write level _)]
    simp only [Option.bind_eq_bind, Option.bind_some]
    rw [hread level depth _ hlength.1]
    simp only [Option.bind_some]
    rw [hrest]
    rfl

/-! ### Values -/

/-- A list that does not end where it begins starts with an item. -/
theorem value?_list {depth : Nat} {s : List Char} (h : ∀ rest, skipSpace s ≠ ']' :: rest) :
    value? (depth + 1) ('[' :: s) = (value? depth (skipSpace s)).bind fun x =>
      (items? depth (skipSpace x.2)).map fun y => (list (x.1 :: y.1), y.2) := by
  rw [value?]
  split
  case h_1 rest heq => exact absurd heq (h rest)
  case h_2 =>
    cases value? depth (skipSpace s) with
    | none => rfl
    | some x =>
      simp only [Option.bind_eq_bind, Option.bind_some]
      cases items? depth (skipSpace x.2) <;> rfl

/-- An object that does not end where it begins starts with a key. -/
theorem value?_object {depth : Nat} {s : List Char} (h : ∀ rest, skipSpace s ≠ '\x7d' :: rest) :
    value? (depth + 1) ('\x7b' :: s) = (key? (skipSpace s)).bind fun k =>
      (value? depth k.2).bind fun x =>
        (entries? depth (skipSpace x.2)).map fun y => (object ((k.1, x.1) :: y.1), y.2) := by
  rw [value?]
  split
  case h_1 rest heq => exact absurd heq (h rest)
  case h_2 =>
    cases key? (skipSpace s) with
    | none => rfl
    | some k =>
      simp only [Option.bind_eq_bind, Option.bind_some]
      cases value? depth k.2 with
      | none => rfl
      | some x =>
        simp only [Option.bind_some]
        cases entries? depth (skipSpace x.2) <;> rfl

theorem readsBack_string (s : List Char) : ReadsBack (string (encode s)) := by
  rintro level (_ | depth) rest hdepth
  · exact absurd hdepth (Nat.not_lt_zero _)
  · have hquote : quoteBody (encode s) ++ rest = '"' :: (encode s ++ '"' :: rest) := by
      simp [quoteBody]
    rw [write, hquote, value?, scalar?, body?_encode]
    · rfl
    all_goals simp

theorem readsBack_list {items : List Json} (h : ∀ j ∈ items, Textual j)
    (hitems : ∀ j ∈ items, ReadsBack j) : ReadsBack (list items) := by
  rintro level (_ | depth) rest hdepth
  · exact absurd hdepth (Nat.not_lt_zero _)
  obtain _ | ⟨j, items⟩ := items
  · rfl
  have hj : Textual j := h j List.mem_cons_self
  have hlength : (write (level + 1) j).length < depth ∧
      (writeItems (level + 1) items).length < depth := by
    simp only [write, List.cons_append, List.length_cons, List.length_append] at hdepth
    omega
  have hrest := items?_writeItems (fun i hi => h i (List.mem_cons_of_mem j hi))
    (fun i hi => hitems i (List.mem_cons_of_mem j hi)) (level + 1) level rest hlength.2
  obtain ⟨c, t, hc, -, hclose⟩ := hj.write_eq_cons (level + 1)
  rw [write]
  simp only [List.cons_append, List.append_assoc, List.nil_append]
  rw [value?_list, skipSpace_newLine, hj.skipSpace_write,
    hitems j List.mem_cons_self _ depth _ hlength.1, Option.bind_some, hrest]
  · rfl
  · intro r
    rw [skipSpace_newLine, hj.skipSpace_write, hc, List.cons_append]
    exact fun heq => hclose (List.cons.inj heq).1

theorem readsBack_object {entries : List (List Char × Json)}
    (hkeys : ∀ e ∈ entries, ∃ s, e.1 = encode s) (h : ∀ e ∈ entries, Textual e.2)
    (hentries : ∀ e ∈ entries, ReadsBack e.2) : ReadsBack (object entries) := by
  rintro level (_ | depth) rest hdepth
  · exact absurd hdepth (Nat.not_lt_zero _)
  obtain _ | ⟨⟨key, j⟩, entries⟩ := entries
  · rfl
  obtain ⟨text, rfl⟩ : ∃ s, key = encode s := hkeys (key, j) List.mem_cons_self
  have hj : Textual j := h (encode text, j) List.mem_cons_self
  have hread : ReadsBack j := hentries (encode text, j) List.mem_cons_self
  have hlength : (write (level + 1) j).length < depth ∧
      (writeEntries (level + 1) entries).length < depth := by
    simp only [write, List.cons_append, List.length_cons, List.length_append] at hdepth
    omega
  have hrest := entries?_writeEntries (fun i hi => hkeys i (List.mem_cons_of_mem _ hi))
    (fun i hi => h i (List.mem_cons_of_mem _ hi))
    (fun i hi => hentries i (List.mem_cons_of_mem _ hi)) (level + 1) level rest hlength.2
  rw [write]
  simp only [List.cons_append, List.append_assoc, List.nil_append]
  rw [value?_object, skipSpace_newLine, skipSpace_quoteBody,
    key?_quoteBody text (hj.skipSpace_write _ _), Option.bind_some,
    hread _ depth _ hlength.1, Option.bind_some, hrest]
  · rfl
  · intro r
    rw [skipSpace_newLine, skipSpace_quoteBody]
    exact fun heq => absurd (List.cons.inj heq).1 (by decide)

/-- **A textual value is read back**, whatever stands behind it. -/
theorem Textual.readsBack {j : Json} (h : Textual j) : ReadsBack j := by
  induction h with
  | null =>
    rintro level (_ | depth) rest hdepth
    · exact absurd hdepth (Nat.not_lt_zero _)
    · rfl
  | bool b =>
    rintro level (_ | depth) rest hdepth
    · exact absurd hdepth (Nat.not_lt_zero _)
    · cases b <;> rfl
  | string s => exact readsBack_string s
  | list h ih => exact readsBack_list h ih
  | object hkeys h ih => exact readsBack_object hkeys h ih

/-- **What is written of a textual value is read as that value.** -/
theorem Textual.parse?_write {j : Json} (h : Textual j) : parse? (write 0 j) = some j := by
  have hskip := h.skipSpace_write 0 []
  have hread := h.readsBack 0 ((write 0 j).length + 1) [] (Nat.lt_succ_self _)
  rw [List.append_nil] at hskip hread
  rw [parse?, hskip, hread]
  rfl

end SchemaHistory.Json

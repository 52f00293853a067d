import SchemaHistory.Proofs.AsciiWords
import SchemaHistory.Script.Name

/-!
# The characters of a class name

The class of a script is named after the table, by joining the words of its name and raising their
first letters. That can turn characters into others, for letters of many scripts, but it never
makes a mark: a character of a class name is a character of the text it is made from, or a
character that a change of case leads to (`SchemaHistory.Text.CaseClosed.pascalCase`), and such a
one is a letter or no ASCII character at all (`SchemaHistory.Text.caseClosed_ne`).
-/

namespace SchemaHistory

namespace Text

/-- A property of characters is **closed under case** if no change of case leads out of it. -/
structure CaseClosed (p : Char → Prop) : Prop where
  upper : ∀ c, p c → ∀ d ∈ upperForm c, p d
  lower : ∀ c, p c → ∀ d ∈ lowerForm c, p d
  sigma : p 'Σ' → p 'σ' ∧ p 'ς'

section Closed

variable {p : Char → Prop}

theorem CaseClosed.lowerAfter (h : CaseClosed p) (cased : Bool) {s : List Char}
    (hs : ∀ c ∈ s, p c) : ∀ d ∈ lowerAfter cased s, p d := by
  induction s generalizing cased with
  | nil => intro d hd; simp [Text.lowerAfter] at hd
  | cons c s ih =>
    intro d hd
    rw [Text.lowerAfter] at hd
    rcases List.mem_append.1 hd with hd | hd
    · have hc : p c := hs c List.mem_cons_self
      split at hd
      · rename_i heq
        obtain ⟨h1, h2⟩ := h.sigma (heq ▸ hc)
        split at hd
        · exact List.mem_singleton.1 hd ▸ h2
        · exact List.mem_singleton.1 hd ▸ h1
      · exact h.lower c hc d hd
    · exact ih _ (fun e he => hs e (List.mem_cons_of_mem c he)) d hd

theorem CaseClosed.capitalize (h : CaseClosed p) {s : List Char} (hs : ∀ c ∈ s, p c) :
    ∀ d ∈ capitalize s, p d := by
  cases s with
  | nil => intro d hd; simp [Text.capitalize] at hd
  | cons c s =>
    intro d hd
    rcases List.mem_append.1 hd with hd | hd
    · exact h.upper c (hs c List.mem_cons_self) d hd
    · exact h.lowerAfter false (fun e he => hs e (List.mem_cons_of_mem c he)) d hd

theorem mem_of_mem_wordsAfter {gs : List (List Char)} {word w : List Char}
    {before : Option (List Char)} (hw : w ∈ wordsAfter word before gs) {c : Char} (hc : c ∈ w) :
    c ∈ word ∨ c ∈ gs.flatten := by
  induction gs generalizing word before with
  | nil =>
    obtain rfl : w = word := by simpa [wordsAfter] using hw
    exact Or.inl hc
  | cons g gs ih =>
    rw [List.flatten_cons, List.mem_append]
    rw [wordsAfter] at hw
    split at hw
    · rcases List.mem_cons.1 hw with rfl | hw
      · exact Or.inl hc
      · rcases ih hw with h | h
        · exact absurd h (by simp)
        · exact Or.inr (Or.inr h)
    split at hw
    · rcases List.mem_cons.1 hw with rfl | hw
      · exact Or.inl hc
      · rcases ih hw with h | h
        · exact Or.inr (Or.inl h)
        · exact Or.inr (Or.inr h)
    · rcases ih hw with h | h
      · rcases List.mem_append.1 h with h | h
        · exact Or.inl h
        · exact Or.inr (Or.inl h)
      · exact Or.inr (Or.inr h)

/-- The characters of the words of a text are characters of the text. -/
theorem mem_of_mem_words {s w : List Char} (hw : w ∈ words s) {c : Char} (hc : c ∈ w) : c ∈ s := by
  rcases mem_of_mem_wordsAfter (List.mem_filter.1 hw).1 hc with h | h
  · exact absurd h (by simp)
  · rwa [flatten_graphemes] at h

/-- **A property that is closed under case goes over to the capitalised name.** -/
theorem CaseClosed.pascalCase (h : CaseClosed p) {s : String} (hs : ∀ c ∈ s.toList, p c) :
    ∀ d ∈ (pascalCase s).toList, p d := by
  intro d hd
  rw [Text.pascalCase, String.toList_ofList] at hd
  obtain ⟨w, hw, hd⟩ := List.mem_flatMap.1 hd
  exact h.capitalize (fun c hc => hs c (mem_of_mem_words hw hc)) d hd

end Closed

/-! ### What a change of case leads to -/

/-- Whether a character is an ASCII character but no letter, as the **marks** of a script are. The
character zero is left out: it stands for code points that are no characters. -/
def isMark (c : Char) : Bool :=
  decide (c.toNat < 0x80) && !isAsciiLetter c && c != '\x00'

/-- Whether a code point is that of an ASCII letter or lies above ASCII. -/
def isCaseImage (n : Nat) : Bool :=
  decide (0x80 ≤ n) || isAsciiLetter (Char.ofNat n)

theorem isCaseImage_sequences :
    (lowerSequences ++ upperSequences).all (fun e => e.2.all isCaseImage) = true := by
  decide +kernel

/-- A run that leads to an ASCII letter has no second code point. -/
theorem isCaseImage_runs :
    (lowerRuns ++ upperRuns).all (fun r => decide (0x80 ≤ r.image) ||
      (isCaseImage r.image && r.first == r.last)) = true := by
  decide +kernel

/-- A code point is that of its character, unless it is that of none. -/
theorem toNat_ofNat_or (n : Nat) : (Char.ofNat n).toNat = n ∨ Char.ofNat n = '\x00' := by
  by_cases hv : n.isValidChar
  · exact Or.inl (by rw [Char.ofNat, dif_pos hv]; rfl)
  · exact Or.inr (by rw [Char.ofNat, dif_neg hv]; rfl)

theorem isMark_ofNat {n : Nat} (h : isCaseImage n = true) : isMark (Char.ofNat n) = false := by
  rw [isCaseImage, Bool.or_eq_true, decide_eq_true_eq] at h
  rcases h with h | h
  · rcases toNat_ofNat_or n with hn | hz
    · have hnot : ¬n < 0x80 := by omega
      simp [isMark, hn, hnot]
    · rw [hz]
      rfl
  · simp [isMark, h]

/-- **The other case of a character above ASCII is made of what the tables lead to.** What they lead
to is looked at only below 128, and a run that leads there has to have one code point. -/
theorem ofNat_of_mem_caseForm {ok : Nat → Bool} (hok : ∀ n, 0x80 ≤ n → ok n = true)
    {sequences : List (Nat × List Nat)} {runs : List CaseRun}
    (hsequences : sequences.all (fun e => e.2.all ok) = true)
    (hruns : runs.all (fun r => decide (0x80 ≤ r.image) ||
      (ok r.image && r.first == r.last)) = true)
    {c d : Char} (hd : d ∈ caseForm sequences runs c) :
    d = c ∨ ∃ n, ok n = true ∧ d = Char.ofNat n := by
  rw [caseForm] at hd
  split at hd
  · rename_i ns hns
    obtain ⟨n, hn, rfl⟩ := List.mem_map.1 hd
    obtain ⟨l₁, l₂, rfl, -⟩ := List.lookup_eq_some_iff.1 hns
    have hall := List.all_eq_true.1 hsequences (c.toNat, ns) (by simp)
    exact Or.inr ⟨n, List.all_eq_true.1 hall n hn, rfl⟩
  split at hd
  · rename_i n hn
    obtain rfl := List.mem_singleton.1 hd
    obtain ⟨r, hr, hmap⟩ := List.exists_of_findSome?_eq_some hn
    have hrun := List.all_eq_true.1 hruns r hr
    rw [CaseRun.map?] at hmap
    split at hmap
    · rename_i hon
      obtain rfl := Option.some.inj hmap
      simp only [Bool.or_eq_true, Bool.and_eq_true, decide_eq_true_eq, beq_iff_eq] at hrun
      refine Or.inr ⟨_, ?_, rfl⟩
      rcases hrun with himage | ⟨himage, hlast⟩
      · exact hok _ (by omega)
      · have hzero : c.toNat - r.first = 0 := by omega
        rwa [hzero]
    · exact absurd hmap (by simp)
  · exact Or.inl (List.mem_singleton.1 hd)

/-- **The other case of a character above ASCII is no mark**, if the tables lead to none. -/
theorem isMark_caseForm {sequences : List (Nat × List Nat)} {runs : List CaseRun}
    (hsequences : sequences.all (fun e => e.2.all isCaseImage) = true)
    (hruns : runs.all (fun r => decide (0x80 ≤ r.image) ||
      (isCaseImage r.image && r.first == r.last)) = true)
    {c : Char} (hc : 0x80 ≤ c.toNat) {d : Char} (hd : d ∈ caseForm sequences runs c) :
    isMark d = false := by
  have hok : ∀ n, 0x80 ≤ n → isCaseImage n = true := fun n hn => by simp [isCaseImage, hn]
  rcases ofNat_of_mem_caseForm hok hsequences hruns hd with rfl | ⟨n, hn, rfl⟩
  · have hnot : ¬d.toNat < 0x80 := by omega
    simp [isMark, hnot]
  · exact isMark_ofNat hn

theorem toUpper_eq_or_letter {c : Char} (hc : c.toNat < 0x80) :
    c.toUpper = c ∨ isAsciiLetter c.toUpper = true :=
  forall_ascii (P := fun c => c.toUpper = c ∨ isAsciiLetter c.toUpper = true) (by decide) hc

theorem toLower_eq_or_letter {c : Char} (hc : c.toNat < 0x80) :
    c.toLower = c ∨ isAsciiLetter c.toLower = true :=
  forall_ascii (P := fun c => c.toLower = c ∨ isAsciiLetter c.toLower = true) (by decide) hc

/-- The upper case form of a character has no mark but the character itself. -/
theorem eq_of_mem_upperForm {c d : Char} (hd : d ∈ upperForm c) (hmark : isMark d = true) :
    d = c := by
  rw [upperForm] at hd
  split at hd
  · rename_i hc
    obtain rfl := List.mem_singleton.1 hd
    rcases toUpper_eq_or_letter hc with h | h
    · exact h
    · simp [isMark, h] at hmark
  · have hsequences := isCaseImage_sequences
    have hruns := isCaseImage_runs
    rw [List.all_append, Bool.and_eq_true] at hsequences hruns
    rw [isMark_caseForm hsequences.2 hruns.2 (by omega) hd] at hmark
    exact absurd hmark (by simp)

/-- The lower case form of a character has no mark but the character itself. -/
theorem eq_of_mem_lowerForm {c d : Char} (hd : d ∈ lowerForm c) (hmark : isMark d = true) :
    d = c := by
  rw [lowerForm] at hd
  split at hd
  · rename_i hc
    obtain rfl := List.mem_singleton.1 hd
    rcases toLower_eq_or_letter hc with h | h
    · exact h
    · simp [isMark, h] at hmark
  · have hsequences := isCaseImage_sequences
    have hruns := isCaseImage_runs
    rw [List.all_append, Bool.and_eq_true] at hsequences hruns
    rw [isMark_caseForm hsequences.1 hruns.1 (by omega) hd] at hmark
    exact absurd hmark (by simp)

/-- **No change of case makes a mark.** -/
theorem caseClosed_ne {m : Char} (hm : isMark m = true) : CaseClosed (· ≠ m) where
  upper := by
    rintro c hc d hd rfl
    exact hc (eq_of_mem_upperForm hd hm).symm
  lower := by
    rintro c hc d hd rfl
    exact hc (eq_of_mem_lowerForm hd hm).symm
  sigma := by
    intro _
    constructor <;> rintro rfl <;> exact absurd hm (by decide)

/-- A change of case keeps ASCII words. -/
theorem caseClosed_isAsciiWordPart : CaseClosed (isAsciiWordPart · = true) where
  upper := by
    intro c hc d hd
    rw [upperForm, if_pos (toNat_lt_of_isAsciiWordPart hc)] at hd
    obtain rfl := List.mem_singleton.1 hd
    rcases toUpper_eq_or_letter (toNat_lt_of_isAsciiWordPart hc) with h | h
    · rwa [h]
    · simp [isAsciiWordPart, h]
  lower := by
    intro c hc d hd
    rw [lowerForm, if_pos (toNat_lt_of_isAsciiWordPart hc)] at hd
    obtain rfl := List.mem_singleton.1 hd
    rcases toLower_eq_or_letter (toNat_lt_of_isAsciiWordPart hc) with h | h
    · rwa [h]
    · simp [isAsciiWordPart, h]
  sigma := fun h => absurd h (by decide)

end Text

/-- The text that the class of a table is named after. -/
theorem toList_squashed (table : String) :
    ("squashed_" ++ table ++ "_table").toList =
      "squashed_".toList ++ table.toList ++ "_table".toList := by
  simp [String.toList_append]

/-- **A mark in the name of a class stands in the name of its table**, if it is no underscore. -/
theorem mem_of_mem_className {m : Char} (hm : Text.isMark m = true) (hunderscore : m ≠ '_')
    {table : String} (h : m ∈ (className table).toList) : m ∈ table.toList := by
  rcases Decidable.em (m ∈ table.toList) with hmem | hmem
  · exact hmem
  have hconst : ∀ c ∈ "squashed_".toList ++ "_table".toList, c = '_' ∨ Text.isMark c = false := by
    decide
  refine absurd rfl ((Text.caseClosed_ne hm).pascalCase ?_ m h)
  rintro c hc rfl
  rw [toList_squashed, List.append_assoc, List.mem_append, List.mem_append] at hc
  have hc' : c ∈ "squashed_".toList ++ "_table".toList := by
    rw [List.mem_append]
    rcases hc with hc | hc | hc
    · exact Or.inl hc
    · exact absurd hc hmem
    · exact Or.inr hc
  rcases hconst c hc' with hc | hc
  · exact hunderscore hc
  · rw [hc] at hm
    exact absurd hm (by simp)

/-- The name of a class is an ASCII word if the name of its table is one. -/
theorem isAsciiWordPart_className {table : String}
    (h : ∀ c ∈ table.toList, Text.isAsciiWordPart c = true) :
    ∀ c ∈ (className table).toList, Text.isAsciiWordPart c = true := by
  refine Text.caseClosed_isAsciiWordPart.pascalCase ?_
  intro c hc
  rw [toList_squashed, List.append_assoc, List.mem_append, List.mem_append] at hc
  rcases hc with hc | hc | hc
  · revert c
    decide
  · exact h c hc
  · revert c
    decide

end SchemaHistory

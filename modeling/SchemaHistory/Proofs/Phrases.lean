import SchemaHistory.Proofs.ClassNames

/-!
# Phrases in any letter case

A phrase is looked for in a text that is put in lower case first. For most phrases this finds what
one means: the places at which the phrase stands in one letter case or another
(`SchemaHistory.Text.occursIn_lower_iff`). It would not for all. Changing the case of a character
above ASCII can give an ASCII letter, and it does for two: the Kelvin sign becomes `k`, and the
dotted capital I becomes `i` and a dot. A phrase without these letters is found in ASCII characters
only, since the lower case of every other character is a text in which no letter of the phrase
stands.

A phrase that starts and ends with a letter is found in a trimmed text wherever it stood before
(`SchemaHistory.Text.says_trim_iff`).
-/

namespace SchemaHistory.Text

/-- A text **says** a phrase if the phrase stands in it, in any letter case. -/
def Says (phrase s : List Char) : Prop :=
  ∃ v, v <:+: s ∧ v.map Char.toLower = phrase

/-- Whether a character is the lower case of ASCII characters alone. -/
def isAsciiImage (c : Char) : Bool :=
  decide (c.toNat < 0x80) && c != 'i' && c != 'k' && c != '\x00'

/-! ### The lower case of characters above ASCII -/

/-- Whether a code point may be that of a lower case form above ASCII: it is above ASCII itself, or
the code point of `i` or `k`. -/
def isLowerImage (n : Nat) : Bool :=
  decide (0x80 ≤ n) || n == 0x69 || n == 0x6B

theorem isLowerImage_sequences :
    lowerSequences.all (fun e => e.2.all isLowerImage) = true := by
  decide +kernel

theorem isLowerImage_runs :
    lowerRuns.all (fun r => decide (0x80 ≤ r.image) ||
      (isLowerImage r.image && r.first == r.last)) = true := by
  decide +kernel

theorem ne_nil_sequences : lowerSequences.all (fun e => !e.2.isEmpty) = true := by
  decide

theorem isAsciiImage_ofNat {n : Nat} (h : isLowerImage n = true) :
    isAsciiImage (Char.ofNat n) = false := by
  rw [isLowerImage, Bool.or_eq_true, Bool.or_eq_true, decide_eq_true_eq, beq_iff_eq,
    beq_iff_eq] at h
  rcases h with (h | rfl) | rfl
  · rcases toNat_ofNat_or n with hn | hz
    · have hnot : ¬n < 0x80 := by omega
      simp [isAsciiImage, hn, hnot]
    · rw [hz]
      rfl
  · decide
  · decide

theorem lowerForm_ne_nil (c : Char) : lowerForm c ≠ [] := by
  rw [lowerForm]
  split
  · exact List.cons_ne_nil _ _
  rw [caseForm]
  split
  · rename_i ns hns
    obtain ⟨l₁, l₂, hl, -⟩ := List.lookup_eq_some_iff.1 hns
    have hne := List.all_eq_true.1 ne_nil_sequences (c.toNat, ns) (by rw [hl]; simp)
    intro hmap
    rw [List.map_eq_nil_iff.1 hmap] at hne
    exact absurd hne (by simp)
  · split <;> exact List.cons_ne_nil _ _

/-- **The lower case of a character above ASCII holds no image of ASCII characters alone.** -/
theorem isAsciiImage_of_mem_lowerForm {c d : Char} (hc : 0x80 ≤ c.toNat) (hd : d ∈ lowerForm c) :
    isAsciiImage d = false := by
  have hok : ∀ n, 0x80 ≤ n → isLowerImage n = true := fun n hn => by simp [isLowerImage, hn]
  have hnot : ¬c.toNat < 0x80 := by omega
  rw [lowerForm, if_neg hnot] at hd
  have hcase := ofNat_of_mem_caseForm hok isLowerImage_sequences isLowerImage_runs hd
  rcases hcase with rfl | ⟨n, hn, rfl⟩
  · simp [isAsciiImage, hnot]
  · exact isAsciiImage_ofNat hn

/-- One step of the change to lower case: an ASCII character becomes one character, and any other
one becomes a text in which no image of ASCII characters alone stands. -/
theorem exists_lowerAfter_cons (cased : Bool) (c : Char) (s : List Char) :
    ∃ form cased', lowerAfter cased (c :: s) = form ++ lowerAfter cased' s ∧
      (c.toNat < 0x80 → form = [c.toLower]) ∧
      (0x80 ≤ c.toNat → form ≠ [] ∧ ∀ d ∈ form, isAsciiImage d = false) := by
  refine ⟨_, _, rfl, fun hc => ?_, fun hc => ?_⟩
  · have hsigma : c ≠ 'Σ' := by
      rintro rfl
      exact absurd hc (by decide)
    rw [if_neg hsigma, lowerForm, if_pos hc]
  · split
    · split
      · exact ⟨List.cons_ne_nil _ _, by decide⟩
      · exact ⟨List.cons_ne_nil _ _, by decide⟩
    · exact ⟨lowerForm_ne_nil c, fun d hd => isAsciiImage_of_mem_lowerForm hc hd⟩

/-! ### Phrases -/

theorem occursIn_iff {t s : List Char} : occursIn t s = true ↔ t <:+: s := by
  induction s with
  | nil => rw [occursIn, List.isEmpty_iff, List.infix_nil]
  | cons c s ih =>
    rw [occursIn, Bool.or_eq_true, List.isPrefixOf_iff_prefix, ih, List.infix_cons_iff]

/-- No character above ASCII has an image of ASCII characters alone as its lower case. -/
theorem toLower_ne {c k : Char} (hc : 0x80 ≤ c.toNat) (hk : isAsciiImage k = true) :
    c.toLower ≠ k := by
  rintro rfl
  rw [toLower_of_above hc] at hk
  have hnot : ¬c.toNat < 0x80 := by omega
  simp [isAsciiImage, hnot] at hk

section Phrase

variable {t : List Char} (ht : ∀ k ∈ t, isAsciiImage k = true)
include ht

theorem not_prefix_cons (hne : t ≠ []) {d : Char} (hd : isAsciiImage d = false) (s : List Char) :
    ¬t <+: d :: s := by
  intro h
  cases t with
  | nil => exact hne rfl
  | cons k t =>
    obtain ⟨rfl, -⟩ := List.cons_prefix_cons.1 h
    exact absurd (ht k List.mem_cons_self) (by simp [hd])

/-- A phrase stands behind the characters that are none of its own. -/
theorem infix_append_iff (hne : t ≠ []) {u s : List Char}
    (hu : ∀ d ∈ u, isAsciiImage d = false) : t <:+: u ++ s ↔ t <:+: s := by
  induction u with
  | nil => rfl
  | cons d u ih =>
    rw [List.cons_append, List.infix_cons_iff,
      or_iff_right (not_prefix_cons ht hne (hu d List.mem_cons_self) _),
      ih fun e he => hu e (List.mem_cons_of_mem d he)]

/-- A phrase at the start of a text in lower case is at its start in one case or another. -/
theorem prefix_lowerAfter_iff (cased : Bool) (s : List Char) :
    t <+: lowerAfter cased s ↔ ∃ v, v <+: s ∧ v.map Char.toLower = t := by
  induction t generalizing cased s with
  | nil => exact ⟨fun _ => ⟨[], List.nil_prefix, rfl⟩, fun _ => List.nil_prefix⟩
  | cons k t ih =>
    have htail := ih fun d hd => ht d (List.mem_cons_of_mem k hd)
    cases s with
    | nil => simp [lowerAfter]
    | cons c s =>
      obtain ⟨form, cased', hform, hascii, habove⟩ := exists_lowerAfter_cons cased c s
      rw [hform]
      by_cases hc : c.toNat < 0x80
      · rw [hascii hc, List.singleton_append, List.cons_prefix_cons, htail]
        constructor
        · rintro ⟨rfl, v, hv, rfl⟩
          exact ⟨c :: v, List.cons_prefix_cons.2 ⟨rfl, hv⟩, rfl⟩
        · rintro ⟨v, hv, hmap⟩
          obtain ⟨d, u, rfl, rfl, hu⟩ := List.map_eq_cons_iff.1 hmap
          obtain ⟨rfl, hus⟩ := List.cons_prefix_cons.1 hv
          exact ⟨rfl, u, hus, hu⟩
      · -- Neither the form of the character nor the character itself begins the phrase.
        obtain ⟨hne, himage⟩ := habove (by omega)
        obtain ⟨d, form, rfl⟩ := List.exists_cons_of_ne_nil hne
        refine iff_of_false (not_prefix_cons ht (List.cons_ne_nil k t)
          (himage d List.mem_cons_self) _) ?_
        rintro ⟨v, hv, hmap⟩
        obtain ⟨e, u, rfl, he, -⟩ := List.map_eq_cons_iff.1 hmap
        obtain ⟨rfl, -⟩ := List.cons_prefix_cons.1 hv
        exact toLower_ne (by omega) (ht k List.mem_cons_self) he

theorem infix_lowerAfter_iff (hne : t ≠ []) (cased : Bool) (s : List Char) :
    t <:+: lowerAfter cased s ↔ Says t s := by
  induction s generalizing cased with
  | nil => simp [lowerAfter, Says, eq_comm]
  | cons c s ih =>
    obtain ⟨form, cased', hform, hascii, habove⟩ := exists_lowerAfter_cons cased c s
    have hsplit : Says t (c :: s) ↔ t <+: lowerAfter cased (c :: s) ∨ Says t s := by
      rw [prefix_lowerAfter_iff ht]
      simp only [Says, List.infix_cons_iff, or_and_right, exists_or]
    rw [hsplit, hform, ← ih cased']
    by_cases hc : c.toNat < 0x80
    · rw [hascii hc, List.singleton_append, List.infix_cons_iff]
    · obtain ⟨hform, himage⟩ := habove (by omega)
      rw [infix_append_iff ht hne himage]
      obtain ⟨d, form, rfl⟩ := List.exists_cons_of_ne_nil hform
      exact (or_iff_right (not_prefix_cons ht hne (himage d List.mem_cons_self) _)).symm

/-- **A phrase is found in lower case exactly where it stands in one case or another.** -/
theorem occursIn_lower_iff (hne : t ≠ []) {s : List Char} :
    occursIn t (lower s) = true ↔ Says t s :=
  occursIn_iff.trans (infix_lowerAfter_iff ht hne false s)

end Phrase

/-! ### Trimming -/

theorem infix_trimStart_iff {v s : List Char} (hne : v ≠ [])
    (hv : ∀ c ∈ v.head?, isBlank c = false) : v <:+: trimStart s ↔ v <:+: s := by
  induction s with
  | nil => rfl
  | cons c s ih =>
    rw [trimStart, List.dropWhile_cons]
    split
    · have hprefix : ¬v <+: c :: s := by
        intro h
        obtain ⟨d, u, rfl⟩ := List.exists_cons_of_ne_nil hne
        obtain ⟨rfl, -⟩ := List.cons_prefix_cons.1 h
        exact absurd (hv d rfl) (by simp [*])
      rw [List.infix_cons_iff, or_iff_right hprefix]
      exact ih
    · rfl

theorem infix_trimEnd_iff {v s : List Char} (hne : v ≠ [])
    (hv : ∀ c ∈ v.getLast?, isBlank c = false) : v <:+: trimEnd s ↔ v <:+: s := by
  have hhead : ∀ c ∈ v.reverse.head?, isBlank c = false := by
    rwa [List.head?_reverse]
  rw [← List.reverse_infix, trimEnd, List.reverse_reverse, ← trimStart,
    infix_trimStart_iff (by simpa using hne) hhead, List.reverse_infix]

section Trimming

variable {t s : List Char} (hne : t ≠ [])
include hne

theorem says_trimStart_iff (hfirst : t.head?.all isAsciiLetter = true) :
    Says t (trimStart s) ↔ Says t s := by
  refine exists_congr fun v => and_congr_left fun hv => infix_trimStart_iff ?_ fun c hc => ?_
  · rintro rfl
    exact hne hv.symm
  · rw [← hv, List.head?_map, Option.mem_def.1 hc] at hfirst
    exact (not_isBlank_of_isAsciiLetter (isAsciiLetter_of_toLower hfirst)).1

theorem says_trimEnd_iff (hlast : t.getLast?.all isAsciiLetter = true) :
    Says t (trimEnd s) ↔ Says t s := by
  refine exists_congr fun v => and_congr_left fun hv => infix_trimEnd_iff ?_ fun c hc => ?_
  · rintro rfl
    exact hne hv.symm
  · rw [← hv, List.getLast?_map, Option.mem_def.1 hc] at hlast
    exact (not_isBlank_of_isAsciiLetter (isAsciiLetter_of_toLower hlast)).1

/-- **Trimming a text keeps the phrases in it** that start and end with a letter. -/
theorem says_trim_iff (hfirst : t.head?.all isAsciiLetter = true)
    (hlast : t.getLast?.all isAsciiLetter = true) : Says t (trim s) ↔ Says t s :=
  (says_trimEnd_iff hne hlast).trans (says_trimStart_iff hne hfirst)

end Trimming

end SchemaHistory.Text

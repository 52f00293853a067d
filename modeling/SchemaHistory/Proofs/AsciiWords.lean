import SchemaHistory.Proofs.LogicalLines

/-!
# Words

A **name** begins like a word and goes on like one, in letters of any script
(`SchemaHistory.Source.isName`). It is one lexeme as long as something else follows it
(`SchemaHistory.Source.lexemes_name`), because no letter and no numeral is blank.

The names of calls that scripts are written with are **ASCII words**: letters, digits and
underscores, with no digit in front. None of their characters matters to the layout of a script:
they have no blank, no quote, no bracket and no mark that ends a line.
-/

namespace SchemaHistory

open Text

namespace Text

/-- A property of all ASCII characters is one of the code points below 128. -/
theorem forall_ascii {P : Char → Prop} (h : ∀ n, n < 0x80 → P (Char.ofNat n)) {c : Char}
    (hc : c.toNat < 0x80) : P c := by
  have hchar := h c.toNat hc
  rwa [Char.ofNat_toNat] at hchar

/-- The letters whose case the core library changes are ASCII letters. -/
theorem toLower_of_above {c : Char} (hc : 0x80 ≤ c.toNat) : c.toLower = c := by
  delta Char.toLower
  rw [dif_neg]
  rintro ⟨-, hle⟩
  have hnat : c.toNat ≤ 90 := UInt32.le_iff_toNat_le.1 hle
  omega

/-- Whether a character is an ASCII letter, an ASCII digit or an underscore. -/
def isAsciiWordPart (c : Char) : Bool :=
  isAsciiLetter c || isDigit c || c == '_'

theorem toNat_lt_of_isAsciiWordPart {c : Char} (h : isAsciiWordPart c = true) : c.toNat < 0x80 := by
  have hle : ∀ d : Char, c ≤ d → d.toNat < 0x80 → c.toNat < 0x80 := fun d hcd hd =>
    Nat.lt_of_le_of_lt (UInt32.le_iff_toNat_le.1 hcd) hd
  simp only [isAsciiWordPart, isAsciiLetter, isDigit, Bool.or_eq_true, Bool.and_eq_true,
    decide_eq_true_eq, beq_iff_eq] at h
  rcases h with ((⟨-, h⟩ | ⟨-, h⟩) | ⟨-, h⟩) | rfl
  · exact hle 'z' h (by decide)
  · exact hle 'Z' h (by decide)
  · exact hle '9' h (by decide)
  · decide

/-- A property of all parts of words is decided by looking at them. -/
theorem forall_isAsciiWordPart {P : Char → Prop}
    (h : ∀ n, n < 0x80 → isAsciiWordPart (Char.ofNat n) = true → P (Char.ofNat n)) {c : Char}
    (hc : isAsciiWordPart c = true) : P c :=
  forall_ascii (P := fun c => isAsciiWordPart c = true → P c) h (toNat_lt_of_isAsciiWordPart hc) hc

theorem CodeSet.has_iff {s : CodeSet} {n : Nat} :
    s.has n = true ↔ ∃ r ∈ s, r.1 ≤ n ∧ n ≤ r.2 := by
  simp [CodeSet.has]

/-- The blanks above ASCII are no letters and no numerals. -/
theorem not_has_of_blank {n : Nat} (h : blanksAboveAscii.has n = true) :
    lettersAboveAscii.has n = false ∧ numeralsAboveAscii.has n = false := by
  have hall : ∀ r ∈ blanksAboveAscii, ∀ n ∈ List.range' r.1 (r.2 + 1 - r.1),
      lettersAboveAscii.has n = false ∧ numeralsAboveAscii.has n = false := by decide +kernel
  obtain ⟨r, hr, hle⟩ := CodeSet.has_iff.1 h
  exact hall r hr n (List.mem_range'_1.2 (by omega))

/-- **Letters and numerals are not blank**, in any script. -/
theorem isBlank_of_isLetterOrNumeral {c : Char} (h : isLetterOrNumeral c = true) :
    isBlank c = false := by
  by_cases hc : c.toNat < 0x80
  · exact forall_ascii (P := fun c => isLetterOrNumeral c = true → isBlank c = false)
      (by decide) hc h
  · rw [Bool.eq_false_iff]
    intro hblank
    have hspace : c ≠ ' ' := by
      rintro rfl
      exact hc (by decide)
    have hhas : blanksAboveAscii.has c.toNat = true := by
      simp only [isBlank, Bool.or_eq_true, beq_iff_eq, Bool.and_eq_true,
        decide_eq_true_eq, hspace, false_or] at hblank
      rcases hblank with ⟨-, hle⟩ | ⟨-, hhas⟩
      · omega
      · exact hhas
    obtain ⟨hletter, hnumeral⟩ := not_has_of_blank hhas
    have hascii : isAsciiLetter c = true ∨ isDigit c = true := by
      simpa [isLetterOrNumeral, isLetter, isNumeral, hletter, hnumeral] using h
    exact hc (toNat_lt_of_isAsciiWordPart (by simpa [isAsciiWordPart] using Or.inl hascii))

end Text

theorem isAsciiLetter_of_toLower {c : Char} (h : isAsciiLetter c.toLower = true) :
    isAsciiLetter c = true := by
  by_cases hc : c.toNat < 0x80
  · exact forall_ascii (P := fun c => isAsciiLetter c.toLower = true → isAsciiLetter c = true)
      (by decide) hc h
  · rwa [toLower_of_above (by omega)] at h

theorem not_isBlank_of_isAsciiLetter {c : Char} (h : isAsciiLetter c = true) :
    isBlank c = false ∧ c ≠ '(' :=
  forall_isAsciiWordPart (P := fun c => isBlank c = false ∧ c ≠ '(') (by decide)
    (by simp [isAsciiWordPart, h])

namespace Source

/-! ### Names of any script -/

theorem isBlank_of_isWordPart {c : Char} (h : isWordPart c = true) : isBlank c = false := by
  simp only [isWordPart, Bool.or_eq_true, beq_iff_eq] at h
  rcases h with (h | rfl) | rfl
  · exact isBlank_of_isLetterOrNumeral h
  · decide
  · decide

theorem isBlank_of_isVariablePart {c : Char} (h : isVariablePart c = true) : isBlank c = false :=
  isBlank_of_isWordPart (by simp_all [isVariablePart, isWordPart])

theorem isBlank_of_isNumberPart {c : Char} (h : isNumberPart c = true) : isBlank c = false := by
  simp only [isNumberPart, Bool.or_eq_true, beq_iff_eq] at h
  rcases h with h | rfl
  · exact isBlank_of_isLetterOrNumeral (by simp [isLetterOrNumeral, isNumeral, h])
  · decide

theorem isWordPart_of_isWordStart {c : Char} (h : isWordStart c = true) : isWordPart c = true := by
  simp only [isWordStart, Bool.or_eq_true, or_assoc] at h
  rcases h with h | h | h <;> simp [isWordPart, isLetterOrNumeral, h]

/-- What starts a word starts no other lexeme. -/
theorem class_of_isWordStart {c : Char} (h : isWordStart c = true) :
    isBlank c = false ∧ isDigit c = false ∧ c ≠ '$' := by
  refine ⟨isBlank_of_isWordPart (isWordPart_of_isWordStart h), ?_, ?_⟩
  · rw [Bool.eq_false_iff]
    intro hdigit
    have hlt : c.toNat < 0x80 := toNat_lt_of_isAsciiWordPart (by simp [isAsciiWordPart, hdigit])
    have hnot : isDigit c = false :=
      forall_ascii (P := fun c => isWordStart c = true → isDigit c = false) (by decide) hlt h
    exact absurd hdigit (by simp [hnot])
  · rintro rfl
    exact absurd h (by decide)

/-- Whether a text is a **name**: it begins like a word and goes on like one. -/
def isName : List Char → Bool
  | [] => false
  | c :: s => isWordStart c && s.all isWordPart

theorem isWordPart_of_isName {w : List Char} (h : isName w = true) :
    ∀ c ∈ w, isWordPart c = true := by
  cases w with
  | nil => simp
  | cons d w =>
    simp only [isName, Bool.and_eq_true] at h
    intro c hc
    rcases List.mem_cons.1 hc with rfl | hc
    · exact isWordPart_of_isWordStart h.1
    · exact List.all_eq_true.1 h.2 c hc

/-- **A name is one lexeme** if what follows does not go on with it. -/
theorem lexemes_name {w : List Char} (h : isName w = true) {s : List Char}
    (hs : ∀ e ∈ s.head?, isWordPart e = false) : lexemes (w ++ s) = ⟨.word, w⟩ :: lexemes s := by
  cases w with
  | nil => exact absurd h (by simp [isName])
  | cons c u =>
    simp only [isName, Bool.and_eq_true] at h
    obtain ⟨hblank, hdigit, hvar⟩ := class_of_isWordStart h.1
    have hfirst : Lexeme.startingWith c (u ++ s) = (⟨.word, c :: u⟩, s) := by
      unfold Lexeme.startingWith
      rw [if_neg (by simp [hblank]), if_neg (by simp [hdigit]), if_neg hvar, if_pos h.1,
        run_append (List.all_eq_true.1 h.2) hs]
    rw [List.cons_append, lexemes_cons hfirst]

/-- A variable is one lexeme if what follows does not go on with it. -/
theorem lexemes_variable {v s : List Char} (hv : ∀ c ∈ v, isVariablePart c = true)
    (hs : ∀ e ∈ s.head?, isVariablePart e = false) :
    lexemes ('$' :: (v ++ s)) = ⟨.variable, '$' :: v⟩ :: lexemes s :=
  lexemes_cons (run_append hv hs)

/-- A number is one lexeme if what follows does not go on with it. -/
theorem lexemes_number {c : Char} {s t : List Char} (hc : isDigit c = true)
    (hs : ∀ d ∈ s, isNumberPart d = true) (ht : ∀ e ∈ t.head?, isNumberPart e = false) :
    lexemes (c :: (s ++ t)) = ⟨.number, c :: s⟩ :: lexemes t := by
  have hblank : isBlank c = false := isBlank_of_isNumberPart (by simp [isNumberPart, hc])
  have hfirst : Lexeme.startingWith c (s ++ t) = (⟨.number, c :: s⟩, t) := by
    unfold Lexeme.startingWith
    rw [if_neg (by simp [hblank]), if_pos hc, run_append hs ht]
  exact lexemes_cons hfirst

/-- The sign of a number is a lexeme of its own. -/
theorem lexemes_sign {sign c : Char} (hsign : sign = '-' ∨ sign = '+') (hc : isDigit c = true)
    (s : List Char) : lexemes (sign :: c :: s) = ⟨.other, [sign]⟩ :: lexemes (c :: s) := by
  rcases hsign with rfl | rfl
  · have hgt : c ≠ '>' := by
      rintro rfl
      exact absurd hc (by decide)
    refine lexemes_cons ?_
    unfold Lexeme.startingWith
    rw [if_neg (by decide), if_neg (by decide), if_neg (by decide), if_neg (by decide),
      if_neg (by decide)]
    split <;> simp_all [markKind]
  · exact lexemes_cons rfl

/-! ### ASCII words -/

/-- Whether a text is an **ASCII word** that no digit starts. -/
def isWord : List Char → Bool
  | [] => false
  | c :: s => !isDigit c && isAsciiWordPart c && s.all isAsciiWordPart

theorem isAsciiWordPart_of_isWord {s : List Char} (h : isWord s = true) :
    ∀ c ∈ s, isAsciiWordPart c = true := by
  cases s with
  | nil => simp
  | cons d s =>
    simp only [isWord, Bool.and_eq_true] at h
    intro c hc
    rcases List.mem_cons.1 hc with rfl | hc
    · exact h.1.2
    · exact List.all_eq_true.1 h.2 c hc

/-- The parts of words are parts of words to the lexer, and nothing else. -/
theorem class_of_isAsciiWordPart {c : Char} (h : isAsciiWordPart c = true) :
    isWordPart c = true ∧ isBlank c = false ∧ c ≠ '$' ∧ isInert c = true ∧
      (isDigit c = false → isWordStart c = true) :=
  forall_isAsciiWordPart (P := fun c => isWordPart c = true ∧ isBlank c = false ∧ c ≠ '$' ∧
    isInert c = true ∧ (isDigit c = false → isWordStart c = true)) (by decide) h

theorem isInline_of_isAsciiWordPart {c : Char} (h : isAsciiWordPart c = true) :
    isInline c = true :=
  forall_isAsciiWordPart (P := fun c => isInline c = true) (by decide) h

/-- ASCII words are names. -/
theorem isName_of_isWord {w : List Char} (h : isWord w = true) : isName w = true := by
  cases w with
  | nil => exact absurd h (by simp [isWord])
  | cons c u =>
    have hparts := isAsciiWordPart_of_isWord h
    have hdigit : isDigit c = false := by
      simp only [isWord, Bool.and_eq_true] at h
      simpa using h.1.1
    rw [isName, Bool.and_eq_true]
    exact ⟨(class_of_isAsciiWordPart (hparts c List.mem_cons_self)).2.2.2.2 hdigit,
      List.all_eq_true.2 fun d hd =>
        (class_of_isAsciiWordPart (hparts d (List.mem_cons_of_mem c hd))).1⟩

/-- A word is one lexeme if what follows does not go on with it. -/
theorem lexemes_word {w : List Char} (h : isWord w = true) {d : Char} (hd : isWordPart d = false)
    (s : List Char) : lexemes (w ++ d :: s) = ⟨.word, w⟩ :: lexemes (d :: s) := by
  refine lexemes_name (isName_of_isWord h) fun e he => ?_
  obtain rfl : d = e := by simpa using he
  exact hd

end Source

end SchemaHistory

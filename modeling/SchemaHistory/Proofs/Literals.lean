import SchemaHistory.Proofs.QuietLines
import SchemaHistory.Proofs.ReadChain

/-!
# Literals

The parameters and the default of a column are copied into its statement as they are, so what they
are allowed to be decides whether the statement is read back as it was written. **Literals** are:
numbers, words, quoted names, and arrays of literals (`SchemaHistory.IsLiteral`).

Everything that the readers of a line ask about a copied text has a good answer for a literal, and
these answers are collected in one structure (`SchemaHistory.Tame`). It is closed under putting
texts in a row with commas between them (`SchemaHistory.Tame.comma`) and under brackets
(`SchemaHistory.Tame.brackets`), so it follows for all literals by induction
(`SchemaHistory.IsLiteral.tame`).
-/

namespace SchemaHistory

open Source Text

/-! ### Tame texts -/

/-- A text is **tame** if it is read in the same way wherever it stands: its strings are closed, it
stays on its line, its brackets are level, and it holds nothing that a reader of lines looks
for. -/
structure Tame (s : List Char) : Prop where
  sealed : Sealed s
  inline : ∀ c ∈ s, isInline c = true
  quiet : Quiet s
  level : Level (kinds s)
  noClass : .doubleColon ∉ kinds s
  starts : ∀ c ∈ s.head?, isBlank c = false
  tight : Tight s

namespace Tame

theorem nil : Tame [] where
  sealed := .nil
  inline := by simp
  quiet := .nil
  level := by rw [kinds_nil]; exact .nil
  noClass := by simp
  starts := by simp
  tight := by simp [Tight]

/-- A text without quotes, comments and blanks is tame if its kinds are. -/
theorem of_chars {s : List Char}
    (h : ∀ c ∈ s, isInline c = true ∧ isInert c = true ∧ isBlank c = false)
    (hlevel : Level (kinds s)) (hclass : .doubleColon ∉ kinds s) : Tame s where
  sealed := by
    have hsealed := (Sealed.append_iff (s := []) fun c hc => (h c hc).2.1).2 .nil
    rwa [List.append_nil] at hsealed
  inline := fun c hc => (h c hc).1
  quiet := quiet_of_not_isBlank fun c hc => (h c hc).2.2
  level := hlevel
  noClass := hclass
  starts := fun c hc => (h c (List.mem_of_mem_head? hc)).2.2
  tight := fun c hc => (h c (List.mem_of_getLast? hc)).2.2

/-- Behind a comma or a bracket, blanks leave no half of a pattern. -/
theorem quiet_gap {c : Char} (hc : c = ',' ∨ c = '[') {g : List Char} (hg : ∀ d ∈ g, d = ' ') :
    Quiet (c :: g) := by
  have hstep : ∀ w : Watch, w.step c = some .idle := by
    rcases hc with rfl | rfl <;> intro w <;> cases w <;> decide
  have hrun : Watch.idle.run g = some .idle := by
    induction g with
    | nil => rfl
    | cons d g ih =>
      rw [hg d List.mem_cons_self]
      exact ih fun e he => hg e (List.mem_cons_of_mem d he)
  intro w _
  exact ⟨.idle, by decide, by rw [Watch.run, hstep]; exact hrun⟩

/-- **Tame texts stay tame with a comma and spaces between them.** -/
theorem comma {s t g : List Char} (hs : Tame s) (ht : Tame t) (hne : t ≠ [])
    (hg : ∀ c ∈ g, c = ' ') : Tame (s ++ ',' :: (g ++ t)) := by
  have hblank : ∀ c ∈ g, isBlank c = true := fun c hc => by rw [hg c hc]; decide
  have hkinds : kinds (s ++ ',' :: (g ++ t)) = kinds s ++ .comma :: kinds t := by
    have hcomma : Lexeme.startingWith ',' (g ++ t) = (⟨.comma, [',']⟩, g ++ t) := rfl
    rw [hs.sealed.kinds_append (by decide), kinds_cons hcomma (by simp), kinds_gap hblank ht.starts]
  have hsplit : s ++ ',' :: (g ++ t) = s ++ ((',' :: g) ++ t) := by simp
  refine ⟨?_, ?_, ?_, ?_, ?_, ?_, ?_⟩
  · refine hs.sealed.append ((Sealed.cons_iff (by decide)).2 ?_) (by simp)
    refine (Sealed.append_iff fun c hc => ?_).2 ht.sealed
    rw [hg c hc]
    decide
  · intro c hc
    rcases List.mem_append.1 hc with hc | hc
    · exact hs.inline c hc
    rcases List.mem_cons.1 hc with rfl | hc
    · decide
    rcases List.mem_append.1 hc with hc | hc
    · rw [hg c hc]
      decide
    · exact ht.inline c hc
  · rw [hsplit]
    exact hs.quiet.append ((quiet_gap (Or.inl rfl) hg).append ht.quiet)
  · rw [hkinds]
    exact hs.level.append (ht.level.cons rfl rfl)
  · rw [hkinds]
    simp [hs.noClass, ht.noClass]
  · intro c hc
    cases s with
    | nil =>
      obtain rfl : ',' = c := by simpa using hc
      decide
    | cons d s => exact hs.starts c hc
  · rw [hsplit, ← List.append_assoc]
    exact ht.tight.append_left hne _

/-- Tame texts in a row are tame. -/
theorem row {first : List Char} {others : List (List Char × List Char)} (hfirst : Tame first)
    (hothers : ∀ i ∈ others, Tame i.2 ∧ i.2 ≠ []) (hgaps : ∀ i ∈ others, ∀ c ∈ i.1, c = ' ') :
    Tame (first ++ others.flatMap fun i => ',' :: (i.1 ++ i.2)) := by
  induction others generalizing first with
  | nil => simpa using hfirst
  | cons i others ih =>
    obtain ⟨htame, hne⟩ := hothers i List.mem_cons_self
    have hnext := hfirst.comma htame hne (hgaps i List.mem_cons_self)
    have hrow := ih hnext (fun j hj => hothers j (List.mem_cons_of_mem i hj))
      fun j hj => hgaps j (List.mem_cons_of_mem i hj)
    simpa using hrow

/-- **A tame text stays tame between brackets.** -/
theorem brackets {s : List Char} (hs : Tame s) : Tame ('[' :: (s ++ [']'])) := by
  have hend : kinds [']'] = [.closeBracket] := by
    rw [kinds_cons (l := ⟨.closeBracket, [']']⟩) (t := []) rfl (by simp), kinds_nil]
  have hkinds : kinds ('[' :: (s ++ [']'])) = .openBracket :: (kinds s ++ [.closeBracket]) := by
    have hopen : Lexeme.startingWith '[' (s ++ [']']) = (⟨.openBracket, ['[']⟩, s ++ [']']) := rfl
    rw [kinds_cons hopen (by simp), hs.sealed.kinds_append (by decide), hend]
  refine ⟨?_, ?_, ?_, ?_, ?_, ?_, ?_⟩
  · exact (Sealed.cons_iff (by decide)).2 (hs.sealed.append (by decide) (by simp))
  · intro c hc
    rcases List.mem_cons.1 hc with rfl | hc
    · decide
    rcases List.mem_append.1 hc with hc | hc
    · exact hs.inline c hc
    · obtain rfl := List.mem_singleton.1 hc
      decide
  · have hopen : Quiet ['['] := quiet_gap (Or.inr rfl) (by simp)
    exact hopen.append (hs.quiet.append (quiet_of_not_isBlank (by decide)))
  · rw [hkinds]
    exact hs.level.brackets
  · rw [hkinds]
    simp [hs.noClass]
  · intro c hc
    obtain rfl : '[' = c := by simpa using hc
    decide
  · intro c hc
    rw [← List.cons_append, List.getLast?_concat] at hc
    obtain rfl : ']' = c := by simpa using hc
    decide

end Tame

/-! ### Literals -/

/-- Whether a character can stand in a quoted name. -/
def isNamePart (c : Char) : Bool :=
  isAsciiWordPart c || c == '-' || c == '.' || c == ':'

/-- The **literals** that a statement may hold. -/
inductive IsLiteral : List Char → Prop
  /-- A number, with or without a minus sign, and with or without a fraction. -/
  | number {sign whole fraction : List Char} (hsign : sign = [] ∨ sign = ['-'])
    (hne : whole ≠ []) (hwhole : ∀ c ∈ whole, isDigit c = true)
    (hfraction : fraction = [] ∨
      ∃ u, u ≠ [] ∧ (∀ c ∈ u, isDigit c = true) ∧ fraction = '.' :: u) :
    IsLiteral (sign ++ (whole ++ fraction))
  /-- A word that starts with a letter. -/
  | word {c : Char} {s : List Char} (hc : isAsciiLetter c = true)
    (hs : ∀ d ∈ s, isAsciiWordPart d = true) : IsLiteral (c :: s)
  /-- A name between single quotes. -/
  | quoted {s : List Char} (hs : ∀ c ∈ s, isNamePart c = true) : IsLiteral ('\'' :: (s ++ ['\'']))
  /-- An array without items. -/
  | emptyArray : IsLiteral ['[', ']']
  /-- An array of literals, each but the first behind a comma and any number of spaces. -/
  | array {first : List Char} {others : List (List Char × List Char)} (hfirst : IsLiteral first)
    (hgaps : ∀ i ∈ others, ∀ c ∈ i.1, c = ' ') (hothers : ∀ i ∈ others, IsLiteral i.2) :
    IsLiteral ('[' :: (first ++ (others.flatMap fun i => ',' :: (i.1 ++ i.2)) ++ [']']))

/-- The parts of names do not matter outside of strings. -/
theorem class_of_isNamePart {c : Char} (h : isNamePart c = true) :
    isInline c = true ∧ isInert c = true ∧ isBlank c = false ∧ c ≠ '\\' ∧ c ≠ '(' := by
  rw [isNamePart, Bool.or_eq_true, Bool.or_eq_true, Bool.or_eq_true] at h
  rcases h with ((h | h) | h) | h
  · exact forall_isAsciiWordPart (P := fun c => isInline c = true ∧ isInert c = true ∧
      isBlank c = false ∧ c ≠ '\\' ∧ c ≠ '(') (by decide) h
  all_goals
    obtain rfl := eq_of_beq h
    decide

theorem isNamePart_of_isAsciiWordPart {c : Char} (h : isAsciiWordPart c = true) :
    isNamePart c = true := by
  simp [isNamePart, h]

theorem isNamePart_of_isDigit {c : Char} (h : isDigit c = true) : isNamePart c = true :=
  isNamePart_of_isAsciiWordPart (by simp [isAsciiWordPart, h])

/-- A text without single quotes and escapes can stand between quotes. -/
theorem isQuotable_of_forall {s : List Char} (h : ∀ c ∈ s, c ≠ '\'' ∧ c ≠ '\\') :
    isQuotable s = true := by
  induction s with
  | nil => rfl
  | cons c s ih =>
    obtain ⟨hquote, hescape⟩ := h c List.mem_cons_self
    rw [isQuotable]
    · simp [hquote, ih fun d hd => h d (List.mem_cons_of_mem c hd)]
    · exact fun hc => absurd hc hescape
    · exact fun _ _ hc => absurd hc hescape

theorem kinds_number {c : Char} {s : List Char} (hc : isDigit c = true)
    (hs : ∀ d ∈ s, isNumberPart d = true) : kinds (c :: s) = [.number] := by
  have hnumber := lexemes_number hc hs (t := []) (by simp)
  rw [List.append_nil] at hnumber
  rw [kinds_of_lexemes hnumber (by simp), kinds_nil]

theorem kinds_word {c : Char} {s : List Char} (hc : isAsciiLetter c = true)
    (hs : ∀ d ∈ s, isAsciiWordPart d = true) : kinds (c :: s) = [.word] := by
  have hpart : isAsciiWordPart c = true := by simp [isAsciiWordPart, hc]
  have hdigit : isDigit c = false :=
    forall_isAsciiWordPart (P := fun c => isAsciiLetter c = true → isDigit c = false) (by decide)
      hpart hc
  have hword : isWord (c :: s) = true := by
    simp only [isWord, hdigit, hpart, Bool.not_false, Bool.true_and]
    exact List.all_eq_true.2 hs
  have hname := lexemes_name (isName_of_isWord hword) (s := []) (by simp)
  rw [List.append_nil] at hname
  rw [kinds_of_lexemes hname (by simp), kinds_nil]

theorem kinds_quoted {s : List Char} (h : isQuotable s = true) :
    kinds ('\'' :: (s ++ ['\''])) = [.quoted] := by
  have hfirst : Lexeme.startingWith '\'' (s ++ ['\'']) =
      (⟨.quoted, '\'' :: (s ++ ['\''])⟩, []) := by
    have hstart : Lexeme.startingWith '\'' (s ++ ['\'']) =
        (⟨.quoted, '\'' :: (untilClosed '\'' (s ++ ['\''])).1⟩,
          (untilClosed '\'' (s ++ ['\''])).2) := rfl
    rw [hstart, untilClosed_of_isQuotable h]
  rw [kinds_cons hfirst (by simp), kinds_nil]

namespace IsLiteral

theorem ne_nil {s : List Char} (h : IsLiteral s) : s ≠ [] := by
  cases h with
  | number _ hne _ _ => simp [hne]
  | word => simp
  | quoted => simp
  | emptyArray => simp
  | array => simp

/-- A number, whatever its sign, is tame. -/
theorem tame_number {sign : List Char} {c : Char} {s : List Char}
    (hsign : sign = [] ∨ sign = ['-']) (hc : isDigit c = true)
    (hs : ∀ d ∈ s, isNumberPart d = true) : Tame (sign ++ c :: s) := by
  have hpart : ∀ d, isNumberPart d = true → isNamePart d = true := by
    intro d hd
    rw [isNumberPart, Bool.or_eq_true] at hd
    rcases hd with hd | hd
    · exact isNamePart_of_isDigit hd
    · simp [isNamePart, hd]
  have hnumber := kinds_number hc hs
  have hkinds : kinds (sign ++ c :: s) = [.number] ∨
      kinds (sign ++ c :: s) = [.other, .number] := by
    rcases hsign with rfl | rfl
    · exact Or.inl hnumber
    · right
      rw [List.singleton_append, kinds_of_lexemes (lexemes_sign (Or.inl rfl) hc s) (by simp),
        hnumber]
  refine .of_chars (fun d hd => ?_) ?_ ?_
  · have hname : isNamePart d = true := by
      rcases List.mem_append.1 hd with hd | hd
      · rcases hsign with rfl | rfl
        · exact absurd hd (by simp)
        · obtain rfl := List.mem_singleton.1 hd
          decide
      rcases List.mem_cons.1 hd with rfl | hd
      · exact isNamePart_of_isDigit hc
      · exact hpart d (hs d hd)
    obtain ⟨h1, h2, h3, -, -⟩ := class_of_isNamePart hname
    exact ⟨h1, h2, h3⟩
  · rcases hkinds with h | h <;> rw [h]
    · exact .cons rfl rfl .nil
    · exact .cons rfl rfl (.cons rfl rfl .nil)
  · rcases hkinds with h | h <;> rw [h] <;> decide

/-- A name between quotes is tame. -/
theorem tame_quoted {s : List Char} (hs : ∀ c ∈ s, isNamePart c = true) :
    Tame ('\'' :: (s ++ ['\''])) := by
  have hquotable : isQuotable s = true := isQuotable_of_forall fun c hc => by
    obtain ⟨-, hinert, -, hescape, -⟩ := class_of_isNamePart (hs c hc)
    exact ⟨(isInert_iff.1 hinert).1, hescape⟩
  have hkinds := kinds_quoted hquotable
  have hchars : ∀ c ∈ '\'' :: (s ++ ['\'']), isInline c = true ∧ isBlank c = false := by
    intro c hc
    rw [List.mem_cons, List.mem_append, List.mem_singleton] at hc
    rcases hc with rfl | hc | rfl
    · decide
    · exact ⟨(class_of_isNamePart (hs c hc)).1, (class_of_isNamePart (hs c hc)).2.2.1⟩
    · decide
  refine ⟨?_, fun c hc => (hchars c hc).1, quiet_of_not_isBlank fun c hc => (hchars c hc).2, ?_, ?_,
    fun c hc => (hchars c (List.mem_of_mem_head? hc)).2,
    fun c hc => (hchars c (List.mem_of_getLast? hc)).2⟩
  · rw [Sealed, regionAfter_quote _ (by decide), regionAfter_of_isQuotable hquotable]
    rfl
  · rw [hkinds]
    exact .cons rfl rfl .nil
  · rw [hkinds]
    decide

/-- **Every literal is tame.** -/
theorem tame {s : List Char} (h : IsLiteral s) : Tame s := by
  induction h with
  | @number sign whole fraction hsign hne hwhole hfraction =>
    cases whole with
    | nil => exact absurd rfl hne
    | cons c s =>
      refine tame_number hsign (hwhole c List.mem_cons_self) fun d hd => ?_
      rcases List.mem_append.1 hd with hd | hd
      · simp [isNumberPart, hwhole d (List.mem_cons_of_mem c hd)]
      rcases hfraction with rfl | ⟨u, -, hu, rfl⟩
      · exact absurd hd (by simp)
      rcases List.mem_cons.1 hd with rfl | hd
      · decide
      · simp [isNumberPart, hu d hd]
  | @word c s hc hs =>
    have hkinds := kinds_word hc hs
    refine .of_chars (fun d hd => ?_) ?_ ?_
    · have hpart : isNamePart d = true := by
        rcases List.mem_cons.1 hd with rfl | hd
        · simp [isNamePart, isAsciiWordPart, hc]
        · simp [isNamePart, hs d hd]
      obtain ⟨h1, h2, h3, -, -⟩ := class_of_isNamePart hpart
      exact ⟨h1, h2, h3⟩
    · rw [hkinds]
      exact .cons rfl rfl .nil
    · rw [hkinds]
      decide
  | quoted hs => exact tame_quoted hs
  | emptyArray => exact Tame.nil.brackets
  | @array first others hfirst hgaps hothers ihfirst ihothers =>
    exact (ihfirst.row (fun i hi => ⟨ihothers i hi, (hothers i hi).ne_nil⟩) hgaps).brackets

end IsLiteral

/-- A text of one or more literals, each but the first behind a comma and a space. -/
def IsLiteralList (s : List Char) : Prop :=
  ∃ (first : List Char) (others : List (List Char)), IsLiteral first ∧
    (∀ l ∈ others, IsLiteral l) ∧
    s = first ++ others.flatMap fun l => ',' :: ' ' :: l

theorem IsLiteralList.ne_nil {s : List Char} (h : IsLiteralList s) : s ≠ [] := by
  obtain ⟨first, others, hfirst, -, rfl⟩ := h
  simp [hfirst.ne_nil]

/-- **A list of literals is tame.** -/
theorem IsLiteralList.tame {s : List Char} (h : IsLiteralList s) : Tame s := by
  obtain ⟨first, others, hfirst, hothers, rfl⟩ := h
  have hitems : ∀ i ∈ others.map fun l => ([' '], l), Tame i.2 ∧ i.2 ≠ [] := by
    intro i hi
    obtain ⟨l, hl, rfl⟩ := List.mem_map.1 hi
    exact ⟨(hothers l hl).tame, (hothers l hl).ne_nil⟩
  have hgaps : ∀ i ∈ others.map fun l => ([' '], l), ∀ c ∈ i.1, c = ' ' := by
    intro i hi
    obtain ⟨l, -, rfl⟩ := List.mem_map.1 hi
    simp
  have hrow := hfirst.tame.row hitems hgaps
  rwa [List.flatMap_map] at hrow

end SchemaHistory

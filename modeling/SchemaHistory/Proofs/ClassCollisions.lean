import SchemaHistory.Proofs.ClassNames
import SchemaHistory.Schema

/-!
# When two classes have one name

The scripts of a squash are loaded together, so it matters whether two tables can have classes of
one name. They can: underscores vanish from the name of a class, and so does the case of letters
that start no word. For names of ASCII letters, digits and underscores this file says exactly when
it happens.

What is left of a name is its row of words (`SchemaHistory.Text.nameWords`): words of letters, whose
case no longer counts, and numbers, which run together if nothing but underscores stands between
them. A capital shows where a word of letters starts, a digit where a number does, and two numbers
never stand side by side; so the row can be read off the name of the class
(`SchemaHistory.Text.eq_of_flatMap_capitalize`), and two names have one class exactly if they have
one row of words (`SchemaHistory.className_collides_iff`). Where the case of class names does not
count either, the words do not matter any more, only the letters and digits.
-/

namespace SchemaHistory

namespace Text

/-- Whether a character is a **small** ASCII letter. -/
def isSmall (c : Char) : Bool :=
  decide ('a' ≤ c) && decide (c ≤ 'z')

/-- Whether a character is a **capital** ASCII letter. -/
def isCapital (c : Char) : Bool :=
  decide ('A' ≤ c) && decide (c ≤ 'Z')

/-! ### Clusters of ASCII names -/

/-- A context in which an ASCII character starts a cluster of its own. -/
structure Context.Plain (x : Context) : Prop where
  last : x.last = .other
  picture : x.picture = .none

theorem breakClass_of_isAsciiWordPart {c : Char} (h : isAsciiWordPart c = true) :
    breakClass c = .other :=
  forall_isAsciiWordPart (P := fun c => breakClass c = .other) (by decide) h

theorem isPictograph_of_isAsciiWordPart {c : Char} (h : isAsciiWordPart c = true) :
    isPictograph c = false := by
  have hlt := toNat_lt_of_isAsciiWordPart h
  have hnot : ¬0x80 ≤ c.toNat := by omega
  simp [isPictograph, hnot]

theorem Context.plain_push {x : Context} {c : Char} (h : isAsciiWordPart c = true) :
    (x.push c).Plain where
  last := breakClass_of_isAsciiWordPart h
  picture := by
    simp [push, PictureState.push, isPictograph_of_isAsciiWordPart h,
      breakClass_of_isAsciiWordPart h]

theorem Context.Plain.joins_eq {x : Context} (hx : x.Plain) {c : Char}
    (h : isAsciiWordPart c = true) : x.joins c = false := by
  have hlt := toNat_lt_of_isAsciiWordPart h
  have hnot : ¬0x80 ≤ c.toNat := by omega
  simp [joins, hx.last, hx.picture, breakClass_of_isAsciiWordPart h, hnot]

/-- **Each character of an ASCII name is a cluster.** -/
theorem graphemes_of_isAsciiWordPart {s : List Char} (h : ∀ c ∈ s, isAsciiWordPart c = true) :
    graphemes s = s.map ([·]) := by
  have hclusters : ∀ (x : Context) (c : Char), x.Plain → ∀ s : List Char,
      (∀ d ∈ s, isAsciiWordPart d = true) → clustersAfter x [c] s = [c] :: s.map ([·]) := by
    intro x c hx s hs
    induction s generalizing x c with
    | nil => rfl
    | cons d s ih =>
      have hd := hs d List.mem_cons_self
      rw [clustersAfter, hx.joins_eq hd, if_neg (by simp),
        ih _ _ (Context.plain_push hd) fun e he => hs e (List.mem_cons_of_mem d he), List.map_cons]
  cases s with
  | nil => rfl
  | cons c s =>
    have hc := h c List.mem_cons_self
    exact hclusters _ c (Context.plain_push hc) s fun d hd => h d (List.mem_cons_of_mem c hd)

/-! ### Case of ASCII names -/

theorem lower_of_ascii {s : List Char} (h : ∀ c ∈ s, c.toNat < 0x80) :
    lower s = s.map Char.toLower := by
  have hafter : ∀ (cased : Bool), lowerAfter cased s = s.map Char.toLower := by
    induction s with
    | nil => exact fun _ => rfl
    | cons c s ih =>
      intro cased
      have hc := h c List.mem_cons_self
      have hsigma : c ≠ 'Σ' := by
        rintro rfl
        exact absurd hc (by decide)
      rw [lowerAfter, if_neg hsigma, lowerForm, if_pos hc,
        ih fun d hd => h d (List.mem_cons_of_mem c hd)]
      rfl
  exact hafter false

theorem upperForm_of_ascii {c : Char} (h : c.toNat < 0x80) : upperForm c = [c.toUpper] := by
  rw [upperForm, if_pos h]

/-! ### Words of ASCII names -/

/-- What the kinds of single characters are. -/
theorem kinds_of_isAsciiWordPart {c : Char} (h : isAsciiWordPart c = true) :
    isUpperCluster [c] = isCapital c ∧ isLowerCluster [c] = isSmall c ∧
      isDigitCluster [c] = isDigit c ∧ isSeparator [c] = (c == '_') :=
  forall_isAsciiWordPart (P := fun c => isUpperCluster [c] = isCapital c ∧
    isLowerCluster [c] = isSmall c ∧ isDigitCluster [c] = isDigit c ∧
      isSeparator [c] = (c == '_')) (by decide +kernel) h

/-- A word is **uniform** if it has only letters or only digits. -/
def IsUniform (w : List Char) : Prop :=
  (∀ c ∈ w, isAsciiLetter c = true) ∨ ∀ c ∈ w, isDigit c = true

theorem isAsciiLetter_eq (c : Char) : isAsciiLetter c = (isSmall c || isCapital c) := rfl

/-- Where the kind of ASCII characters does not change, a letter stands behind a letter and a digit
behind a digit. -/
theorem same_of_changesKind {c d : Char} (hc : isAsciiWordPart c = true)
    (hd : isAsciiWordPart d = true) (hunderscore : d ≠ '_') (h : changesKind [c] [d] = false) :
    (isAsciiLetter c = true → isAsciiLetter d = true) ∧ (isDigit c = true → isDigit d = true) := by
  obtain ⟨hcu, hcl, hcd, -⟩ := kinds_of_isAsciiWordPart hc
  obtain ⟨hdu, hdl, hdd, -⟩ := kinds_of_isAsciiWordPart hd
  have hkind : isAsciiLetter d = true ∨ isDigit d = true := by
    simpa [isAsciiWordPart, hunderscore] using hd
  rw [isAsciiLetter_eq, isAsciiLetter_eq, Bool.or_eq_true, Bool.or_eq_true] at *
  simp only [changesKind, hcu, hcl, hcd, hdu, hdl, hdd, Bool.or_eq_false_iff,
    Bool.and_eq_false_iff] at h
  grind

/-- Whether a word is a **number**. -/
def isNumber (w : List Char) : Bool :=
  w.all isDigit

theorem isUniform_singleton {c : Char} (hc : isAsciiWordPart c = true) (hunderscore : c ≠ '_') :
    IsUniform [c] := by
  have hkind : isAsciiLetter c = true ∨ isDigit c = true := by
    simpa [isAsciiWordPart, hunderscore] using hc
  exact hkind.imp (fun h d hd => List.mem_singleton.1 hd ▸ h)
    fun h d hd => List.mem_singleton.1 hd ▸ h

/-- A word that is **being read**, with the character before the next one: there is nothing of it
yet, or it is uniform and ends with this character. -/
def IsBegun (word : List Char) (before : Option (List Char)) : Prop :=
  word = [] ∨ ∃ init c, word = init ++ [c] ∧ before = some [c] ∧ isAsciiWordPart c = true ∧
    IsUniform word

theorem IsBegun.isUniform {word : List Char} {before : Option (List Char)}
    (h : IsBegun word before) : IsUniform word := by
  rcases h with rfl | ⟨-, -, -, -, -, h⟩
  · exact Or.inl (by simp)
  · exact h

/-- A character that starts no word is of the kind of the word that is being read. -/
theorem IsBegun.push {word : List Char} {before after : Option (List Char)} {c : Char}
    (h : IsBegun word before) (hc : isAsciiWordPart c = true) (hunderscore : c ≠ '_')
    (hstarts : startsWord before [c] after = false) : IsBegun (word ++ [c]) (some [c]) := by
  refine Or.inr ⟨word, c, rfl, rfl, hc, ?_⟩
  rcases h with rfl | ⟨init, d, rfl, rfl, hd, huniform⟩
  · exact isUniform_singleton hc hunderscore
  · have hkind : changesKind [d] [c] = false := by
      simp only [startsWord, Bool.or_eq_false_iff] at hstarts
      exact hstarts.1
    obtain ⟨hletter, hdigit⟩ := same_of_changesKind hd hc hunderscore hkind
    exact huniform.imp
      (fun h e he => (List.mem_append.1 he).elim (h e) fun he =>
        List.mem_singleton.1 he ▸ hletter (h d (by simp)))
      fun h e he => (List.mem_append.1 he).elim (h e) fun he =>
        List.mem_singleton.1 he ▸ hdigit (h d (by simp))

/-- The words of an ASCII name that are left, given the word that is open. It goes on only if it is
uniform with the character before. -/
theorem isUniform_of_mem_wordsAfter {s word w : List Char} {before : Option (List Char)}
    (hs : ∀ c ∈ s, isAsciiWordPart c = true) (hword : IsBegun word before)
    (hw : w ∈ wordsAfter word before (s.map ([·]))) : IsUniform w := by
  induction s generalizing word before with
  | nil =>
    obtain rfl : w = word := by simpa [wordsAfter] using hw
    exact hword.isUniform
  | cons c s ih =>
    have hc := hs c List.mem_cons_self
    have hs' := fun d hd => hs d (List.mem_cons_of_mem c hd)
    rw [List.map_cons, wordsAfter, (kinds_of_isAsciiWordPart hc).2.2.2] at hw
    split at hw
    case isTrue =>
      rcases List.mem_cons.1 hw with rfl | hw
      · exact hword.isUniform
      · exact ih hs' (Or.inl rfl) hw
    case isFalse hseparator =>
      have hunderscore : c ≠ '_' := by simpa using hseparator
      split at hw
      case isTrue =>
        rcases List.mem_cons.1 hw with rfl | hw
        · exact hword.isUniform
        · exact ih hs' (Or.inr ⟨[], c, rfl, rfl, hc, isUniform_singleton hc hunderscore⟩) hw
      case isFalse hstarts =>
        exact ih hs' (hword.push hc hunderscore (Bool.eq_false_iff.2 hstarts)) hw

/-- The words of an ASCII name are its characters without the underscores. -/
theorem flatten_wordsAfter {s : List Char} (hs : ∀ c ∈ s, isAsciiWordPart c = true)
    (word : List Char) (before : Option (List Char)) :
    (wordsAfter word before (s.map ([·]))).flatten = word ++ s.filter (· != '_') := by
  induction s generalizing word before with
  | nil => simp [wordsAfter]
  | cons c s ih =>
    have hs' := fun d hd => hs d (List.mem_cons_of_mem c hd)
    rw [List.map_cons, wordsAfter, (kinds_of_isAsciiWordPart (hs c List.mem_cons_self)).2.2.2]
    by_cases hunderscore : c = '_'
    · simp [hunderscore, ih hs']
    · rw [if_neg (by simpa using hunderscore)]
      split <;> simp [hunderscore, ih hs']

/-- No word starts because of an underscore before it. -/
theorem startsWord_of_underscore (g : List Char) (after : Option (List Char)) :
    startsWord (some ['_']) g after = false := by
  have hkinds := kinds_of_isAsciiWordPart (c := '_') (by decide)
  have hlower : isLowerCluster ['_'] = false := hkinds.2.1.trans (by decide)
  have hupper : isUpperCluster ['_'] = false := hkinds.1.trans (by decide)
  have hdigit : isDigitCluster ['_'] = false := hkinds.2.2.1.trans (by decide)
  simp [startsWord, changesKind, hlower, hupper, hdigit]

/-- Words after an underscore are words from the start. -/
theorem wordsAfter_underscore (gs : List (List Char)) :
    wordsAfter [] (some ['_']) gs = wordsAfter [] none gs := by
  cases gs with
  | nil => rfl
  | cons g gs =>
    rw [wordsAfter, wordsAfter, startsWord_of_underscore]
    rfl

/-- Words behind an underscore do not depend on what is before it, nor the other way round. -/
theorem wordsAfter_append {u : List Char} (hu : ∀ c ∈ u, isAsciiWordPart c = true)
    (word : List Char) (before : Option (List Char)) (gs : List (List Char)) :
    wordsAfter word before (u.map ([·]) ++ ['_'] :: gs) =
      wordsAfter word before (u.map ([·])) ++ wordsAfter [] none gs := by
  induction u generalizing word before with
  | nil =>
    have hseparator : isSeparator ['_'] = true := by decide
    change wordsAfter word before (['_'] :: gs) = word :: wordsAfter [] none gs
    rw [wordsAfter.eq_2, if_pos hseparator, wordsAfter_underscore]
  | cons c u ih =>
    have hu' := fun d hd => hu d (List.mem_cons_of_mem c hd)
    -- An underscore is no small letter, so the word before it ends where it would end anyway.
    have hafter : ∀ g, startsWord before g ((u.map ([·])) ++ ['_'] :: gs).head? =
        startsWord before g (u.map ([·])).head? := by
      intro g
      cases u with
      | nil =>
        have hlower : isLowerCluster ['_'] = false :=
          (kinds_of_isAsciiWordPart (c := '_') (by decide)).2.1.trans (by decide)
        cases before <;> simp [startsWord, hlower]
      | cons d u => rfl
    rw [List.map_cons, List.cons_append, wordsAfter, wordsAfter, hafter]
    split
    · rw [ih hu', List.cons_append]
    split
    · rw [ih hu', List.cons_append]
    · rw [ih hu']

/-- **An underscore parts the words of an ASCII name.** -/
theorem words_append_underscore {u v : List Char} (hu : ∀ c ∈ u, isAsciiWordPart c = true)
    (hv : ∀ c ∈ v, isAsciiWordPart c = true) : words (u ++ '_' :: v) = words u ++ words v := by
  have hall : ∀ c ∈ u ++ '_' :: v, isAsciiWordPart c = true := by
    intro c hc
    rcases List.mem_append.1 hc with hc | hc
    · exact hu c hc
    · rcases List.mem_cons.1 hc with rfl | hc
      · decide
      · exact hv c hc
  rw [words, words, words, graphemes_of_isAsciiWordPart hall, graphemes_of_isAsciiWordPart hu,
    graphemes_of_isAsciiWordPart hv, List.map_append, List.map_cons, wordsAfter_append hu,
    List.filter_append]

section Words

variable {s : List Char}

theorem flatten_words (hs : ∀ c ∈ s, isAsciiWordPart c = true) :
    (words s).flatten = s.filter (· != '_') := by
  have hflatten := flatten_wordsAfter hs [] none
  rw [List.nil_append] at hflatten
  rw [words, graphemes_of_isAsciiWordPart hs, ← hflatten]
  exact List.flatten_filter_not_isEmpty

theorem isUniform_of_mem_words (hs : ∀ c ∈ s, isAsciiWordPart c = true) {w : List Char}
    (hw : w ∈ words s) : w ≠ [] ∧ IsUniform w := by
  rw [words, graphemes_of_isAsciiWordPart hs] at hw
  obtain ⟨hw, hne⟩ := List.mem_filter.1 hw
  exact ⟨by simpa using hne, isUniform_of_mem_wordsAfter hs (Or.inl rfl) hw⟩

end Words

/-! ### Rows of words -/

/-- A list of words where neighbouring numbers are **joined**. -/
def joinNumbers : List (List Char) → List (List Char)
  | [] => []
  | w :: ws =>
    match joinNumbers ws with
    | [] => [w]
    | v :: vs => if isNumber w && isNumber v then (w ++ v) :: vs else w :: v :: vs

/-- The **row of words** of a name: its words in lower case, with neighbouring numbers joined. -/
def nameWords (s : String) : List (List Char) :=
  joinNumbers ((words s.toList).map lower)

/-- Lists of words of small letters and of numbers where **no two numbers** stand side by side. -/
inductive IsRow : List (List Char) → Prop
  /-- No words. -/
  | nil : IsRow []
  /-- A word of small letters, before anything. -/
  | letters {c : Char} {w : List Char} {ws : List (List Char)} (hc : isSmall c = true)
      (hw : ∀ d ∈ w, isSmall d = true) (rest : IsRow ws) : IsRow ((c :: w) :: ws)
  /-- A number, at the end or before a word of letters. -/
  | number {w : List Char} {ws : List (List Char)} (hne : w ≠ []) (hw : ∀ d ∈ w, isDigit d = true)
      (hnext : ∀ v ∈ ws.head?, isNumber v = false) (rest : IsRow ws) : IsRow (w :: ws)

/-! ### Capitalised rows -/

/-- A small letter, its capital and a digit are told apart by looking at them. -/
theorem toUpper_of_isSmall {c : Char} (h : isSmall c = true) : c.toLower = c ∧
    isSmall c.toUpper = false ∧ isDigit c.toUpper = false ∧ c.toUpper.toLower = c := by
  have hpart : isAsciiWordPart c = true := by simp [isAsciiWordPart, isAsciiLetter_eq, h]
  exact forall_isAsciiWordPart (P := fun c => isSmall c = true → c.toLower = c ∧
    isSmall c.toUpper = false ∧ isDigit c.toUpper = false ∧ c.toUpper.toLower = c)
      (by decide) hpart h

theorem isDigit_of_isSmall {c : Char} (h : isSmall c = true) : isDigit c = false := by
  have hpart : isAsciiWordPart c = true := by simp [isAsciiWordPart, isAsciiLetter_eq, h]
  exact forall_isAsciiWordPart (P := fun c => isSmall c = true → isDigit c = false)
    (by decide) hpart h

theorem case_of_isDigit {c : Char} (h : isDigit c = true) :
    c.toLower = c ∧ c.toUpper = c ∧ isSmall c = false := by
  have hpart : isAsciiWordPart c = true := by simp [isAsciiWordPart, h]
  exact forall_isAsciiWordPart (P := fun c => isDigit c = true →
    c.toLower = c ∧ c.toUpper = c ∧ isSmall c = false) (by decide) hpart h

theorem toNat_lt_of_isSmall {c : Char} (h : isSmall c = true) : c.toNat < 0x80 :=
  toNat_lt_of_isAsciiWordPart (by simp [isAsciiWordPart, isAsciiLetter_eq, h])

theorem toNat_lt_of_isDigit {c : Char} (h : isDigit c = true) : c.toNat < 0x80 :=
  toNat_lt_of_isAsciiWordPart (by simp [isAsciiWordPart, h])

/-- ASCII text without capitals is in lower case. -/
theorem lower_eq_self {s : List Char} (hs : ∀ c ∈ s, c.toNat < 0x80 ∧ c.toLower = c) :
    lower s = s := by
  rw [lower_of_ascii fun c hc => (hs c hc).1, List.map_congr_left fun c hc => (hs c hc).2,
    List.map_id']

theorem capitalize_letters {c : Char} {w : List Char} (hc : isSmall c = true)
    (hw : ∀ d ∈ w, isSmall d = true) : capitalize (c :: w) = c.toUpper :: w := by
  rw [capitalize, upperForm_of_ascii (toNat_lt_of_isSmall hc), lower_eq_self fun d hd =>
    ⟨toNat_lt_of_isSmall (hw d hd), (toUpper_of_isSmall (hw d hd)).1⟩]
  rfl

theorem capitalize_number {w : List Char} (hw : ∀ d ∈ w, isDigit d = true) : capitalize w = w := by
  cases w with
  | nil => rfl
  | cons c w =>
    have hc := hw c List.mem_cons_self
    have hw' := fun d hd => hw d (List.mem_cons_of_mem c hd)
    rw [capitalize, upperForm_of_ascii (toNat_lt_of_isDigit hc), (case_of_isDigit hc).2.1,
      lower_eq_self fun d hd => ⟨toNat_lt_of_isDigit (hw' d hd), (case_of_isDigit (hw' d hd)).1⟩]
    rfl

/-- A row does not start with a small letter when it is capitalised, and with a digit only if its
first word is a number. -/
theorem IsRow.head_flatMap {ws : List (List Char)} (h : IsRow ws) :
    ∀ c ∈ (ws.flatMap capitalize).head?, isSmall c = false ∧
      ((∀ v ∈ ws.head?, isNumber v = false) → isDigit c = false) := by
  cases h with
  | nil => simp
  | @letters c w ws hc hw rest =>
    obtain ⟨-, hsmall, hdigit, -⟩ := toUpper_of_isSmall hc
    rw [List.flatMap_cons, capitalize_letters hc hw]
    intro d hd
    obtain rfl : c.toUpper = d := by simpa using hd
    exact ⟨hsmall, fun _ => hdigit⟩
  | @number w ws hne hw hnext rest =>
    obtain ⟨c, w, rfl⟩ := List.exists_cons_of_ne_nil hne
    rw [List.flatMap_cons, capitalize_number hw]
    intro d hd
    obtain rfl : c = d := by simpa using hd
    refine ⟨(case_of_isDigit (hw c List.mem_cons_self)).2.2, fun hnumber => ?_⟩
    have hall : isNumber (c :: w) = true := List.all_eq_true.2 hw
    rw [hnumber _ rfl] at hall
    exact absurd hall (by simp)

/-- A run of characters of one kind is read off a text where it ends. -/
theorem append_inj_of_head? {p : Char → Bool} {u v s t : List Char} (hu : ∀ c ∈ u, p c = true)
    (hv : ∀ c ∈ v, p c = true) (hs : ∀ c ∈ s.head?, p c = false)
    (ht : ∀ c ∈ t.head?, p c = false) (h : u ++ s = v ++ t) : u = v ∧ s = t := by
  obtain ⟨htake, hdrop⟩ := takeWhile_dropWhile_append hu hs
  obtain ⟨htake', hdrop'⟩ := takeWhile_dropWhile_append hv ht
  exact ⟨by rw [← htake, h, htake'], by rw [← hdrop, h, hdrop']⟩

/-- **A row can be read off its capitalised words.** A capital starts a word of letters, and the
small letters behind it are the rest of it; a digit starts a number, which ends where no digit
follows, since no number stands behind a number. -/
theorem eq_of_flatMap_capitalize {ws vs : List (List Char)} (hws : IsRow ws) (hvs : IsRow vs)
    (h : ws.flatMap capitalize = vs.flatMap capitalize) : ws = vs := by
  induction hws generalizing vs with
  | nil =>
    cases hvs with
    | nil => rfl
    | letters hc hw rest => simp [capitalize_letters hc hw] at h
    | number hne hw hnext rest => simp [capitalize_number hw, hne] at h
  | @letters c w ws hc hw rest ih =>
    rw [List.flatMap_cons, capitalize_letters hc hw] at h
    cases hvs with
    | nil => simp at h
    | @letters d v vs hd hv rest' =>
      rw [List.flatMap_cons, capitalize_letters hd hv, List.cons_append, List.cons_append] at h
      obtain ⟨hhead, hbehind⟩ := List.cons.inj h
      obtain ⟨rfl, htail⟩ := append_inj_of_head? hw hv (fun e he => (rest.head_flatMap e he).1)
        (fun e he => (rest'.head_flatMap e he).1) hbehind
      have hletter : c = d := by
        rw [← (toUpper_of_isSmall hc).2.2.2, hhead, (toUpper_of_isSmall hd).2.2.2]
      rw [hletter, ih rest' htail]
    | @number v vs hne hv hnext rest' =>
      obtain ⟨d, v, rfl⟩ := List.exists_cons_of_ne_nil hne
      rw [List.flatMap_cons, capitalize_number hv, List.cons_append, List.cons_append] at h
      have hdigit := hv d List.mem_cons_self
      rw [← (List.cons.inj h).1, (toUpper_of_isSmall hc).2.2.1] at hdigit
      exact absurd hdigit (by simp)
  | @number w ws hne hw hnext rest ih =>
    rw [List.flatMap_cons, capitalize_number hw] at h
    cases hvs with
    | nil => simp [hne] at h
    | @letters d v vs hd hv rest' =>
      obtain ⟨c, w, rfl⟩ := List.exists_cons_of_ne_nil hne
      rw [List.flatMap_cons, capitalize_letters hd hv, List.cons_append, List.cons_append] at h
      have hdigit := hw c List.mem_cons_self
      rw [(List.cons.inj h).1, (toUpper_of_isSmall hd).2.2.1] at hdigit
      exact absurd hdigit (by simp)
    | @number v vs hne' hv hnext' rest' =>
      rw [List.flatMap_cons, capitalize_number hv] at h
      obtain ⟨rfl, htail⟩ := append_inj_of_head? hw hv
        (fun e he => (rest.head_flatMap e he).2 hnext)
        (fun e he => (rest'.head_flatMap e he).2 hnext') h
      rw [ih rest' htail]

/-! ### The row of a name -/

theorem joinNumbers_cons_of_letters {w : List Char} (h : isNumber w = false)
    (ws : List (List Char)) : joinNumbers (w :: ws) = w :: joinNumbers ws := by
  rw [joinNumbers.eq_2]
  split <;> simp_all

/-- **Joining its numbers makes a list of words a row.** -/
theorem isRow_joinNumbers {ws : List (List Char)}
    (h : ∀ w ∈ ws, w ≠ [] ∧ ((∀ c ∈ w, isSmall c = true) ∨ ∀ c ∈ w, isDigit c = true)) :
    IsRow (joinNumbers ws) := by
  induction ws with
  | nil => exact .nil
  | cons w ws ih =>
    have hrow := ih fun v hv => h v (List.mem_cons_of_mem w hv)
    obtain ⟨hne, hsmall | hdigit⟩ := h w List.mem_cons_self
    · obtain ⟨c, w, rfl⟩ := List.exists_cons_of_ne_nil hne
      have hc := hsmall c List.mem_cons_self
      have hnumber : isNumber (c :: w) = false := by
        rw [isNumber, List.all_cons, isDigit_of_isSmall hc, Bool.false_and]
      rw [joinNumbers_cons_of_letters hnumber]
      exact .letters hc (fun d hd => hsmall d (List.mem_cons_of_mem c hd)) hrow
    · have hnumber : isNumber w = true := List.all_eq_true.2 hdigit
      rw [joinNumbers.eq_2]
      cases hrow' : joinNumbers ws with
      | nil => exact .number hne hdigit (by simp) .nil
      | cons v vs =>
        rw [hrow'] at hrow
        change IsRow (if (isNumber w && isNumber v) = true then (w ++ v) :: vs else w :: v :: vs)
        cases hv : isNumber v with
        | false =>
          rw [Bool.and_false, if_neg Bool.false_ne_true]
          exact .number hne hdigit (by simpa using hv) hrow
        | true =>
          rw [hnumber, Bool.and_true, if_pos rfl]
          cases hrow with
          | letters hc _ _ =>
            rw [isNumber, List.all_cons, isDigit_of_isSmall hc, Bool.false_and] at hv
            exact absurd hv (by simp)
          | number _ hv' hnext rest =>
            exact .number (by simp [hne])
              (fun c hc => (List.mem_append.1 hc).elim (hdigit c) (hv' c)) hnext rest

/-- Capitalising does not see where one number ends and the next one starts. -/
theorem flatMap_capitalize_joinNumbers (ws : List (List Char)) :
    (joinNumbers ws).flatMap capitalize = ws.flatMap capitalize := by
  induction ws with
  | nil => rfl
  | cons w ws ih =>
    rw [List.flatMap_cons, ← ih, joinNumbers.eq_2]
    split
    · rename_i hnil
      simp [hnil]
    rename_i v vs hvs
    rw [hvs]
    split
    · rename_i hnumbers
      rw [Bool.and_eq_true] at hnumbers
      have hw := List.all_eq_true.1 hnumbers.1
      have hv := List.all_eq_true.1 hnumbers.2
      rw [List.flatMap_cons, List.flatMap_cons, capitalize_number hw, capitalize_number hv,
        capitalize_number fun c hc => (List.mem_append.1 hc).elim (hw c) (hv c), List.append_assoc]
    · rw [List.flatMap_cons]

theorem case_of_isAsciiWordPart {c : Char} (h : isAsciiWordPart c = true) :
    isAsciiWordPart c.toLower = true ∧ c.toLower.toUpper = c.toUpper ∧
      c.toUpper.toLower = c.toLower ∧ c.toLower.toLower = c.toLower :=
  forall_isAsciiWordPart (P := fun c => isAsciiWordPart c.toLower = true ∧
    c.toLower.toUpper = c.toUpper ∧ c.toUpper.toLower = c.toLower ∧
      c.toLower.toLower = c.toLower) (by decide) h

theorem kind_toLower {c : Char} (h : isAsciiWordPart c = true) :
    (isAsciiLetter c = true → isSmall c.toLower = true) ∧
      (isDigit c = true → isDigit c.toLower = true) :=
  forall_isAsciiWordPart (P := fun c => (isAsciiLetter c = true → isSmall c.toLower = true) ∧
    (isDigit c = true → isDigit c.toLower = true)) (by decide) h

section Word

variable {w : List Char}

theorem lower_of_isAsciiWordPart (hw : ∀ c ∈ w, isAsciiWordPart c = true) :
    lower w = w.map Char.toLower :=
  lower_of_ascii fun c hc => toNat_lt_of_isAsciiWordPart (hw c hc)

theorem capitalize_of_isAsciiWordPart {c : Char} (hw : ∀ d ∈ c :: w, isAsciiWordPart d = true) :
    capitalize (c :: w) = c.toUpper :: w.map Char.toLower := by
  rw [capitalize, upperForm_of_ascii (toNat_lt_of_isAsciiWordPart (hw c List.mem_cons_self)),
    lower_of_isAsciiWordPart fun d hd => hw d (List.mem_cons_of_mem c hd)]
  rfl

theorem map_toLower_map_toLower (hw : ∀ c ∈ w, isAsciiWordPart c = true) :
    (w.map Char.toLower).map Char.toLower = w.map Char.toLower := by
  rw [List.map_map]
  exact List.map_congr_left fun c hc => (case_of_isAsciiWordPart (hw c hc)).2.2.2

/-- Of a change of case and a capital, one after the other, only the second one shows. -/
theorem capitalize_lower (hw : ∀ c ∈ w, isAsciiWordPart c = true) :
    capitalize (lower w) = capitalize w ∧ lower (capitalize w) = lower w := by
  cases w with
  | nil => exact ⟨rfl, rfl⟩
  | cons c w =>
    have hw' := fun d hd => hw d (List.mem_cons_of_mem c hd)
    obtain ⟨-, hupper, hlower, -⟩ := case_of_isAsciiWordPart (hw c List.mem_cons_self)
    have hmap : ∀ d ∈ (c :: w).map Char.toLower, isAsciiWordPart d = true := by
      intro d hd
      obtain ⟨e, he, rfl⟩ := List.mem_map.1 hd
      exact (case_of_isAsciiWordPart (hw e he)).1
    constructor
    · rw [lower_of_isAsciiWordPart hw, List.map_cons, capitalize_of_isAsciiWordPart hmap, hupper,
        map_toLower_map_toLower hw', capitalize_of_isAsciiWordPart hw]
    · rw [lower_of_isAsciiWordPart (caseClosed_isAsciiWordPart.capitalize hw),
        capitalize_of_isAsciiWordPart hw, List.map_cons, hlower, map_toLower_map_toLower hw',
        lower_of_isAsciiWordPart hw, List.map_cons]

end Word

section Name

variable {s : String}

theorem toList_pascalCase (s : String) :
    (pascalCase s).toList = (words s.toList).flatMap capitalize := by
  rw [pascalCase, String.toList_ofList]

theorem isRow_nameWords (hs : ∀ c ∈ s.toList, isAsciiWordPart c = true) : IsRow (nameWords s) := by
  refine isRow_joinNumbers fun v hv => ?_
  obtain ⟨w, hw, rfl⟩ := List.mem_map.1 hv
  have hparts : ∀ c ∈ w, isAsciiWordPart c = true := fun c hc => hs c (mem_of_mem_words hw hc)
  obtain ⟨hne, huniform⟩ := isUniform_of_mem_words hs hw
  rw [lower_of_isAsciiWordPart hparts, List.forall_mem_map, List.forall_mem_map]
  exact ⟨by simpa using hne, huniform.imp (fun h c hc => (kind_toLower (hparts c hc)).1 (h c hc))
    fun h c hc => (kind_toLower (hparts c hc)).2 (h c hc)⟩

theorem flatMap_nameWords (hs : ∀ c ∈ s.toList, isAsciiWordPart c = true) :
    (nameWords s).flatMap capitalize = (pascalCase s).toList := by
  have hwords : (words s.toList).map (fun w => capitalize (lower w)) =
      (words s.toList).map capitalize := List.map_congr_left fun w hw =>
    (capitalize_lower fun c hc => hs c (mem_of_mem_words hw hc)).1
  rw [nameWords, flatMap_capitalize_joinNumbers, List.flatMap_map, toList_pascalCase,
    List.flatMap_def, List.flatMap_def, hwords]

/-- **Two names are capitalised alike exactly if they have one row of words.** -/
theorem pascalCase_eq_iff {a b : String} (ha : ∀ c ∈ a.toList, isAsciiWordPart c = true)
    (hb : ∀ c ∈ b.toList, isAsciiWordPart c = true) :
    pascalCase a = pascalCase b ↔ nameWords a = nameWords b := by
  rw [← String.toList_inj, ← flatMap_nameWords ha, ← flatMap_nameWords hb]
  exact ⟨eq_of_flatMap_capitalize (isRow_nameWords ha) (isRow_nameWords hb), fun h => by rw [h]⟩

/-- Where case does not count, a capitalised name is its letters and digits. -/
theorem lower_pascalCase (hs : ∀ c ∈ s.toList, isAsciiWordPart c = true) :
    lower (pascalCase s).toList = lower (s.toList.filter (· != '_')) := by
  have hwords : (words s.toList).map (fun w => (capitalize w).map Char.toLower) =
      (words s.toList).map (fun w => w.map Char.toLower) := by
    refine List.map_congr_left fun w hw => ?_
    have hparts : ∀ c ∈ w, isAsciiWordPart c = true := fun c hc => hs c (mem_of_mem_words hw hc)
    have hlower := (capitalize_lower hparts).2
    rwa [lower_of_isAsciiWordPart hparts,
      lower_of_isAsciiWordPart (caseClosed_isAsciiWordPart.capitalize hparts)] at hlower
  rw [lower_of_isAsciiWordPart (caseClosed_isAsciiWordPart.pascalCase hs),
    lower_of_isAsciiWordPart fun c hc => hs c (List.mem_filter.1 hc).1, ← flatten_words hs,
    toList_pascalCase, List.map_flatMap, List.flatMap_def, hwords, List.map_flatten]

end Name

end Text

open Text

section Class

variable {a b : String}

/-- The name of a class is the capitalised name of its table, between two words. -/
theorem className_eq (ha : ∀ c ∈ a.toList, isAsciiWordPart c = true) :
    className a = "Squashed" ++ pascalCase a ++ "Table" := by
  have htext : ("squashed_" ++ a ++ "_table").toList =
      "squashed".toList ++ '_' :: (a.toList ++ '_' :: "table".toList) := by
    simp [String.toList_append]
  have htail : ∀ c ∈ a.toList ++ '_' :: "table".toList, isAsciiWordPart c = true := by
    intro c hc
    rcases List.mem_append.1 hc with hc | hc
    · exact ha c hc
    · exact (by decide : ∀ c ∈ '_' :: "table".toList, isAsciiWordPart c = true) c hc
  have hsquashed : (words "squashed".toList).flatMap capitalize = "Squashed".toList := by
    decide +kernel
  have htable : (words "table".toList).flatMap capitalize = "Table".toList := by decide +kernel
  rw [← String.toList_inj, className, toList_pascalCase, htext,
    words_append_underscore (by decide) htail, words_append_underscore ha (by decide),
    List.flatMap_append, List.flatMap_append, hsquashed, htable, ← toList_pascalCase,
    String.toList_append, String.toList_append, List.append_assoc]

/-- **When the classes of two tables have one name.** For names of ASCII letters, digits and
underscores, exactly if the names have one row of words: the underscores do not count, nor the case
of letters, but for where it shows that a word starts, nor whether anything stands between two
numbers. Where the case of class names does not count, the words do not count any more, only the
letters and digits. -/
theorem className_collides_iff (ha : ∀ c ∈ a.toList, isAsciiWordPart c = true)
    (hb : ∀ c ∈ b.toList, isAsciiWordPart c = true) :
    (className a = className b ↔ nameWords a = nameWords b) ∧
      (lowerString (className a) = lowerString (className b) ↔
        lower (a.toList.filter (· != '_')) = lower (b.toList.filter (· != '_'))) := by
  have hlower : ∀ {s : String}, (∀ c ∈ s.toList, isAsciiWordPart c = true) →
      (lowerString (className s)).toList =
        "squashed".toList ++ lower (s.toList.filter (· != '_')) ++ "table".toList := by
    intro s hs
    rw [lowerString, String.toList_ofList, lower_of_isAsciiWordPart (isAsciiWordPart_className hs),
      className_eq hs, ← lower_pascalCase hs,
      lower_of_isAsciiWordPart (caseClosed_isAsciiWordPart.pascalCase hs)]
    simp [String.toList_append]
  constructor
  · rw [← pascalCase_eq_iff ha hb, className_eq ha, className_eq hb, ← String.toList_inj,
      ← String.toList_inj]
    simp [String.toList_append]
  · rw [← String.toList_inj, hlower ha, hlower hb]
    simp

end Class

/-- The classes of tables for the clients of `oauth2` and of `oauth_2` have one name. -/
theorem className_collides_iff_clients :
    (∀ c ∈ "oauth2_clients".toList, isAsciiWordPart c = true) ∧
      (∀ c ∈ "oauth_2_clients".toList, isAsciiWordPart c = true) ∧
        nameWords "oauth2_clients" = nameWords "oauth_2_clients" ∧
          className "oauth2_clients" = className "oauth_2_clients" := by
  have ha : ∀ c ∈ "oauth2_clients".toList, isAsciiWordPart c = true := by decide
  have hb : ∀ c ∈ "oauth_2_clients".toList, isAsciiWordPart c = true := by decide
  have hrow : nameWords "oauth2_clients" = nameWords "oauth_2_clients" := by decide +kernel
  exact ⟨ha, hb, hrow, (className_collides_iff ha hb).1.2 hrow⟩

/-- A schema with two tables that only an underscore tells apart. -/
def clientTables : Schema :=
  (({} : Schema).openTable "oauth2_clients").openTable "oauth_2_clients"

/-- **Tables of different names can have classes of one name.** -/
theorem clientTables_collide :
    ¬∀ a ∈ clientTables.tableNames, ∀ b ∈ clientTables.tableNames,
      (∀ c ∈ a.toList, isAsciiWordPart c = true) → (∀ c ∈ b.toList, isAsciiWordPart c = true) →
        a ≠ b → className a ≠ className b := by
  intro h
  exact h "oauth2_clients" (by decide) "oauth_2_clients" (by decide) (by decide) (by decide)
    (by decide) (by decide +kernel)

end SchemaHistory

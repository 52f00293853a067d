import SchemaHistory.Proofs.Lexing

/-!
# The logical lines of a text that was put together

A script is written physical line by physical line, and its logical lines do not have to be the
same: comments vanish, and a statement goes on until a character that ends it. Both steps can be
followed along the text. The code of a text is the code of its first lines, followed by the code of
the others (`SchemaHistory.Source.code_append`), where all that the first lines tell the others is
whether a comment is open; and the code falls into logical lines from the left, one after each
character that ends one (`SchemaHistory.Source.logical_cons`).
-/

namespace SchemaHistory.Source

open Text

/-! ### Trimming -/

theorem trimStart_of_head {s : List Char} (h : ∀ c ∈ s.head?, isBlank c = false) :
    trimStart s = s := by
  cases s with
  | nil => rfl
  | cons c s => rw [trimStart, List.dropWhile_cons_of_neg (by simp [h c rfl])]

theorem trimStart_of_trim_eq {s : List Char} (h : trim s = s) : trimStart s = s := by
  have hsuffix : trimStart s <:+ s := List.dropWhile_suffix isBlank
  refine hsuffix.eq_of_length_le ?_
  calc s.length = (trimEnd (trimStart s)).length := congrArg List.length h.symm
    _ = ((trimStart s).reverse.dropWhile isBlank).length := List.length_reverse
    _ ≤ (trimStart s).reverse.length := (List.dropWhile_sublist isBlank).length_le
    _ = (trimStart s).length := List.length_reverse

theorem trimEnd_of_tight {s : List Char} (h : Tight s) : trimEnd s = s := by
  have hrev : trimStart s.reverse = s.reverse := by
    refine trimStart_of_head fun c hc => h c ?_
    rwa [List.head?_reverse] at hc
  rw [trimEnd, ← trimStart, hrev, List.reverse_reverse]

/-- Trimming keeps a text that neither starts nor ends with a blank. -/
theorem trim_of_tight {s : List Char} (h : ∀ c ∈ s.head?, isBlank c = false) (ht : Tight s) :
    trim s = s := by
  rw [trim, trimStart_of_head h, trimEnd_of_tight ht]

theorem trimStart_append {u : List Char} (hu : ∀ c ∈ u, isBlank c = true) (s : List Char) :
    trimStart (u ++ s) = trimStart s :=
  List.dropWhile_append_of_pos hu

theorem trim_append {u : List Char} (hu : ∀ c ∈ u, isBlank c = true) (s : List Char) :
    trim (u ++ s) = trim s := by
  rw [trim, trimStart_append hu, trim]

theorem trimEnd_cons {c : Char} (hc : isBlank c = false) (s : List Char) :
    trimEnd (c :: s) = c :: trimEnd s := by
  rw [trimEnd, trimEnd, List.reverse_cons, List.dropWhile_append]
  split
  · rename_i h
    rw [List.isEmpty_iff.1 h]
    simp [hc]
  · rw [List.reverse_append]
    rfl

theorem trimEnd_append_blanks {g : List Char} (hg : ∀ c ∈ g, isBlank c = true) (s : List Char) :
    trimEnd (s ++ g) = trimEnd s := by
  rw [trimEnd, trimEnd, List.reverse_append,
    List.dropWhile_append_of_pos fun c hc => hg c (List.mem_reverse.1 hc)]

/-- Blanks at the end of a text are trimmed. -/
theorem trim_append_blanks {g : List Char} (hg : ∀ c ∈ g, isBlank c = true) (s : List Char) :
    trim (s ++ g) = trim s := by
  induction s with
  | nil =>
    have hnil := trim_append hg []
    rwa [List.append_nil] at hnil
  | cons c s ih =>
    by_cases hc : isBlank c = true
    · have hblank : ∀ u, trim (c :: u) = trim u := trim_append (u := [c]) (by simpa using hc)
      rw [List.cons_append, hblank, hblank, ih]
    · have hstart : ∀ u, trimStart (c :: u) = c :: u := by
        intro u
        refine trimStart_of_head fun d hd => ?_
        obtain rfl : c = d := by simpa using hd
        simpa using hc
      rw [List.cons_append, trim, trim, hstart, hstart, ← List.cons_append,
        trimEnd_append_blanks hg]

theorem mem_of_mem_trimEnd {s : List Char} {c : Char} (h : c ∈ trimEnd s) : c ∈ s := by
  rw [trimEnd, List.mem_reverse] at h
  exact List.mem_reverse.1 ((List.dropWhile_sublist _).mem h)

theorem exists_append_blanks (s : List Char) :
    ∃ g, (∀ c ∈ g, isBlank c = true) ∧ s = trimEnd s ++ g := by
  refine ⟨(s.reverse.takeWhile isBlank).reverse, fun c hc => ?_, ?_⟩
  · exact List.all_eq_true.1 List.all_takeWhile c (List.mem_reverse.1 hc)
  · have hsplit := List.takeWhile_append_dropWhile (p := isBlank) (l := s.reverse)
    rw [trimEnd, ← List.reverse_append, hsplit, List.reverse_reverse]

/-- Trimming takes blanks away, and nothing else. -/
theorem exists_trim_eq (s : List Char) :
    ∃ g g', (∀ c ∈ g, isBlank c = true) ∧ (∀ c ∈ g', isBlank c = true) ∧
      s = g ++ (trim s ++ g') := by
  obtain ⟨g', hg', hs⟩ := exists_append_blanks (trimStart s)
  refine ⟨s.takeWhile isBlank, g', List.all_eq_true.1 List.all_takeWhile, hg', ?_⟩
  rw [trim, ← hs, trimStart, List.takeWhile_append_dropWhile]

theorem trim_subset (s : List Char) : trim s ⊆ s := by
  obtain ⟨g, g', -, -, hs⟩ := exists_trim_eq s
  intro c hc
  rw [hs]
  simp [hc]

theorem tight_trimEnd (s : List Char) : Tight (trimEnd s) := by
  intro c hc
  rw [trimEnd, List.getLast?_reverse] at hc
  have hfirst := List.head?_dropWhile_not isBlank s.reverse
  rwa [Option.mem_def.1 hc] at hfirst

/-- A trimmed text starts with no blank. -/
theorem isBlank_head?_trim (s : List Char) : ∀ c ∈ (trim s).head?, isBlank c = false := by
  intro c hc
  obtain ⟨g', -, hs⟩ := exists_append_blanks (trimStart s)
  have hhead : c ∈ (trimStart s).head? := by
    rw [hs, List.head?_append, ← trim, Option.mem_def.1 hc]
    rfl
  have hnot := List.head?_dropWhile_not isBlank s
  rw [← trimStart, Option.mem_def.1 hhead] at hnot
  simpa using hnot

/-! ### The code of a text -/

/-- Removing comments keeps characters of the line, and may put a space for a comment. -/
theorem mem_of_mem_stripFrom {r : Region} {blank : Bool} {s : List Char} {c : Char}
    (h : c ∈ (stripFrom r blank s).1) : c ∈ s ∨ c = ' ' := by
  induction r, s using scan_induction generalizing blank with
  | nil r => cases r <;> simp [stripFrom] at h
  | lineComment s hs => simp [stripFrom_of_isLineComment hs] at h
  | move r u s r' hm ih =>
    rw [hm.stripFrom_append] at h
    rcases List.mem_append.1 h with h | h
    · rcases Region.kept_cases blank r u r' with hkept | hkept | hkept <;> rw [hkept] at h
      · exact .inl (List.mem_append_left s h)
      · exact absurd h List.not_mem_nil
      · exact .inr (List.mem_singleton.1 h)
    · exact (ih h).imp_left (List.mem_append_right u)

/-- Whether a comment is open behind some physical lines, given whether one is open before. -/
def commentAfter (inComment : Bool) (ls : List (List Char)) : Bool :=
  ls.foldl (fun b l => (strip b l).2) inComment

/-- The **code** of a text as one line, given whether a comment is open before it. -/
def code (inComment : Bool) (s : List Char) : List Char :=
  joined (codeLines inComment (physicalLines s))

theorem physicalLines_append (u s : List Char) :
    physicalLines (u ++ '\n' :: s) = physicalLines u ++ physicalLines s :=
  splitAt_append_cons rfl u s

theorem codeLines_append (b : Bool) (ls ls' : List (List Char)) :
    codeLines b (ls ++ ls') = codeLines b ls ++ codeLines (commentAfter b ls) ls' := by
  induction ls generalizing b with
  | nil => rfl
  | cons l ls ih =>
    rw [List.cons_append, codeLines, codeLines, ih]
    rfl

theorem joined_append (ls ls' : List (List Char)) :
    joined (ls ++ ls') = joined ls ++ joined ls' := by
  simp [joined]

theorem commentAfter_append (b : Bool) (ls ls' : List (List Char)) :
    commentAfter b (ls ++ ls') = commentAfter (commentAfter b ls) ls' :=
  List.foldl_append

/-- **The code of a text is put together line by line.** -/
theorem code_append (b : Bool) (u s : List Char) :
    code b (u ++ '\n' :: s) = code b u ++ code (commentAfter b (physicalLines u)) s ∧
      commentAfter b (physicalLines (u ++ '\n' :: s)) =
        commentAfter (commentAfter b (physicalLines u)) (physicalLines s) := by
  rw [code, physicalLines_append, codeLines_append, joined_append, commentAfter_append]
  exact ⟨rfl, rfl⟩

/-- A text of whole physical lines has its own code. -/
theorem code_append_of_getLast {u : List Char} (hu : u.getLast? = some '\n') (b : Bool)
    (s : List Char) :
    code b (u ++ s) = code b u ++ code (commentAfter b (physicalLines u)) s := by
  obtain ⟨v, rfl⟩ := List.getLast?_eq_some_iff.1 hu
  have hnil : ∀ c : Bool, code c [] = [] ∧ commentAfter c (physicalLines []) = c := by decide
  obtain ⟨h1, h2⟩ := code_append b v []
  rw [List.append_assoc, List.singleton_append, (code_append b v s).1, h1, h2, (hnil _).1,
    (hnil _).2, List.append_nil]

theorem physicalLines_of_not_mem {u : List Char} (h : '\n' ∉ u) : physicalLines u = [u] :=
  splitAt_of_forall fun _ hc => beq_false_of_ne fun hnewline => h (hnewline ▸ hc)

/-- The code of one physical line. -/
theorem code_line {b b' : Bool} {u v : List Char} (hu : '\n' ∉ u) (hs : strip b u = (v, b'))
    (hv : trim v ≠ []) : code b u = trim v ++ [' '] ∧ commentAfter b (physicalLines u) = b' := by
  rw [code, physicalLines_of_not_mem hu]
  have hne : (trim v).isEmpty = false := by simpa using hv
  constructor
  · simp [codeLines, joined, hs, hne]
  · simp [commentAfter, hs]

/-! ### Logical lines -/

/-- The logical lines of a code. -/
def logical (s : List Char) : List (List Char) :=
  ((cut s).map trim).filter (!·.isEmpty)

theorem lines_eq (s : List Char) : lines s = logical (code false s) := rfl

/-- A text is **terminated** if a character that ends a logical line stands at its end and nowhere
before, and the text starts with no blank. -/
structure Terminated (s : List Char) : Prop where
  starts : ∀ c ∈ s.head?, isBlank c = false
  ends : ∃ u e, s = u ++ [e] ∧ endsLine e = true ∧ ∀ c ∈ u, endsLine c = false

/-- A text is **one line** if it is one logical line by itself: besides being terminated, comments
and line breaks are not in it. -/
structure IsLine (s : List Char) : Prop extends Terminated s where
  sealed : Sealed s
  unbroken : ∀ c ∈ s, c ≠ '\n' ∧ c ≠ '\r'

/-- Whether a character neither ends a logical line nor breaks a physical one. -/
def isInline (c : Char) : Bool :=
  !endsLine c && c != '\n' && c != '\r'

/-- A sealed text on one physical line is one line if only its last character ends one. -/
theorem IsLine.of_inline {u : List Char} {e : Char}
    (hstart : ∀ c ∈ (u ++ [e]).head?, isBlank c = false) (hu : ∀ c ∈ u, isInline c = true)
    (he : endsLine e = true) (hs : Sealed (u ++ [e])) : IsLine (u ++ [e]) where
  starts := hstart
  ends := by
    refine ⟨u, e, rfl, he, fun c hc => ?_⟩
    have hc := hu c hc
    simp only [isInline, Bool.and_eq_true] at hc
    simpa using hc.1.1
  sealed := hs
  unbroken := by
    intro c hc
    rcases List.mem_append.1 hc with hc | hc
    · have hc := hu c hc
      simp only [isInline, Bool.and_eq_true, bne_iff_ne] at hc
      exact ⟨hc.1.2, hc.2⟩
    · obtain rfl := List.mem_singleton.1 hc
      constructor <;> rintro rfl <;> exact absurd he (by decide)

/-- Closed texts are seen to be terminated by looking at their ends. -/
theorem Terminated.of_ends {s : List Char} (hstart : s.head?.all (!isBlank ·) = true)
    (hlast : s.getLast?.any endsLine = true) (hinit : s.dropLast.all (!endsLine ·) = true) :
    Terminated s := by
  refine ⟨fun c hc => ?_, ?_⟩
  · rw [Option.mem_def.1 hc] at hstart
    simpa using hstart
  · cases he : s.getLast? with
    | none => simp [he] at hlast
    | some e =>
      obtain ⟨u, rfl⟩ := List.getLast?_eq_some_iff.1 he
      refine ⟨u, e, rfl, by simpa [he] using hlast, fun c hc => ?_⟩
      rw [List.dropLast_concat] at hinit
      simpa using List.all_eq_true.1 hinit c hc

theorem cut_append {u : List Char} (hu : ∀ c ∈ u, endsLine c = false) {e : Char}
    (he : endsLine e = true) (s : List Char) : cut (u ++ e :: s) = (u ++ [e]) :: cut s := by
  induction u with
  | nil => rw [List.nil_append, cut, if_pos he, List.nil_append]
  | cons c u ih =>
    have hc : ¬endsLine c = true := by simp [hu c List.mem_cons_self]
    rw [List.cons_append, cut, if_neg hc, ih fun d hd => hu d (List.mem_cons_of_mem c hd)]
    rfl

theorem cut_of_not_endsLine {s : List Char} (h : ∀ c ∈ s, endsLine c = false) : cut s = [s] := by
  induction s with
  | nil => rfl
  | cons c s ih =>
    obtain ⟨hc, hs⟩ := List.forall_mem_cons.1 h
    rw [cut, hc, if_neg (by simp), ih hs]

/-- A text is cut behind each character that ends a line, and what is left makes the last piece. -/
theorem exists_cut_eq (s : List Char) :
    ∃ ps p, cut s = ps ++ [p] ∧ (∀ c ∈ p, endsLine c = false) ∧
      ∀ q ∈ ps, ∃ u e, q = u ++ [e] ∧ endsLine e = true ∧ ∀ c ∈ u, endsLine c = false := by
  induction s with
  | nil => exact ⟨[], [], rfl, by simp, by simp⟩
  | cons c s ih =>
    obtain ⟨ps, p, hcut, hp, hps⟩ := ih
    by_cases hc : endsLine c = true
    · refine ⟨[c] :: ps, p, by rw [cut, if_pos hc, hcut]; rfl, hp, List.forall_mem_cons.2 ⟨?_, hps⟩⟩
      exact ⟨[], c, rfl, hc, by simp⟩
    · have hc' : endsLine c = false := by simpa using hc
      cases ps with
      | nil =>
        exact ⟨[], c :: p, by rw [cut, if_neg hc, hcut]; rfl, List.forall_mem_cons.2 ⟨hc', hp⟩,
          by simp⟩
      | cons q ps =>
        obtain ⟨⟨u, e, rfl, he, hu⟩, hothers⟩ := List.forall_mem_cons.1 hps
        refine ⟨(c :: (u ++ [e])) :: ps, p, by rw [cut, if_neg hc, hcut]; rfl, hp,
          List.forall_mem_cons.2 ⟨?_, hothers⟩⟩
        exact ⟨c :: u, e, rfl, he, List.forall_mem_cons.2 ⟨hc', hu⟩⟩

theorem flatten_cut (s : List Char) : (cut s).flatten = s := by
  induction s with
  | nil => rfl
  | cons c s ih =>
    rw [cut]
    split
    · rw [List.flatten_cons, ih, List.singleton_append]
    · split
      · rename_i heq
        rw [heq] at ih
        rw [← ih]
        rfl
      · rename_i p ps heq
        rw [heq] at ih
        rw [← ih]
        rfl

theorem subset_of_mem_cut {s piece : List Char} (h : piece ∈ cut s) : piece ⊆ s := by
  intro c hc
  rw [← flatten_cut s]
  exact List.mem_flatten.2 ⟨piece, h, hc⟩

theorem not_isBlank_of_endsLine {c : Char} (h : endsLine c = true) : isBlank c = false := by
  have hc : c = '\x7b' ∨ c = ';' ∨ c = '\x7d' := by simpa [endsLine, or_assoc] using h
  rcases hc with rfl | rfl | rfl <;> decide

theorem not_endsLine_of_isBlank {c : Char} (h : isBlank c = true) : endsLine c = false := by
  cases hc : endsLine c with
  | false => rfl
  | true =>
    rw [not_isBlank_of_endsLine hc] at h
    exact absurd h (by simp)

theorem Terminated.ne_nil {s : List Char} (h : Terminated s) : s ≠ [] := by
  obtain ⟨u, e, rfl, -, -⟩ := h.ends
  simp

theorem Terminated.tight {s : List Char} (h : Terminated s) : Tight s := by
  obtain ⟨u, e, rfl, he, -⟩ := h.ends
  intro c hc
  obtain rfl : e = c := by simpa using hc
  exact not_isBlank_of_endsLine he

theorem Terminated.trim_eq {s : List Char} (h : Terminated s) : trim s = s :=
  trim_of_tight h.starts h.tight

/-- **A terminated text is the first logical line of a code that starts with it**, with blanks
before it or not. -/
theorem logical_append {g v : List Char} (hg : ∀ c ∈ g, isBlank c = true) (hv : Terminated v)
    (s : List Char) : logical (g ++ (v ++ s)) = v :: logical s := by
  have htrim : trim (g ++ v) = v := by rw [trim_append hg, hv.trim_eq]
  have hne : v.isEmpty = false := by simpa using hv.ne_nil
  obtain ⟨u, e, rfl, he, hu⟩ := hv.ends
  have hgu : ∀ c ∈ g ++ u, endsLine c = false := by
    intro c hc
    rcases List.mem_append.1 hc with hc | hc
    · exact not_endsLine_of_isBlank (hg c hc)
    · exact hu c hc
  have hcut : cut (g ++ (u ++ [e] ++ s)) = (g ++ (u ++ [e])) :: cut s := by
    have h := cut_append hgu he s
    simpa using h
  rw [logical, hcut, List.map_cons, htrim, List.filter_cons_of_pos (by simp), logical]

theorem logical_first {v : List Char} (hv : Terminated v) (s : List Char) :
    logical (v ++ s) = v :: logical s :=
  logical_append (g := []) (by simp) hv s

theorem logical_next {v : List Char} (hv : Terminated v) (s : List Char) :
    logical (' ' :: (v ++ s)) = v :: logical s :=
  logical_append (g := [' ']) (by decide) hv s

theorem logical_flatMap {vs : List (List Char)} (h : ∀ v ∈ vs, Terminated v) (s : List Char) :
    logical (' ' :: (vs.flatMap (· ++ [' ']) ++ s)) = vs ++ logical (' ' :: s) := by
  induction vs with
  | nil => rfl
  | cons v vs ih =>
    have hv := logical_next (h v List.mem_cons_self) (' ' :: (vs.flatMap (· ++ [' ']) ++ s))
    rw [ih fun w hw => h w (List.mem_cons_of_mem v hw)] at hv
    simpa using hv

/-! ### The characters of logical lines -/

theorem forall_of_mem_splitAt {p : Char → Bool} {s piece : List Char}
    (h : piece ∈ Text.splitAt p s) : ∀ c ∈ piece, p c = false := by
  induction s generalizing piece with
  | nil =>
    obtain rfl : piece = [] := by simpa [Text.splitAt] using h
    simp
  | cons d s ih =>
    rw [Text.splitAt] at h
    split at h
    · rcases List.mem_cons.1 h with rfl | h
      · simp
      · exact ih h
    · rename_i hd
      have hd : p d = false := by simpa using hd
      split at h
      · obtain rfl := List.mem_singleton.1 h
        simpa using hd
      · rename_i first others heq
        rcases List.mem_cons.1 h with rfl | h
        · exact List.forall_mem_cons.2 ⟨hd, ih (heq ▸ List.mem_cons_self)⟩
        · exact ih (heq ▸ List.mem_cons_of_mem first h)

theorem exists_of_mem_codeLines {inComment : Bool} {ls : List (List Char)} {u : List Char}
    (h : u ∈ codeLines inComment ls) : ∃ b, ∃ l ∈ ls, u = (strip b l).1 := by
  induction ls generalizing inComment with
  | nil => simp [codeLines] at h
  | cons l ls ih =>
    rcases List.mem_cons.1 h with rfl | h
    · exact ⟨inComment, l, List.mem_cons_self, rfl⟩
    · obtain ⟨b, k, hk, rfl⟩ := ih h
      exact ⟨b, k, List.mem_cons_of_mem l hk, rfl⟩

/-- **No logical line of a source breaks**, since the breaks are gone before the lines are cut. -/
theorem ne_of_mem_normalize {source text : String} (h : text ∈ normalize source) :
    ∀ c ∈ text.toList, c ≠ '\n' ∧ c ≠ '\r' := by
  obtain ⟨line, hline, rfl⟩ := List.mem_map.1 h
  obtain ⟨piece, hpiece, rfl⟩ := List.mem_map.1 (List.mem_filter.1 hline).1
  intro c hc
  rw [String.toList_ofList] at hc
  obtain ⟨u, hu, hc⟩ := List.mem_flatMap.1 (subset_of_mem_cut hpiece (trim_subset _ hc))
  obtain ⟨v, hv, rfl⟩ := List.mem_map.1 (List.mem_filter.1 hu).1
  obtain ⟨b, l, hl, rfl⟩ := exists_of_mem_codeLines hv
  have hspace : ' ' ≠ '\n' ∧ ' ' ≠ '\r' := by decide
  rcases List.mem_append.1 hc with hc | hc
  · rcases mem_of_mem_stripFrom (trim_subset _ hc) with hc | rfl
    · obtain ⟨hmem, hreturn⟩ := List.mem_filter.1 hc
      have hbreak := forall_of_mem_splitAt hl c hmem
      exact ⟨by simpa using hbreak, by simpa using hreturn⟩
    · exact hspace
  · obtain rfl := List.mem_singleton.1 hc
    exact hspace

/-! ### Lines behind an indentation -/

theorem IsLine.strip_eq {v : List Char} (h : IsLine v) {g : List Char}
    (hg : ∀ c ∈ g, c = ' ') : strip false (g ++ v) = (g ++ v, false) := by
  have hfilter : (g ++ v).filter (· != '\r') = g ++ v := by
    refine List.filter_eq_self.2 fun c hc => ?_
    rcases List.mem_append.1 hc with hc | hc
    · rw [hg c hc]
      decide
    · simpa using (h.unbroken c hc).2
  have hsealed : Sealed (g ++ v) := by
    refine (Sealed.append_iff fun c hc => ?_).2 h.sealed
    rw [hg c hc]
    decide
  rw [strip, hfilter, if_neg (by simp), stripFrom_of_regionAfter hsealed]

/-- **A line behind an indentation is its own code**, and no comment is open behind it. -/
theorem IsLine.code_eq {v : List Char} (h : IsLine v) {g : List Char} (hg : ∀ c ∈ g, c = ' ') :
    code false (g ++ v) = v ++ [' '] ∧ commentAfter false (physicalLines (g ++ v)) = false := by
  have hblank : ∀ c ∈ g, isBlank c = true := by
    intro c hc
    rw [hg c hc]
    decide
  have hbreak : '\n' ∉ g ++ v := by
    intro hc
    rcases List.mem_append.1 hc with hc | hc
    · exact absurd (hg _ hc) (by decide)
    · exact (h.unbroken _ hc).1 rfl
  have htrim : trim (g ++ v) = v := by rw [trim_append hblank, h.trim_eq]
  have hcode := code_line hbreak (h.strip_eq hg) (by rw [htrim]; exact h.ne_nil)
  rwa [htrim] at hcode

end SchemaHistory.Source

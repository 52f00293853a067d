import SchemaHistory.Proofs.LogicalLines

/-!
# The lines that a text writes

The logical lines of a source can be read off piece by piece if the source is cut where logical
lines end. A text **writes** lines (`SchemaHistory.Source.Writes`) if these are its lines, and the
lines of what follows do not depend on it: no comment and no string is open at its end, and no
statement is left unfinished.

Such texts can be put one behind the other (`SchemaHistory.Source.Writes.append`), and there are
three kinds of pieces to begin with: blanks, which write no lines
(`SchemaHistory.Source.writes_of_isBlank`); single lines, which may have something else behind them
on the same physical line (`SchemaHistory.Source.IsLine.writes`); and whole physical lines whose
code ends with a logical line (`SchemaHistory.Source.writes_of_code`).
-/

namespace SchemaHistory.Source

open Text

/-- A text **writes** lines if they come first, whatever follows the text, and what follows it has
its own lines. -/
def Writes (u : List Char) (ls : List (List Char)) : Prop :=
  ∀ s, lines (u ++ s) = ls ++ lines s

namespace Writes

theorem nil : Writes [] [] := fun _ => rfl

theorem append {u v : List Char} {ls ks : List (List Char)} (hu : Writes u ls) (hv : Writes v ks) :
    Writes (u ++ v) (ls ++ ks) := by
  intro s
  rw [List.append_assoc, hu, hv, List.append_assoc]

end Writes

/-! ### The first physical line -/

/-- The code of one physical line. -/
def codeOf (l : List Char) : List Char :=
  if (trim l).isEmpty then [] else trim l ++ [' ']

theorem joined_cons (l : List Char) (ls : List (List Char)) :
    joined (l :: ls) = codeOf l ++ joined ls := by
  rw [joined, codeOf, List.map_cons]
  split
  · rename_i hempty
    rw [List.filter_cons_of_neg (by simp [hempty])]
    rfl
  · rename_i hempty
    rw [List.filter_cons_of_pos (by simpa using hempty)]
    rfl

theorem physicalLines_ne_nil (s : List Char) : physicalLines s ≠ [] :=
  splitAt_ne_nil _ s

/-- A text without line breaks stands on the first physical line of what follows it. -/
theorem physicalLines_append_of_not_mem {v s l : List Char} {ls : List (List Char)}
    (hv : '\n' ∉ v) (hs : physicalLines s = l :: ls) :
    physicalLines (v ++ s) = (v ++ l) :: ls := by
  -- A character that is no line break joins the first line, whatever that line is.
  induction v with
  | nil => exact hs
  | cons c v ih =>
    have hc : ¬(c == '\n') = true := fun hc => hv (by simp [eq_of_beq hc])
    have hrest := ih fun hmem => hv (List.mem_cons_of_mem c hmem)
    rw [physicalLines] at hrest ⊢
    rw [List.cons_append, splitAt, if_neg hc, hrest]
    rfl

theorem codeOf_congr {s t : List Char} (h : trim s = trim t) : codeOf s = codeOf t := by
  rw [codeOf, codeOf, h]

/-- The code of a text is that of its first physical line and that of the others. -/
theorem code_of_physicalLines {b : Bool} {s l : List Char} {ls : List (List Char)}
    (hs : physicalLines s = l :: ls) :
    code b s = codeOf (strip b l).1 ++ joined (codeLines (strip b l).2 ls) := by
  rw [code, hs, codeLines, joined_cons]

theorem code_of_not_mem {b : Bool} {v : List Char} (hv : '\n' ∉ v) :
    code b v = codeOf (strip b v).1 := by
  rw [code_of_physicalLines (physicalLines_of_not_mem hv), codeLines]
  exact List.append_nil _

/-- Two beginnings of a physical line are as good as each other in front of a text if they are on
its first physical line. -/
theorem code_append_congr {b b' : Bool} {v v' : List Char} (hv : '\n' ∉ v) (hv' : '\n' ∉ v')
    {s : List Char}
    (h : ∀ l ∈ (physicalLines s).head?, codeOf (strip b (v ++ l)).1 = codeOf (strip b' (v' ++ l)).1 ∧
      (strip b (v ++ l)).2 = (strip b' (v' ++ l)).2) :
    code b (v ++ s) = code b' (v' ++ s) := by
  cases hs : physicalLines s with
  | nil => exact absurd hs (physicalLines_ne_nil s)
  | cons l ls =>
    obtain ⟨hcode, hcomment⟩ := h l (by rw [hs]; rfl)
    rw [code_of_physicalLines (physicalLines_append_of_not_mem hv hs),
      code_of_physicalLines (physicalLines_append_of_not_mem hv' hs), hcode, hcomment]

/-- What stands in front of a text adds lines to it if it adds them on the first physical line. -/
theorem lines_append_of_codeOf {v : List Char} {ls : List (List Char)} (hv : '\n' ∉ v)
    (h : ∀ l, (strip false (v ++ l)).2 = (strip false l).2 ∧
      ∀ J, logical (codeOf (strip false (v ++ l)).1 ++ J) =
        ls ++ logical (codeOf (strip false l).1 ++ J)) (s : List Char) :
    lines (v ++ s) = ls ++ lines s := by
  cases hs : physicalLines s with
  | nil => exact absurd hs (physicalLines_ne_nil s)
  | cons l rest =>
    obtain ⟨hcomment, hcode⟩ := h l
    rw [lines_eq, lines_eq, code, code, physicalLines_append_of_not_mem hv hs, hs, codeLines,
      codeLines, joined_cons, joined_cons, hcomment]
    exact hcode _

/-! ### Blanks -/

/-- Inside a comment nothing but the blank that stands for it depends on what was before. -/
theorem stripFrom_comment (b b' : Bool) (s : List Char) :
    trimStart (stripFrom .comment b s).1 = trimStart (stripFrom .comment b' s).1 ∧
      (stripFrom .comment b s).2 = (stripFrom .comment b' s).2 := by
  have hspace : ∀ u, trimStart (' ' :: u) = trimStart u := trimStart_append (u := [' ']) (by decide)
  induction s with
  | nil => exact ⟨rfl, rfl⟩
  | cons c s ih =>
    by_cases hclose : c = '*' ∧ s.head? = some '/'
    · obtain ⟨rfl, hs⟩ := hclose
      obtain ⟨rest, rfl⟩ := List.head?_eq_some_iff.1 hs
      rw [stripFrom, stripFrom]
      cases b <;> cases b' <;> simp [hspace]
    · have hnot : ∀ rest, c = '*' → s = '/' :: rest → False := by
        rintro rest rfl rfl
        exact hclose ⟨rfl, rfl⟩
      rw [stripFrom, stripFrom]
      · exact ih
      · exact hnot
      · exact hnot

/-- At the start of a line it does not matter whether a blank stands before. -/
theorem stripFrom_code (b b' : Bool) (s : List Char) :
    trimStart (stripFrom .code b s).1 = trimStart (stripFrom .code b' s).1 ∧
      (stripFrom .code b s).2 = (stripFrom .code b' s).2 := by
  by_cases hopen : ∃ rest, s = '/' :: '*' :: rest
  · obtain ⟨rest, rfl⟩ := hopen
    rw [stripFrom, stripFrom]
    exact stripFrom_comment b b' rest
  · have hsame : stripFrom .code b s = stripFrom .code b' s := by
      cases s with
      | nil => rfl
      | cons c s =>
        unfold stripFrom
        split <;> simp_all
    rw [hsame]
    exact ⟨rfl, rfl⟩

theorem logical_blank {c : Char} (hc : isBlank c = true) (s : List Char) :
    logical (c :: s) = logical s := by
  have hend : ¬endsLine c = true := by simp [not_endsLine_of_isBlank hc]
  have htrim : ∀ u, trim (c :: u) = trim u := fun u =>
    trim_append (u := [c]) (fun d hd => List.mem_singleton.1 hd ▸ hc) u
  rw [logical, logical, cut, if_neg hend]
  split
  · rename_i hnil
    rw [hnil]
    have hempty : trim [c] = [] := htrim []
    simp [hempty]
  · rename_i piece pieces hcut
    rw [hcut, List.map_cons, List.map_cons, htrim]

theorem logical_blanks {g : List Char} (hg : ∀ c ∈ g, isBlank c = true) (s : List Char) :
    logical (g ++ s) = logical s := by
  induction g with
  | nil => rfl
  | cons c g ih =>
    rw [List.cons_append, logical_blank (hg c List.mem_cons_self),
      ih fun d hd => hg d (List.mem_cons_of_mem c hd)]

theorem stripFrom_code_cons {c : Char} (hc : isInert c = true) (b : Bool) (s : List Char) :
    stripFrom .code b (c :: s) =
      (c :: (stripFrom .code (isBlank c) s).1, (stripFrom .code (isBlank c) s).2) := by
  obtain ⟨h1, h2, h3, h4, h5⟩ := isInert_iff.1 hc
  have hquote : isQuote c = false := by simp [isQuote, h1, h2, h3]
  rw [stripFrom]
  · simp [hquote]
  · exact h4
  · exact fun _ hslash => absurd hslash h5
  · exact fun _ hslash => absurd hslash h5

/-- A blank at the start of a physical line does not matter. -/
theorem strip_blank {c : Char} (hc : isBlank c = true) (l : List Char) :
    trim (strip false (c :: l)).1 = trim (strip false l).1 ∧
      (strip false (c :: l)).2 = (strip false l).2 := by
  by_cases hreturn : c = '\r'
  · -- A carriage return is removed with all others.
    rw [hreturn]
    exact ⟨rfl, rfl⟩
  · have hfilter : (c :: l).filter (· != '\r') = c :: l.filter (· != '\r') :=
      List.filter_cons_of_pos (by simpa using hreturn)
    obtain ⟨htrim, hcomment⟩ := stripFrom_code (isBlank c) false (l.filter (· != '\r'))
    rw [strip, strip, hfilter, if_neg (by simp), stripFrom_code_cons (isInert_of_isBlank hc)]
    refine ⟨?_, hcomment⟩
    have hfirst : trimStart (c :: (stripFrom .code (isBlank c) (l.filter (· != '\r'))).1) =
        trimStart (stripFrom .code (isBlank c) (l.filter (· != '\r'))).1 :=
      List.dropWhile_cons_of_pos hc
    rw [trim, trim, hfirst, htrim]

theorem code_blank {c : Char} (hc : isBlank c = true) (s : List Char) :
    code false (c :: s) = code false s := by
  by_cases hbreak : c = '\n'
  · rw [hbreak]
    exact (code_append false [] s).1
  · have hnot : '\n' ∉ [c] := fun hmem => hbreak (List.mem_singleton.1 hmem).symm
    have hsame : code false ([c] ++ s) = code false ([] ++ s) := by
      refine code_append_congr hnot (by simp) fun l _ => ?_
      obtain ⟨htrim, hcomment⟩ := strip_blank hc l
      exact ⟨codeOf_congr htrim, hcomment⟩
    exact hsame

/-- Blanks at the start of a text are no code. -/
theorem code_blanks {g : List Char} (hg : ∀ c ∈ g, isBlank c = true) (s : List Char) :
    code false (g ++ s) = code false s := by
  induction g with
  | nil => rfl
  | cons c g ih =>
    rw [List.cons_append, code_blank (hg c List.mem_cons_self),
      ih fun d hd => hg d (List.mem_cons_of_mem c hd)]

/-- **Blanks write no lines.** -/
theorem writes_of_isBlank {g : List Char} (hg : ∀ c ∈ g, isBlank c = true) : Writes g [] := by
  intro s
  rw [lines_eq, code_blanks hg, lines_eq, List.nil_append]

/-! ### Single lines -/

/-- Behind a sealed text comments are removed as if it were not there, unless the text ends with
half of what opens a comment. -/
theorem stripFrom_append {r : Region} {s : List Char}
    (hr : ∀ q, r = .quoted q → isQuote q = true) (hs : regionAfter r s = some .code)
    (hlast : s.getLast? ≠ some '/') (blank : Bool) (t : List Char) :
    ∃ b, stripFrom r blank (s ++ t) = (s ++ (stripFrom .code b t).1, (stripFrom .code b t).2) := by
  refine ⟨blankAfter blank s, ?_⟩
  rw [stripFrom_append_of_code hr (regionBehind_of_regionAfter hs) (fun h => absurd h hlast),
    stripFrom_of_regionAfter hs]

theorem trimEnd_append {v : List Char} (hv : Tight v) (X : List Char) :
    trimEnd (v ++ X) = v ++ trimEnd X := by
  have htrim := trimEnd_of_tight hv
  rw [trimEnd] at htrim
  rw [trimEnd, trimEnd, List.reverse_append, List.dropWhile_append]
  split
  · rename_i hempty
    rw [List.isEmpty_iff.1 hempty, htrim]
    simp
  · rw [List.reverse_append, List.reverse_reverse]

/-- Trimming the end only leaves blanks in front of what trimming both ends leaves. -/
theorem exists_trimEnd_eq (X : List Char) :
    ∃ g, (∀ c ∈ g, isBlank c = true) ∧ trimEnd X = g ++ trim X := by
  induction X with
  | nil => exact ⟨[], by simp, rfl⟩
  | cons c X ih =>
    by_cases hc : isBlank c = true
    · obtain ⟨g, hg, hX⟩ := ih
      have htrim : trim (c :: X) = trim X :=
        trim_append (u := [c]) (fun d hd => List.mem_singleton.1 hd ▸ hc) X
      rw [htrim]
      by_cases hempty : trimEnd X = []
      · have hall : trimEnd (c :: X) = [] := by
          rw [trimEnd, List.reverse_eq_nil_iff] at hempty ⊢
          rw [List.reverse_cons, List.dropWhile_append, hempty]
          simp [hc]
        rw [hX] at hempty
        obtain ⟨-, hX⟩ := List.append_eq_nil_iff.1 hempty
        exact ⟨[], by simp, by rw [hall, hX]; rfl⟩
      · refine ⟨c :: g, List.forall_mem_cons.2 ⟨hc, hg⟩, ?_⟩
        rw [List.cons_append, ← hX, trimEnd, List.reverse_cons, List.dropWhile_append]
        have hne : ¬(X.reverse.dropWhile isBlank).isEmpty = true := by
          rw [trimEnd, List.reverse_eq_nil_iff] at hempty
          simpa using hempty
        rw [if_neg hne]
        simp [trimEnd]
    · refine ⟨[], by simp, ?_⟩
      rw [trim, trimStart_of_head fun d hd => ?_]
      · rfl
      · obtain rfl : c = d := by simpa using hd
        simpa using hc

/-- The code that follows a terminated text on its physical line has its own lines. -/
theorem logical_codeOf_append {v : List Char} (hv : Terminated v) (X J : List Char) :
    logical (codeOf (v ++ X) ++ J) = v :: logical (codeOf X ++ J) := by
  have htrim : trim (v ++ X) = v ++ trimEnd X := by
    have hstart : trimStart (v ++ X) = v ++ X := by
      refine trimStart_of_head fun c hc => hv.starts c ?_
      obtain ⟨d, u, hvd⟩ := List.exists_cons_of_ne_nil hv.ne_nil
      rw [hvd] at hc ⊢
      exact hc
    rw [trim, hstart, trimEnd_append hv.tight]
  have hne : ¬(v ++ trimEnd X).isEmpty = true := by simp [hv.ne_nil]
  obtain ⟨g, hg, hX⟩ := exists_trimEnd_eq X
  have hcode : codeOf (v ++ X) ++ J = v ++ (g ++ (trim X ++ ' ' :: J)) := by
    rw [codeOf, htrim, if_neg hne, hX]
    simp
  rw [hcode, logical_first hv, logical_blanks hg, codeOf]
  split
  · rename_i hempty
    rw [List.isEmpty_iff.1 hempty, List.nil_append, List.nil_append,
      logical_blank (by decide)]
  · rw [List.append_assoc, List.singleton_append]

/-- **One line writes itself**, whatever stands behind it on the same physical line. -/
theorem IsLine.writes {v : List Char} (hv : IsLine v) : Writes v [v] := by
  intro s
  refine lines_append_of_codeOf (fun hmem => (hv.unbroken _ hmem).1 rfl) (fun l => ?_) s
  have hfilter : (v ++ l).filter (· != '\r') = v ++ l.filter (· != '\r') := by
    rw [List.filter_append, List.filter_eq_self.2 fun c hc => by simpa using (hv.unbroken c hc).2]
  have hlast : v.getLast? ≠ some '/' := by
    obtain ⟨u, e, rfl, he, -⟩ := hv.ends
    rw [List.getLast?_concat]
    rintro heq
    rw [Option.some.inj heq] at he
    exact absurd he (by decide)
  obtain ⟨b, hb⟩ := stripFrom_append (fun q hq => absurd hq (by simp)) hv.sealed hlast false
    (l.filter (· != '\r'))
  obtain ⟨htrim, hcomment⟩ := stripFrom_code b false (l.filter (· != '\r'))
  have hsame : codeOf (stripFrom .code b (l.filter (· != '\r'))).1 =
      codeOf (stripFrom .code false (l.filter (· != '\r'))).1 := by
    rw [codeOf, codeOf, trim, trim, htrim]
  rw [strip, strip, hfilter, if_neg (by simp), hb]
  refine ⟨hcomment, fun J => ?_⟩
  rw [logical_codeOf_append hv.toTerminated, hsame, List.singleton_append]

/-! ### Whole physical lines -/

/-- Behind a character that ends a line the text is cut anew. -/
theorem exists_cut_append {e : Char} (he : endsLine e = true) (u : List Char) :
    ∃ p ps, ∀ s, cut (u ++ e :: s) = p :: ps ++ cut s := by
  induction u with
  | nil => exact ⟨[e], [], fun s => by rw [List.nil_append, cut, if_pos he]; rfl⟩
  | cons c u ih =>
    obtain ⟨p, ps, hps⟩ := ih
    by_cases hc : endsLine c = true
    · refine ⟨[c], p :: ps, fun s => ?_⟩
      rw [List.cons_append, cut, if_pos hc, hps]
      rfl
    · refine ⟨c :: p, ps, fun s => ?_⟩
      rw [List.cons_append, cut, if_neg hc, hps]
      rfl

theorem logical_append_of_endsLine {e : Char} (he : endsLine e = true) (u s : List Char) :
    logical (u ++ e :: s) = logical (u ++ [e]) ++ logical s := by
  obtain ⟨p, ps, hps⟩ := exists_cut_append he u
  have hnil : ((cut []).map trim).filter (!·.isEmpty) = [] := by decide
  rw [logical, logical, logical, hps, hps, List.map_append, List.map_append, List.filter_append,
    List.filter_append, hnil, List.append_nil]

/-- **Whole physical lines write the lines of their code** if it ends where a line ends. -/
theorem writes_of_code {u : List Char} (hu : u.getLast? = some '\n')
    (hcomment : commentAfter false (physicalLines u) = false)
    (hcode : (trimEnd (code false u)).getLast?.all endsLine = true) :
    Writes u (lines u) := by
  intro s
  obtain ⟨g, hg, hsplit⟩ := exists_append_blanks (code false u)
  rw [lines_eq, code_append_of_getLast hu, hcomment, lines_eq, lines_eq, hsplit]
  generalize trimEnd (code false u) = v at hcode
  cases he : v.getLast? with
  | none =>
    have hempty : logical g = [] := by
      have hblanks := logical_blanks hg []
      rwa [List.append_nil] at hblanks
    rw [List.getLast?_eq_none_iff.1 he, List.nil_append, logical_blanks hg, hempty, List.nil_append]
  | some e =>
    rw [he] at hcode
    obtain ⟨w, rfl⟩ := List.getLast?_eq_some_iff.1 he
    have hends : endsLine e = true := hcode
    have hnil : logical [] = [] := by decide
    have hblanks := logical_blanks hg []
    rw [List.append_nil] at hblanks
    rw [List.append_assoc, List.append_assoc, List.append_assoc, List.singleton_append,
      List.cons_append, List.nil_append, logical_append_of_endsLine hends,
      logical_append_of_endsLine hends w g, logical_blanks hg, hblanks, hnil, List.append_nil]

end SchemaHistory.Source

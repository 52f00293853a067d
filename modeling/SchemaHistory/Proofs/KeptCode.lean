import SchemaHistory.Proofs.LogicalLines

/-!
# Logical lines keep the code

What is replayed is decided line by line, so a character that is lost between the physical lines
and the logical ones, or that gets onto the wrong line, changes what is replayed. Reading a text as
logical lines removes comments, and beyond that it only moves blanks: without their blanks, the
logical lines are the physical ones without comments (`SchemaHistory.Source.normalize_keeps_code`).
-/

namespace SchemaHistory.Source

open Text

/-! ### Texts without their blanks -/

/-- A text **without its blanks**. -/
def withoutBlanks (s : List Char) : List Char :=
  s.filter (!isBlank ·)

theorem withoutBlanks_append (s t : List Char) :
    withoutBlanks (s ++ t) = withoutBlanks s ++ withoutBlanks t :=
  List.filter_append s t

theorem withoutBlanks_of_blanks {g : List Char} (h : ∀ c ∈ g, isBlank c = true) :
    withoutBlanks g = [] :=
  List.filter_eq_nil_iff.2 fun c hc => by simp [h c hc]

theorem withoutBlanks_trim (s : List Char) : withoutBlanks (trim s) = withoutBlanks s := by
  obtain ⟨g, g', hg, hg', hs⟩ := exists_trim_eq s
  have hkept := congrArg withoutBlanks hs
  rw [withoutBlanks_append, withoutBlanks_append, withoutBlanks_of_blanks hg,
    withoutBlanks_of_blanks hg', List.nil_append, List.append_nil] at hkept
  exact hkept.symm

/-- Trimming texts in a row, and leaving out what is empty then, moves blanks only. -/
theorem withoutBlanks_flatten_trim (ls : List (List Char)) :
    withoutBlanks ((ls.map trim).filter (!·.isEmpty)).flatten = withoutBlanks ls.flatten := by
  rw [List.flatten_filter_not_isEmpty]
  induction ls with
  | nil => rfl
  | cons l ls ih =>
    rw [List.map_cons, List.flatten_cons, List.flatten_cons, withoutBlanks_append,
      withoutBlanks_append, withoutBlanks_trim, ih]

theorem withoutBlanks_joined (ls : List (List Char)) :
    withoutBlanks (joined ls) = withoutBlanks ls.flatten := by
  rw [← withoutBlanks_flatten_trim, joined]
  induction (ls.map trim).filter (!·.isEmpty) with
  | nil => rfl
  | cons l ls ih =>
    have hspace : withoutBlanks [' '] = [] := by decide
    rw [List.flatMap_cons, List.flatten_cons, withoutBlanks_append, withoutBlanks_append,
      withoutBlanks_append, hspace, List.append_nil, ih]

theorem withoutBlanks_sublist {s t : List Char} (h : s.Sublist t) :
    (withoutBlanks s).Sublist (withoutBlanks t) :=
  h.filter _

/-- Removing comments keeps what is left in its order. -/
theorem withoutBlanks_stripFrom_sublist (r : Region) (blank : Bool) (s : List Char) :
    (withoutBlanks (stripFrom r blank s).1).Sublist (withoutBlanks s) := by
  induction r, s using scan_induction generalizing blank with
  | nil r => cases r <;> exact List.Sublist.refl _
  | lineComment s h =>
    rw [stripFrom_of_isLineComment h]
    exact List.nil_sublist _
  | move r u s r' h ih =>
    rw [h.stripFrom_append, withoutBlanks_append, withoutBlanks_append]
    refine List.Sublist.append ?_ (ih _)
    have hkept := Region.kept_cases blank r u r'
    generalize r.kept blank u r' = kept at hkept ⊢
    rcases hkept with rfl | rfl | rfl
    · exact List.Sublist.refl _
    · exact List.nil_sublist _
    · exact List.nil_sublist _

theorem withoutBlanks_codeLines_sublist (b : Bool) (ls : List (List Char)) :
    (withoutBlanks (codeLines b ls).flatten).Sublist (withoutBlanks ls.flatten) := by
  induction ls generalizing b with
  | nil => exact List.Sublist.refl _
  | cons l ls ih =>
    rw [codeLines, List.flatten_cons, List.flatten_cons, withoutBlanks_append,
      withoutBlanks_append]
    refine List.Sublist.append ?_ (ih _)
    exact (withoutBlanks_stripFrom_sublist _ _ _).trans
      (withoutBlanks_sublist (List.filter_sublist))

theorem flatten_splitAt_sublist (p : Char → Bool) (s : List Char) :
    (Text.splitAt p s).flatten.Sublist s := by
  induction s with
  | nil => exact List.Sublist.refl _
  | cons c s ih =>
    rw [Text.splitAt]
    split
    · rw [List.flatten_cons, List.nil_append]
      exact ih.trans (List.sublist_cons_self c s)
    · cases hs : Text.splitAt p s with
      | nil => exact absurd hs (splitAt_ne_nil p s)
      | cons piece pieces =>
        rw [hs] at ih
        exact ih.cons_cons c

/-- **The code of a text is made of its characters**, in their order. -/
theorem withoutBlanks_code_sublist (s : List Char) :
    (withoutBlanks (codeLines false (physicalLines s)).flatten).Sublist (withoutBlanks s) :=
  (withoutBlanks_codeLines_sublist false _).trans
    (withoutBlanks_sublist (flatten_splitAt_sublist _ s))

/-! ### The shape of a logical line -/

/-- A text has the **shape** of a logical line if it is not empty, stays on its physical line, and
has no blanks at its ends and no end of a line but at its end. -/
structure IsLogical (s : List Char) : Prop where
  nonempty : s ≠ []
  starts : ∀ c ∈ s.head?, isBlank c = false
  tight : Tight s
  unbroken : ∀ c ∈ s, c ≠ '\n' ∧ c ≠ '\r'
  inner : ∀ c ∈ s.dropLast, endsLine c = false

/-- What stands in front of the last character of a part of a text stands in front of the last
character of the text. -/
theorem dropLast_subset_of_infix {s t : List Char} (h : s <:+: t) : s.dropLast ⊆ t.dropLast := by
  obtain ⟨u, v, rfl⟩ := h
  rcases List.eq_nil_or_concat s with rfl | ⟨s, c, rfl⟩
  · exact List.nil_subset _
  · rw [List.concat_eq_append, List.dropLast_concat, List.append_assoc, List.append_assoc,
      ← List.append_assoc, List.dropLast_append_of_ne_nil (by simp)]
    exact List.Subset.trans (List.subset_append_right u s) (List.subset_append_left _ _)

theorem isLogical_of_mem_normalize {source line : String} (h : line ∈ normalize source) :
    IsLogical line.toList := by
  have hunbroken := ne_of_mem_normalize h
  obtain ⟨l, hl, rfl⟩ := List.mem_map.1 h
  obtain ⟨hl, hne⟩ := List.mem_filter.1 hl
  obtain ⟨q, hq, rfl⟩ := List.mem_map.1 hl
  rw [String.toList_ofList] at hunbroken ⊢
  refine ⟨by simpa using hne, isBlank_head?_trim q, tight_trimEnd _, hunbroken, fun c hc => ?_⟩
  obtain ⟨g, g', -, -, hsplit⟩ := exists_trim_eq q
  have hc : c ∈ q.dropLast :=
    dropLast_subset_of_infix ⟨g, g', by rw [List.append_assoc, ← hsplit]⟩ hc
  obtain ⟨ps, p, hcut, hp, hps⟩ := exists_cut_eq (joined (codeLines false
    (physicalLines source.toList)))
  rw [hcut] at hq
  rcases List.mem_append.1 hq with hq | hq
  · obtain ⟨u, e, rfl, -, hu⟩ := hps q hq
    rw [List.dropLast_concat] at hc
    exact hu c hc
  · obtain rfl := List.mem_singleton.1 hq
    exact hp c (List.dropLast_subset _ hc)

/-- Trimming keeps the last character of a text if it is no blank. -/
theorem getLast?_trim {s : List Char} {e : Char} (he : isBlank e = false) :
    (trim (s ++ [e])).getLast? = some e := by
  obtain ⟨g, g', hg, hg', hs⟩ := exists_trim_eq (s ++ [e])
  have hlast := congrArg List.getLast? hs
  rw [List.getLast?_concat, List.getLast?_append, List.getLast?_append] at hlast
  -- The last character cannot stand among the blanks that are taken away.
  cases hback : g'.getLast? with
  | some d =>
    rw [hback] at hlast
    obtain rfl : e = d := by simpa using hlast
    exact absurd (hg' e (List.mem_of_getLast? hback)) (by simp [he])
  | none =>
    rw [hback, Option.none_or] at hlast
    cases hkept : (trim (s ++ [e])).getLast? with
    | some d =>
      rw [hkept, Option.some_or] at hlast
      exact hlast.symm
    | none =>
      rw [hkept, Option.none_or] at hlast
      exact absurd (hg e (List.mem_of_getLast? hlast.symm)) (by simp [he])

/-- All logical lines but the last one end as lines do. -/
theorem endsLine_of_mem_dropLast_lines {s l : List Char} (h : l ∈ (lines s).dropLast) :
    ∃ e ∈ l.getLast?, endsLine e = true := by
  obtain ⟨ps, p, hcut, -, hps⟩ := exists_cut_eq (code false s)
  have hends : ∀ l ∈ ps.map trim, ∃ e ∈ l.getLast?, endsLine e = true := by
    intro l hl
    obtain ⟨q, hq, rfl⟩ := List.mem_map.1 hl
    obtain ⟨u, e, rfl, he, -⟩ := hps q hq
    exact ⟨e, getLast?_trim (not_isBlank_of_endsLine he), he⟩
  have hlines : lines s = ps.map trim ++ [trim p].filter (!·.isEmpty) := by
    have hfull : (ps.map trim).filter (!·.isEmpty) = ps.map trim := by
      refine List.filter_eq_self.2 fun l hl => ?_
      obtain ⟨e, he, -⟩ := hends l hl
      cases l with
      | nil => exact absurd he (by simp)
      | cons => rfl
    rw [lines_eq, logical, hcut, List.map_append, List.filter_append, hfull, List.map_singleton]
  rw [hlines] at h
  refine hends l ?_
  cases hp : (trim p).isEmpty with
  | true =>
    rw [List.filter_cons_of_neg (by simp [hp]), List.filter_nil, List.append_nil] at h
    exact List.dropLast_subset _ h
  | false =>
    rwa [List.filter_cons_of_pos (by simp [hp]), List.filter_nil, List.dropLast_concat] at h

/-! ### The lines of a text -/

/-- **Reading a text as logical lines keeps its code.** For every text, each logical line has the
shape of one: it is not empty, no blank stands at its ends, no line break in it, and a character
that ends lines nowhere but at its end. All but the last one end with such a character. Blanks
apart, the lines in a row are the physical lines without their comments in a row, so nothing is
lost, doubled, moved or added; and what the comments leave are characters of the text in their
order. -/
theorem normalize_keeps_code (text : String) :
    (∀ line ∈ normalize text, IsLogical line.toList) ∧
      (∀ line ∈ (normalize text).dropLast, ∃ e ∈ line.toList.getLast?, endsLine e = true) ∧
      withoutBlanks ((normalize text).flatMap String.toList) =
        withoutBlanks (codeLines false (physicalLines text.toList)).flatten ∧
      (withoutBlanks (codeLines false (physicalLines text.toList)).flatten).Sublist
        (withoutBlanks text.toList) := by
  refine ⟨fun line => isLogical_of_mem_normalize, fun line h => ?_, ?_,
    withoutBlanks_code_sublist _⟩
  · rw [normalize, ← List.map_dropLast] at h
    obtain ⟨l, hl, rfl⟩ := List.mem_map.1 h
    rw [String.toList_ofList]
    exact endsLine_of_mem_dropLast_lines hl
  · have htexts : (normalize text).flatMap String.toList = (lines text.toList).flatten := by
      rw [normalize, List.flatMap_map]
      simp [List.flatMap]
    rw [htexts, lines_eq, logical, withoutBlanks_flatten_trim, flatten_cut, code,
      withoutBlanks_joined]

/-- A comment leaves a blank, and the last line ends as it is. -/
example : normalize "a /* b */ c; // d;\n e\r\n\x7b f" = ["a  c;", "e \x7b", "f"] := by
  decide +kernel

end SchemaHistory.Source

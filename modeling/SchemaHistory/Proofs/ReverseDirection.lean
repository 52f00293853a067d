import Mathlib.Data.List.TakeWhile
import SchemaHistory.Proofs.LineCharacters
import SchemaHistory.Proofs.Visits
import SchemaHistory.Proofs.WrittenLines

/-!
# The reverse direction never leaks

A source is cut into logical lines as a whole before the first of them is replayed, so text behind
the head of the reverse direction takes part in that: it goes on on the same physical line, and it
may hold quotes, openings of comments and braces that nothing closes. None of this reaches back.

* The code of a text is a beginning of the code of every longer text, blanks at its end apart
  (`SchemaHistory.Source.trimEnd_code_prefix`). All that the scanner looks ahead for is what may
  follow a slash, so this needs that the text does not end with one.
* If the code ends where a logical line ends, what follows is cut on its own, so the logical lines
  of the text are the first ones of every longer text
  (`SchemaHistory.Source.exists_lines_append_of_ends`).
* The replay stops at the head of the reverse direction and does not come to the lines behind it
  (`SchemaHistory.Replay.lines_append_of_opensDown`).
-/

namespace SchemaHistory

namespace Source

open Text

/-! ### Comments in a longer text -/

/-- What is left of a character at the end of a line is a beginning of what is left of it where it
goes together with what follows. -/
theorem stripFrom_prefix_of_not_alone {r : Region} {c : Char} {t : List Char}
    (h : r.Alone c none) (hpair : ¬r.Alone c t.head?) (hslash : c ≠ '/') (blank : Bool) :
    (stripFrom r blank [c]).1 <+: (stripFrom r blank (c :: t)).1 := by
  cases r with
  | code => exact absurd ⟨h.1, fun hc => absurd hc hslash⟩ hpair
  | quoted q =>
    -- The longer line escapes a character here, behind the backslash.
    cases t with
    | nil => exact absurd h hpair
    | cons d t =>
      obtain rfl : c = '\\' := by
        by_contra hc
        exact hpair fun hc' => absurd hc' hc
      have hleft : (stripFrom (.quoted q) blank ['\\']).1 = ['\\'] := by
        rw [stripFrom]
        · split <;> rfl
        · simp
      rw [hleft, stripFrom]
      exact (List.prefix_cons_inj _).2 List.nil_prefix
  | comment =>
    -- The longer line closes the comment here, and no code has been read so far.
    rw [stripFrom]
    · exact List.nil_prefix
    · simp

/-- **What is left of a line without comments is a beginning of what is left of a longer line**,
unless the line ends with a slash, which the longer one may make the opening of a comment. -/
theorem stripFrom_prefix {s : List Char} (hlast : s.getLast? ≠ some '/') (r : Region)
    (blank : Bool) (t : List Char) :
    (stripFrom r blank s).1 <+: (stripFrom r blank (s ++ t)).1 := by
  induction r, s using scan_induction generalizing blank with
  | nil r => cases r <;> exact List.nil_prefix
  | lineComment s h =>
    rw [stripFrom_of_isLineComment h]
    exact List.nil_prefix
  | move r u s r' h ih =>
    rcases h.append_or t with hlonger | ⟨c, rfl, rfl, rfl, halone, hpair⟩
    · have hrest : s.getLast? ≠ some '/' := fun hs => hlast (by rw [List.getLast?_append, hs]; rfl)
      rw [List.append_assoc, hlonger.stripFrom_append, h.stripFrom_append]
      exact (List.prefix_append_right_inj _).2 (ih hrest _)
    · exact stripFrom_prefix_of_not_alone halone hpair (fun hc => hlast (by rw [hc]; rfl)) blank

/-- A physical line that ends neither with a slash nor with a carriage return, which is removed. -/
theorem strip_prefix_append {v : List Char} (hlast : ∀ c ∈ v.getLast?, c ≠ '/' ∧ c ≠ '\r')
    (b : Bool) (t : List Char) : (strip b v).1 <+: (strip b (v ++ t)).1 := by
  have hfilter : (v.filter (· != '\r')).getLast? ≠ some '/' := by
    rcases List.eq_nil_or_concat v with rfl | ⟨w, c, rfl⟩
    · simp
    · obtain ⟨hslash, hreturn⟩ := hlast c (by simp)
      have hkept : [c].filter (· != '\r') = [c] := by simpa using hreturn
      simpa [hkept] using hslash
  rw [strip, strip, List.filter_append]
  exact stripFrom_prefix hfilter _ _ _

/-! ### The code of a longer text -/

/-- What is a beginning of a text, blanks at its end apart, is one behind other text as well. -/
theorem trimEnd_prefix_append {C D : List Char} (h : trimEnd C <+: D) (A : List Char) :
    trimEnd (A ++ C) <+: A ++ D := by
  have hparts : trimEnd (A ++ C) = if trimEnd C = [] then trimEnd A else A ++ trimEnd C := by
    rw [trimEnd, trimEnd, List.reverse_append, List.dropWhile_append]
    simp only [List.isEmpty_iff, List.reverse_eq_nil_iff]
    split
    · rfl
    · rw [List.reverse_append, List.reverse_reverse]
  rw [hparts]
  split
  · obtain ⟨g, -, hA⟩ := exists_append_blanks A
    exact ⟨g ++ D, by rw [← List.append_assoc, ← hA]⟩
  · exact (List.prefix_append_right_inj A).2 h

/-- The code of a physical line is a beginning of the code of a longer line. -/
theorem trimEnd_prefix_codeOf {x y : List Char} (h : x <+: y) :
    trimEnd (codeOf x) <+: codeOf y := by
  obtain ⟨z, rfl⟩ := h
  rw [codeOf]
  split
  · exact List.nil_prefix
  · rename_i hne
    have htight : Tight (trim x) := tight_trimEnd _
    have hstart : ¬(x.dropWhile isBlank).isEmpty = true := by
      intro hnil
      refine hne ?_
      rw [trim, trimStart, List.isEmpty_iff.1 hnil]
      rfl
    obtain ⟨g, -, hg⟩ := exists_append_blanks (trimStart x)
    have htrim : trim (x ++ z) = trim x ++ trimEnd (g ++ z) := by
      rw [trim, trimStart, List.dropWhile_append, if_neg hstart, ← trimEnd_append htight,
        ← List.append_assoc]
      exact congrArg (fun s => trimEnd (s ++ z)) hg
    have hne' : ¬(trim (x ++ z)).isEmpty = true := by
      rw [htrim]
      simp_all
    rw [trimEnd_append htight, codeOf, if_neg hne', htrim, List.append_assoc]
    exact (List.prefix_append_right_inj _).2 List.nil_prefix

/-- **The code of a text is a beginning of the code of every longer text**, blanks at its end
apart. -/
theorem trimEnd_code_prefix {u : List Char} (hlast : ∀ c ∈ u.getLast?, c ≠ '/' ∧ c ≠ '\r')
    (s : List Char) : trimEnd (code false u) <+: code false (u ++ s) := by
  -- Only the last physical line of the text goes on, behind a comment that may be open.
  have hline : ∀ (b : Bool) (v : List Char), '\n' ∉ v → (∀ c ∈ v.getLast?, c ≠ '/' ∧ c ≠ '\r') →
      trimEnd (code b v) <+: code b (v ++ s) := by
    intro b v hv hlast
    cases hs : physicalLines s with
    | nil => exact absurd hs (physicalLines_ne_nil s)
    | cons l rest =>
      have hcode : code b v = codeOf (strip b v).1 := by
        rw [code, physicalLines_of_not_mem hv, codeLines, joined_cons]
        exact List.append_nil _
      rw [hcode, code, physicalLines_append_of_not_mem hv hs, codeLines, joined_cons]
      exact (trimEnd_prefix_codeOf (strip_prefix_append hlast b l)).trans (List.prefix_append _ _)
  rcases exists_last (· == '\n') u with hu | ⟨w, e, v, rfl, he, hv⟩
  · exact hline false u (fun hmem => absurd (hu _ hmem) (by decide)) hlast
  · obtain rfl : e = '\n' := eq_of_beq he
    have hv : '\n' ∉ v := fun hmem => absurd (hv _ hmem) (by decide)
    have hlast' : ∀ c ∈ v.getLast?, c ≠ '/' ∧ c ≠ '\r' := by
      intro c hc
      refine hlast c ?_
      rw [List.getLast?_append, List.getLast?_cons, Option.mem_def.1 hc]
      rfl
    have hsplit : w ++ '\n' :: v ++ s = w ++ '\n' :: (v ++ s) := by simp
    rw [hsplit, (code_append false w v).1, (code_append false w (v ++ s)).1]
    exact trimEnd_prefix_append (hline _ v hv hlast') _

/-! ### The lines of a longer text -/

/-- A text of which trimming leaves nothing is blank. -/
theorem isBlank_of_trim_eq_nil {s : List Char} (h : trim s = []) : ∀ c ∈ s, isBlank c = true := by
  obtain ⟨g, hg, hs⟩ := exists_trimEnd_eq s
  obtain ⟨g', hg', hs'⟩ := exists_append_blanks s
  rw [h, List.append_nil] at hs
  rw [hs', hs]
  exact List.forall_mem_append.2 ⟨hg, hg'⟩

/-- If the last logical line has the end of a line in it, the text ends with one, blanks apart. -/
theorem exists_eq_append_endsLine {s line : List Char} {ls : List (List Char)}
    (hs : logical s = ls ++ [line]) (hline : ∃ c ∈ line, endsLine c = true) :
    ∃ w e v, s = w ++ e :: v ∧ endsLine e = true ∧ ∀ c ∈ v, isBlank c = true := by
  obtain ⟨c, hc, hends⟩ := hline
  -- What stands behind the last end of a line would be one more line if it were not blank.
  have hblank : ∀ ls' v, (∀ d ∈ v, endsLine d = false) → ls' ++ logical v = ls ++ [line] →
      trim v = [] := by
    intro ls' v hv heq
    by_contra hne
    have hone : logical v = [trim v] := by
      rw [logical, cut_of_not_endsLine hv]
      simpa using hne
    rw [hone] at heq
    obtain rfl : trim v = line := by simpa using (List.append_inj' heq rfl).2
    rw [hv c (trim_subset v hc)] at hends
    exact absurd hends (by simp)
  rcases exists_last endsLine s with hnone | ⟨w, e, v, rfl, he, hv⟩
  · have hempty := hblank [] s hnone (by rw [hs]; rfl)
    rw [logical, cut_of_not_endsLine hnone] at hs
    simp [hempty] at hs
  · rw [logical_append_of_endsLine he] at hs
    exact ⟨w, e, v, rfl, he, isBlank_of_trim_eq_nil (hblank _ v hv hs)⟩

/-- **The logical lines of a text are the first ones of every longer text** if the last of them
ends as lines do. -/
theorem exists_lines_append_of_ends {u line : List Char} {ls : List (List Char)}
    (hlast : ∀ c ∈ u.getLast?, c ≠ '/' ∧ c ≠ '\r') (hu : lines u = ls ++ [line])
    (hline : ∃ c ∈ line, endsLine c = true) (s : List Char) :
    ∃ more, lines (u ++ s) = lines u ++ more := by
  obtain ⟨w, e, v, hcode, he, hv⟩ := exists_eq_append_endsLine (s := code false u) hu hline
  have htight : Tight (w ++ [e]) := by
    intro c hc
    obtain rfl : e = c := by simpa using hc
    exact not_isBlank_of_endsLine he
  have htrim : trimEnd (code false u) = w ++ [e] := by
    have hempty : trimEnd v = [] := by
      rw [trimEnd, List.dropWhile_eq_nil_iff.2 fun c hc => hv c (List.mem_reverse.1 hc)]
      rfl
    have happend := trimEnd_append htight v
    rw [hempty, List.append_nil, List.append_assoc] at happend
    rw [hcode]
    exact happend
  obtain ⟨z, hz⟩ := trimEnd_code_prefix hlast s
  have hnil : logical [] = [] := by decide
  have hblank := logical_blanks hv []
  rw [List.append_nil, hnil] at hblank
  refine ⟨logical z, ?_⟩
  rw [lines_eq, lines_eq, ← hz, htrim, hcode, List.append_assoc, List.singleton_append,
    logical_append_of_endsLine he, logical_append_of_endsLine he w v, hblank, List.append_nil]

end Source

/-! ### The replay of a longer source -/

namespace Replay

/-- **Nothing behind the head of the reverse direction is replayed.** -/
theorem lines_append_of_opensDown {text : String} (h : Statement.opensDown text.toList = true)
    (source : String) (n : Nat) (operation : Bool) (r : Replay) (texts more : List String) :
    lines source n operation r (texts ++ text :: more) =
      lines source n operation r (texts ++ [text]) := by
  have hstop : ∀ (r : Replay) l, r.line text l = (r, .stop) := by
    intro r l
    rw [line, Statement.recognize, if_pos h]
    rfl
  induction texts generalizing n operation r with
  | nil =>
    rw [List.nil_append, List.nil_append, lines, lines, hstop]
  | cons t texts ih =>
    rw [List.cons_append, List.cons_append, lines, lines]
    split
    · rfl
    · rfl
    · exact ih _ _ _

/-- **The reverse direction never leaks.** If a text ends with a brace, and its last logical line
ends with it and is recognised as the head of the reverse direction, nothing that is put behind
the text matters: the source is replayed with the same result, the same schema and the same
diagnostics. -/
theorem source_append_of_downBoundary {head : String} (hhead : head.toList.getLast? = some '\x7b')
    {texts : List String} {text : String} (htexts : Source.normalize head = texts ++ [text])
    (hbrace : text.toList.getLast? = some '\x7b') {inTable : Bool} {l : Location}
    (hdown : Statement.recognize text.toList inTable l = .ok (some .downBoundary)) (rest : String)
    (name : String) (r : Replay) : r.source ⟨name, head ++ rest⟩ = r.source ⟨name, head⟩ := by
  have hlast : ∀ c ∈ head.toList.getLast?, c ≠ '/' ∧ c ≠ '\r' := by
    intro c hc
    obtain rfl := Option.some.inj (hhead.symm.trans hc)
    decide
  have hends : ∃ c ∈ text.toList, Source.endsLine c = true :=
    ⟨'\x7b', List.mem_of_getLast? hbrace, by decide⟩
  have hlines : Source.lines head.toList = texts.map String.toList ++ [text.toList] := by
    have hback := congrArg (List.map String.toList) htexts
    rw [Source.normalize, List.map_map, List.map_append] at hback
    simpa [Function.comp_def] using hback
  obtain ⟨more, hmore⟩ :=
    Source.exists_lines_append_of_ends hlast hlines hends rest.toList
  have hlonger : Source.normalize (head ++ rest) =
      texts ++ text :: more.map String.ofList := by
    rw [Source.normalize, String.toList_append, hmore, List.map_append, ← Source.normalize, htexts]
    simp
  have hopens := Statement.opensDown_of_recognize hdown
  rw [source, source]
  simp only
  rw [hlonger, htexts, lines_append_of_opensDown hopens]

/-- A source that creates a table, up to the brace that opens the reverse direction. -/
def createdBadges : String :=
  "Schema::create('badges', function ($table) \x7b\n$table->id();\n\x7d);\n" ++
    "public function down()\n\x7b"

/-- What stands behind it: a string and a comment that nothing closes, and one brace too many. -/
def undoneBadges : String :=
  " echo 'it\nSchema::drop('badges'); \x7d\x7d /*\nSchema::create('badges', $undo);"

/-- The table is there whatever stands behind the head of the reverse direction. -/
theorem source_append_of_downBoundary_badges :
    createdBadges.toList.getLast? = some '\x7b' ∧
      Source.normalize createdBadges =
        ["Schema::create('badges', function ($table) \x7b", "$table->id();", "\x7d", ");"] ++
          ["public function down() \x7b"] ∧
      "public function down() \x7b".toList.getLast? = some '\x7b' ∧
      Statement.recognize "public function down() \x7b".toList false ⟨"a.php", 5⟩ =
        .ok (some .downBoundary) ∧
      ({} : Replay).source ⟨"a.php", createdBadges ++ undoneBadges⟩ =
        ({} : Replay).source ⟨"a.php", createdBadges⟩ ∧
      ((({} : Replay).source ⟨"a.php", createdBadges⟩).1.schema.tableNames,
        (({} : Replay).source ⟨"a.php", createdBadges⟩).2) = (["badges"], .ok true) := by
  have hhead : createdBadges.toList.getLast? = some '\x7b' := by decide +kernel
  have hlines : Source.normalize createdBadges =
      ["Schema::create('badges', function ($table) \x7b", "$table->id();", "\x7d", ");"] ++
        ["public function down() \x7b"] := by
    decide +kernel
  have hbrace : "public function down() \x7b".toList.getLast? = some '\x7b' := by decide
  have hopens : Statement.opensDown "public function down() \x7b".toList = true := by decide
  have hdown : Statement.recognize "public function down() \x7b".toList false ⟨"a.php", 5⟩ =
      .ok (some .downBoundary) := by
    rw [Statement.recognize, if_pos hopens]
  exact ⟨hhead, hlines, hbrace, hdown,
    source_append_of_downBoundary hhead hlines hbrace hdown undoneBadges "a.php" {},
    by decide +kernel⟩

end Replay

end SchemaHistory

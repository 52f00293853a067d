import Mathlib.Data.List.TakeWhile
import SchemaHistory.Proofs.Regions

/-!
# Comments and line breaks do not matter

A migration can be laid out in many ways. A comment can be put into it, and a statement can go on
on the next line, and neither changes what is read. Two texts are **relaid**
(`SchemaHistory.Source.Relaid`) if one comes from the other by such an edit, and then they have
the same logical lines (`SchemaHistory.Source.normalize_eq_of_relaid`).

Only the physical line on which an edit is made has to be looked at, behind a comment that the
lines before may have left open (`SchemaHistory.Source.lines_congr`). Where the scanner is in code:

* A line comment leaves a blank at the end of the line, which is trimmed
  (`SchemaHistory.Source.code_append_lineComment`).
* A block comment on one line leaves nothing behind a blank, and a blank at the start of the line
  (`SchemaHistory.Source.code_append_comment`).
* A block comment over several lines breaks the line at its place: the code is that of the text in
  front, followed by that of the text behind (`SchemaHistory.Source.code_append_broken`). A line
  break does just that (`SchemaHistory.Source.code_append_lineBreak`).

So it remains to see where a line can be broken without a change to its code. That is where nothing
but blanks stands in front (`SchemaHistory.Source.code_append_of_blanks`), and at a single space
between two characters that the scanner leaves, since the code of a physical line ends with one
space (`SchemaHistory.Source.code_append_space`). With more blanks than one, or with a comment next
to the space, the code would lose a blank, and a logical line would show that.
-/

namespace SchemaHistory.Source

open Text

/-! ### The last physical line -/

/-- The last physical line of a text. -/
def lastLine (u : List Char) : List Char :=
  (physicalLines u).getLastD []

/-- Whether a comment is open in front of the last physical line of a text. -/
def commentBefore (u : List Char) : Bool :=
  commentAfter false (physicalLines u).dropLast

/-- What the scanner is **inside of** behind a text; nothing if it is inside of a line comment. -/
def inside (u : List Char) : Option Region :=
  regionBehind (lineStart (commentBefore u)) (withoutReturns (lastLine u))

theorem exists_lastLine (u : List Char) :
    ∃ ls v, '\n' ∉ v ∧ v <:+ u ∧ (∀ t, '\n' ∉ t → physicalLines (u ++ t) = ls ++ [v ++ t]) ∧
      ∀ t, code false (u ++ t) =
        joined (codeLines false ls) ++ code (commentAfter false ls) (v ++ t) := by
  have happend : ∀ {v t : List Char}, '\n' ∉ v → '\n' ∉ t → '\n' ∉ v ++ t := fun hv ht hmem =>
    (List.mem_append.1 hmem).elim hv ht
  rcases exists_last (· == '\n') u with hu | ⟨w, e, v, rfl, he, hv⟩
  · have hline : '\n' ∉ u := fun hmem => absurd (hu _ hmem) (by decide)
    exact ⟨[], u, hline, List.suffix_refl u,
      fun t ht => physicalLines_of_not_mem (happend hline ht), fun t => rfl⟩
  · obtain rfl : e = '\n' := eq_of_beq he
    have hline : '\n' ∉ v := fun hmem => absurd (hv _ hmem) (by decide)
    refine ⟨physicalLines w, v, hline, (List.suffix_cons _ v).trans (List.suffix_append w _),
      fun t ht => ?_, fun t => ?_⟩
    · have hone := physicalLines_of_not_mem (happend hline ht)
      rw [List.append_assoc, List.cons_append, physicalLines_append, hone]
    · rw [List.append_assoc, List.cons_append, (code_append false w (v ++ t)).1]
      rfl

/-- What is put behind a text goes on on its last physical line. -/
theorem lastLine_spec (u : List Char) :
    '\n' ∉ lastLine u ∧ lastLine u <:+ u ∧
      (∀ t, '\n' ∉ t → lastLine (u ++ t) = lastLine u ++ t ∧
        commentBefore (u ++ t) = commentBefore u) ∧
      ∃ A, ∀ t, code false (u ++ t) = A ++ code (commentBefore u) (lastLine u ++ t) := by
  obtain ⟨ls, v, hline, hsuffix, hlines, hcode⟩ := exists_lastLine u
  have hlast : ∀ t, '\n' ∉ t →
      lastLine (u ++ t) = v ++ t ∧ commentBefore (u ++ t) = commentAfter false ls := by
    intro t ht
    rw [lastLine, commentBefore, hlines t ht, List.getLastD_concat, List.dropLast_concat]
    exact ⟨rfl, rfl⟩
  obtain ⟨hv, hb⟩ := hlast [] (by simp)
  rw [List.append_nil, List.append_nil] at hv
  rw [List.append_nil] at hb
  rw [hv, hb]
  exact ⟨hline, hsuffix, hlast, _, hcode⟩

theorem not_mem_lastLine (u : List Char) : '\n' ∉ lastLine u :=
  (lastLine_spec u).1

/-- A character that breaks no line stands on the last physical line. -/
theorem lastLine_concat {c : Char} (hc : c ≠ '\n') (u : List Char) :
    lastLine (u ++ [c]) = lastLine u ++ [c] ∧ commentBefore (u ++ [c]) = commentBefore u :=
  (lastLine_spec u).2.2.1 [c] fun hmem => hc (List.mem_singleton.1 hmem).symm

/-- **What stands behind a text can be exchanged** if that makes no difference to the code of the
last physical line. -/
theorem lines_congr {u t t' : List Char}
    (h : code (commentBefore u) (lastLine u ++ t) = code (commentBefore u) (lastLine u ++ t')) :
    lines (u ++ t) = lines (u ++ t') := by
  obtain ⟨-, -, -, A, hA⟩ := lastLine_spec u
  rw [lines_eq, lines_eq, hA, hA, h]

/-! ### Comments -/

/-- A text **ends the line** if nothing stands on its first physical line. -/
def EndsTheLine (w : List Char) : Prop :=
  ∀ l ∈ (physicalLines w).head?, withoutReturns l = []

/-- A text can be the **body** of a block comment if the comment is not closed inside of it. -/
def IsBody (x : List Char) : Prop :=
  ¬['*', '/'] <:+: withoutReturns x

instance (w : List Char) : Decidable (EndsTheLine w) :=
  inferInstanceAs (Decidable (∀ l ∈ (physicalLines w).head?, withoutReturns l = []))

instance (x : List Char) : Decidable (IsBody x) :=
  inferInstanceAs (Decidable (¬['*', '/'] <:+: withoutReturns x))

theorem IsBody.of_append {x y : List Char} (h : IsBody (x ++ y)) : IsBody x ∧ IsBody y := by
  rw [IsBody, withoutReturns_append] at h
  exact ⟨fun hx => h (hx.trans (List.prefix_append _ _).isInfix),
    fun hy => h (hy.trans (List.suffix_append _ _).isInfix)⟩

/-- A physical line inside of a comment is no code. -/
theorem code_body_append {x : List Char} (hx : IsBody x) (hline : '\n' ∉ x) (s : List Char) :
    code true (x ++ '\n' :: s) = code true s := by
  have hstrip : strip true x = ([], true) := (stripFrom_body hx false).1
  have hopen : commentAfter true (physicalLines x) = true := by
    rw [physicalLines_of_not_mem hline]
    exact congrArg Prod.snd hstrip
  rw [(code_append true x s).1, code_of_not_mem hline, hstrip, hopen]
  rfl

/-- **Behind a comment the code goes on as at the start of a line.** -/
theorem code_body_close {x : List Char} (hx : IsBody x) (w : List Char) :
    code true (x ++ '*' :: '/' :: w) = code false w := by
  -- The body is gone through character by character; `p` is what its current line starts with.
  have hpart : ∀ x p : List Char, IsBody (p ++ x) → '\n' ∉ p →
      code true (p ++ (x ++ '*' :: '/' :: w)) = code false w := by
    intro x
    induction x with
    | nil =>
      intro p hp hline
      rw [List.append_nil] at hp
      have hsplit : p ++ ([] ++ '*' :: '/' :: w) = p ++ ['*', '/'] ++ w := by simp
      rw [hsplit]
      show code true (p ++ ['*', '/'] ++ w) = code false ([] ++ w)
      refine code_append_congr (by simp [hline]) (by simp) fun l _ => ?_
      have hread : strip true (p ++ ['*', '/'] ++ l) =
          (' ' :: (stripFrom .code true (withoutReturns l)).1,
            (stripFrom .code true (withoutReturns l)).2) := by
        rw [strip_eq, List.append_assoc, withoutReturns_append]
        exact (stripFrom_body hp false).2 (withoutReturns l)
      obtain ⟨htrim, hcomment⟩ := stripFrom_code true false (withoutReturns l)
      rw [hread]
      exact ⟨codeOf_congr (congrArg trimEnd htrim), hcomment⟩
    | cons c x ih =>
      intro p hp hline
      by_cases hc : c = '\n'
      · obtain ⟨hfirst, hrest⟩ := hp.of_append
        rw [hc, List.cons_append, code_body_append hfirst hline]
        exact ih [] (IsBody.of_append (x := [c]) hrest).2 (by simp)
      · have hsplit : p ++ (c :: x ++ '*' :: '/' :: w) = p ++ [c] ++ (x ++ '*' :: '/' :: w) := by
          simp
        rw [hsplit]
        exact ih _ (by simpa using hp) (by simp [hline, Ne.symm hc])
  exact hpart x [] hx (by simp)

section Places

variable {b : Bool} {v w x : List Char} (hline : '\n' ∉ v)
  (hcode : regionBehind (lineStart b) (withoutReturns v) = some .code)

include hcode in
/-- No comment is open behind a line that ends in code. -/
theorem snd_strip_of_code : (strip b v).2 = false := by
  rw [strip_eq, snd_stripFrom, hcode]
  rfl

include hline hcode

/-- **A line comment at the end of a physical line** does not matter. -/
theorem code_append_lineComment {o : List Char} (ho : o = ['/', '/'] ∨ o = ['#']) (hx : '\n' ∉ x)
    (hw : EndsTheLine w) : code b (v ++ (' ' :: (o ++ x)) ++ w) = code b (v ++ w) := by
  have hmark : '\n' ∉ o := by rcases ho with rfl | rfl <;> decide
  refine code_append_congr (by simp [hline, hmark, hx]) hline fun l hl => ?_
  have hplain : strip b (v ++ l) = strip b v := by
    rw [strip_eq, withoutReturns_append, hw l hl, List.append_nil]
    rfl
  have hread : strip b (v ++ (' ' :: (o ++ x)) ++ l) = ((strip b v).1 ++ [' '], false) := by
    rw [List.append_assoc, strip_append hcode (Apart.of_head (by decide) _ _)]
    rcases ho with rfl | rfl <;> rfl
  rw [hread, hplain, snd_strip_of_code hcode]
  exact ⟨codeOf_congr (trim_append_blanks (by decide) _), rfl⟩

variable (hblank : ∀ c ∈ v.getLast?, c = ' ' ∨ c = '\t')
include hblank

/-- Behind a space or a tab, and at the start of a line, nothing that follows belongs to what stands
in front; and there is no code in front, or it ends with a blank. -/
theorem apart_of_blank :
    (∀ t, Apart (withoutReturns v) t) ∧
      ((strip b v).1 = [] ∨ blankAfter false (strip b v).1 = true) := by
  cases hlast : v.getLast? with
  | none =>
    rw [List.getLast?_eq_none_iff.1 hlast]
    refine ⟨fun t ht => absurd ht (by simp [withoutReturns]), Or.inl ?_⟩
    cases b <;> rfl
  | some c =>
    have hc : c = ' ' ∨ c = '\t' := hblank c hlast
    have hslash : c ≠ '/' := by rcases hc with rfl | rfl <;> decide
    obtain ⟨u, rfl⟩ := List.getLast?_eq_some_iff.1 hlast
    have hkept : withoutReturns (u ++ [c]) = withoutReturns u ++ [c] := by
      rw [withoutReturns_append]
      rcases hc with rfl | rfl <;> rfl
    rw [hkept] at hcode ⊢
    refine ⟨fun t ht => absurd (by simpa using ht) hslash, Or.inr ?_⟩
    have hleft := getLast?_stripFrom hcode (fun _ => hslash) false
    rw [strip_eq, hkept, blankAfter, hleft]
    rcases hc with rfl | rfl <;> rfl

/-- A block comment that is opened at such a place. -/
theorem strip_append_opening (l : List Char) :
    strip b (v ++ '/' :: '*' :: l) =
      ((strip b v).1 ++
          (stripFrom .comment (blankAfter false (strip b v).1) (withoutReturns l)).1,
        (stripFrom .comment (blankAfter false (strip b v).1) (withoutReturns l)).2) := by
  have hopening : withoutReturns ('/' :: '*' :: l) = '/' :: '*' :: withoutReturns l := rfl
  rw [strip_append hcode ((apart_of_blank hline hcode hblank).1 _), hopening, stripFrom]

/-- **A block comment on one physical line** does not matter. -/
theorem code_append_comment (hx : IsBody x) (hone : '\n' ∉ x) :
    code b (v ++ '/' :: '*' :: (x ++ ['*', '/']) ++ w) = code b (v ++ w) := by
  refine code_append_congr (by simp [hline, hone]) hline fun l _ => ?_
  obtain ⟨hapart, hfront⟩ := apart_of_blank hline hcode hblank
  have hclose : withoutReturns (x ++ ['*', '/'] ++ l) =
      withoutReturns x ++ '*' :: '/' :: withoutReturns l := by
    rw [List.append_assoc, withoutReturns_append]
    rfl
  rw [List.append_assoc, List.cons_append, List.cons_append,
    strip_append_opening hline hcode hblank, hclose, (stripFrom_body hx _).2,
    strip_append hcode (hapart _)]
  rcases hfront with hnil | hfront
  · -- At the start of the line the comment leaves a space, which is trimmed.
    obtain ⟨htrim, hcomment⟩ := stripFrom_code true false (withoutReturns l)
    rw [hnil]
    exact ⟨codeOf_congr (congrArg trimEnd htrim), hcomment⟩
  · rw [hfront]
    exact ⟨rfl, rfl⟩

/-- **A block comment over several physical lines** breaks the line. -/
theorem code_append_broken (hx : IsBody x) (hmany : '\n' ∈ x) :
    code b (v ++ '/' :: '*' :: (x ++ ['*', '/']) ++ w) = code b v ++ code false w := by
  obtain ⟨y, z, rfl, hy⟩ := List.eq_append_cons_of_mem hmany
  obtain ⟨hbody, hrest⟩ := hx.of_append
  have hrest : IsBody z := (IsBody.of_append (x := ['\n']) hrest).2
  have hfirst : strip b (v ++ '/' :: '*' :: y) = ((strip b v).1, true) := by
    rw [strip_append_opening hline hcode hblank, (stripFrom_body hbody _).1, List.append_nil]
  have hmem : '\n' ∉ v ++ '/' :: '*' :: y := by simp [hline, hy]
  have hopen : commentAfter b (physicalLines (v ++ '/' :: '*' :: y)) = true := by
    rw [physicalLines_of_not_mem hmem]
    exact congrArg Prod.snd hfirst
  have hsplit : v ++ '/' :: '*' :: (y ++ '\n' :: z ++ ['*', '/']) ++ w =
      v ++ '/' :: '*' :: y ++ '\n' :: (z ++ '*' :: '/' :: w) := by simp
  rw [hsplit, (code_append b _ _).1, hopen, code_body_close hrest, code_of_not_mem hmem, hfirst,
    code_of_not_mem hline]

end Places

/-! ### Where a line can be broken -/

theorem codeOf_of_ne_nil {s : List Char} (h : trim s ≠ []) : codeOf s = trim s ++ [' '] := by
  rw [codeOf, if_neg (by simpa using h)]

/-- The code around a space between two characters that are no blanks is the code in front of it and
the code behind it. -/
theorem codeOf_space {s t : List Char} {c d : Char} (hs : s.getLast? = some c)
    (hc : isBlank c = false) (hd : isBlank d = false) :
    codeOf (s ++ ' ' :: d :: t) = codeOf s ++ codeOf (d :: t) := by
  have hne : trimStart s ≠ [] := by
    rw [trimStart, Ne, List.dropWhile_eq_nil_iff]
    exact fun hall => absurd (hall c (List.mem_of_getLast? hs)) (by simp [hc])
  have hstart : ∀ u, trimStart (s ++ u) = trimStart s ++ u := by
    intro u
    have hempty : ¬(s.dropWhile isBlank).isEmpty = true := fun hnil =>
      hne (List.isEmpty_iff.1 hnil)
    rw [trimStart, List.dropWhile_append, if_neg hempty]
    rfl
  have htight : Tight (trimStart s) := by
    intro e he
    have hsplit := congrArg List.getLast? (List.takeWhile_append_dropWhile (p := isBlank) (l := s))
    rw [List.getLast?_append, ← trimStart, Option.mem_def.1 he, hs] at hsplit
    obtain rfl := Option.some.inj hsplit
    exact hc
  have hspace : Tight [' ', d] := by
    intro e he
    obtain rfl : d = e := by simpa using he
    exact hd
  have hfront : trim s = trimStart s := by rw [trim, trimEnd_of_tight htight]
  have hbehind : trim (d :: t) = d :: trimEnd t := by
    rw [trim, trimStart_of_head (s := d :: t), trimEnd_cons hd]
    intro e he
    obtain rfl : d = e := by simpa using he
    exact hd
  have hboth : trim (s ++ ' ' :: d :: t) = trimStart s ++ ' ' :: d :: trimEnd t := by
    rw [trim, hstart, trimEnd_append htight]
    exact congrArg (trimStart s ++ ·) (trimEnd_append hspace t)
  rw [codeOf_of_ne_nil (by simp [hboth]), codeOf_of_ne_nil (hfront ▸ hne),
    codeOf_of_ne_nil (by simp [hbehind]), hboth, hfront, hbehind]
  simp

theorem prefix_of_physicalLines {s l : List Char} {ls : List (List Char)}
    (h : physicalLines s = l :: ls) : l <+: s := by
  induction s generalizing l ls with
  | nil =>
    obtain ⟨rfl, -⟩ := List.cons.inj h
    exact List.nil_prefix
  | cons c s ih =>
    by_cases hc : c = '\n'
    · rw [hc] at h
      obtain ⟨rfl, -⟩ := List.cons.inj ((physicalLines_append [] s).symm.trans h)
      exact List.nil_prefix
    · cases hs : physicalLines s with
      | nil => exact absurd hs (physicalLines_ne_nil s)
      | cons l' ls' =>
        have hline : '\n' ∉ [c] := fun hmem => hc (List.mem_singleton.1 hmem).symm
        obtain ⟨rfl, -⟩ := List.cons.inj ((physicalLines_append_of_not_mem hline hs).symm.trans h)
        exact (List.prefix_cons_inj c).2 (ih hs)

section Breaks

variable {b : Bool} {v : List Char}
  (hcode : regionBehind (lineStart b) (withoutReturns v) = some .code)

include hcode in
/-- **A line can be broken behind blanks** that it starts with. -/
theorem code_append_of_blanks (hblank : ∀ c ∈ v, isBlank c = true) (w : List Char) :
    code b (v ++ w) = code b v ++ code false w := by
  have hb : b = false := by
    cases b with
    | false => rfl
    | true =>
      have hkept : ∀ c ∈ withoutReturns v, isBlank c = true := fun c hc =>
        hblank c (List.mem_filter.1 hc).1
      rw [lineStart, if_pos rfl, regionBehind_blanks hkept] at hcode
      exact absurd hcode (by simp)
  have hnil : code false v = [] := by
    have h := code_blanks hblank []
    rwa [List.append_nil] at h
  rw [hb, code_blanks hblank, hnil, List.nil_append]

variable (hline : '\n' ∉ v)
include hcode hline

/-- Blanks at the end of a line are no code. -/
theorem code_append_blanks {g : List Char} (hg : ∀ c ∈ g, isBlank c = true) (hone : '\n' ∉ g) :
    code b (v ++ g) = code b v ∧ (strip b (v ++ g)).2 = false := by
  have hkept : ∀ c ∈ withoutReturns g, isBlank c = true := fun c hc =>
    hg c (List.mem_filter.1 hc).1
  have hread : strip b (v ++ g) = ((strip b v).1 ++ withoutReturns g, false) := by
    rw [strip_append hcode, stripFrom_blanks hkept]
    intro _ c hc
    have hblank := hkept c (List.mem_of_mem_head? hc)
    constructor <;> rintro rfl <;> exact absurd hblank (by decide)
  rw [code_of_not_mem (by simp [hline, hone]), code_of_not_mem hline, hread]
  exact ⟨codeOf_congr (trim_append_blanks hkept _), rfl⟩

/-- **A line break** with blanks around it breaks the line. -/
theorem code_append_lineBreak {g : List Char} (hg : ∀ c ∈ g, isBlank c = true) (hmany : '\n' ∈ g)
    (w : List Char) : code b (v ++ g ++ w) = code b v ++ code false w := by
  obtain ⟨y, z, rfl, hy⟩ := List.eq_append_cons_of_mem hmany
  have hyblank : ∀ c ∈ y, isBlank c = true := fun c hc => hg c (by simp [hc])
  have hzblank : ∀ c ∈ z, isBlank c = true := fun c hc => hg c (by simp [hc])
  obtain ⟨hsame, hclosed⟩ := code_append_blanks hcode hline hyblank hy
  have hopen : commentAfter b (physicalLines (v ++ y)) = false := by
    rw [physicalLines_of_not_mem (by simp [hline, hy])]
    exact hclosed
  have hsplit : v ++ (y ++ '\n' :: z) ++ w = v ++ y ++ '\n' :: (z ++ w) := by simp
  rw [hsplit, (code_append b _ _).1, hopen, hsame, code_blanks hzblank]

/-- **A line can be broken at a space** between two characters that the scanner leaves. -/
theorem code_append_space {c d : Char} {w : List Char} (hlast : (strip b v).1.getLast? = some c)
    (hc : isBlank c = false) (hd : isBlank d = false)
    (hopens : opensComment (withoutReturns (d :: w)) = false) :
    code b (v ++ ' ' :: d :: w) = code b v ++ code false (d :: w) := by
  cases hlines : physicalLines w with
  | nil => exact absurd hlines (physicalLines_ne_nil w)
  | cons l ls =>
    have hkept : withoutReturns (d :: l) = d :: withoutReturns l := by
      refine withoutReturns_cons ?_ l
      rintro rfl
      exact absurd hd (by decide)
    have hone : '\n' ∉ [d] := by
      intro hmem
      obtain rfl := List.mem_singleton.1 hmem
      exact absurd hd (by decide)
    have hbehind : physicalLines (d :: w) = (d :: l) :: ls :=
      physicalLines_append_of_not_mem hone hlines
    have hboth : physicalLines (v ++ ' ' :: d :: w) = (v ++ ' ' :: d :: l) :: ls := by
      have hfront : '\n' ∉ v ++ [' '] := by simp [hline]
      have hjoined := physicalLines_append_of_not_mem hfront hbehind
      rwa [List.append_assoc, List.append_assoc] at hjoined
    have hopens : opensComment (d :: withoutReturns l) = false := by
      rw [← hkept]
      exact opensComment_of_prefix ((prefix_of_physicalLines hbehind).filter _) hopens
    -- What the scanner leaves of the rest of the line does not depend on what stands in front.
    have hrest := stripFrom_of_not_opensComment hopens
    have hstart : lineStart false = .code := rfl
    have hread : strip b (v ++ ' ' :: d :: l) =
        ((strip b v).1 ++ ' ' :: (strip false (d :: l)).1, (strip false (d :: l)).2) := by
      have hspace : withoutReturns (' ' :: d :: l) = ' ' :: withoutReturns (d :: l) := rfl
      rw [strip_append hcode (hspace ▸ Apart.of_head (by decide) _ _), hspace,
        stripFrom_code_cons (by decide), strip_eq false, hkept, hstart, hrest, hrest]
    have hcodeOf : codeOf ((strip b v).1 ++ ' ' :: (strip false (d :: l)).1) =
        codeOf (strip b v).1 ++ codeOf (strip false (d :: l)).1 := by
      rw [strip_eq false, hkept, hstart, hrest]
      exact codeOf_space hlast hc hd
    rw [code_of_physicalLines hboth, code_of_physicalLines hbehind, code_of_not_mem hline, hread,
      hcodeOf, List.append_assoc]

end Breaks

/-! ### Texts that are laid out in another way -/

/-- A place is **between code** if the scanner leaves the characters in front of it and behind it,
and they are no blanks. The one in front does not close a comment, and the one behind opens none. -/
structure BetweenCode (u w : List Char) : Prop where
  outside : inside u = some .code
  front : ∃ v c, u = v ++ [c] ∧ isBlank c = false ∧ inside v ≠ some .comment
  behind : ∃ c v, w = c :: v ∧ isBlank c = false
  unopened : opensComment (withoutReturns w) = false

/-- A text is **relaid** as another one by a comment or a line break that is put into it where the
scanner is in code. -/
inductive Relaid : List Char → List Char → Prop
  /-- A line comment is put, behind a space, at the end of a physical line. -/
  | lineComment {u w o x : List Char} (hcode : inside u = some .code) (hend : EndsTheLine w)
    (ho : o = ['/', '/'] ∨ o = ['#']) (hx : '\n' ∉ x) :
    Relaid (u ++ w) (u ++ (' ' :: (o ++ x)) ++ w)
  /-- A block comment is put behind a space, a tab or a line feed. It may go over several physical
  lines if nothing but blanks stands in front of it on its line, or if it stands behind a single
  space between two characters of code. -/
  | blockComment {u w x : List Char} (hcode : inside u = some .code)
    (hblank : ∀ c ∈ u.getLast?, c = ' ' ∨ c = '\t' ∨ c = '\n') (hx : IsBody x)
    (hmany : '\n' ∈ x → (∀ c ∈ lastLine u, isBlank c = true) ∨
      ∃ v, u = v ++ [' '] ∧ BetweenCode v w) :
    Relaid (u ++ w) (u ++ '/' :: '*' :: (x ++ ['*', '/']) ++ w)
  /-- A single space between two characters of code is replaced by a line break and the blanks
  around that. -/
  | lineBreak {u w g : List Char} (h : BetweenCode u w) (hg : ∀ c ∈ g, isBlank c = true)
    (hmany : '\n' ∈ g) : Relaid (u ++ ' ' :: w) (u ++ g ++ w)

/-- At a space between two characters of code, the last physical line can be broken. -/
theorem BetweenCode.code_append {u w : List Char} (h : BetweenCode u w) :
    code (commentBefore u) (lastLine u ++ ' ' :: w) =
      code (commentBefore u) (lastLine u) ++ code false w := by
  obtain ⟨v, c, rfl, hc, hv⟩ := h.front
  obtain ⟨d, w, rfl, hd⟩ := h.behind
  have hvisible : c ≠ '\n' ∧ c ≠ '\r' := by
    constructor <;> rintro rfl <;> exact absurd hc (by decide)
  obtain ⟨hline, hcomment⟩ := lastLine_concat hvisible.1 v
  have hkept : withoutReturns (lastLine v ++ [c]) = withoutReturns (lastLine v) ++ [c] := by
    rw [withoutReturns_append, withoutReturns_cons hvisible.2]
    rfl
  have hcode := h.outside
  rw [inside, hline, hcomment] at hcode
  rw [hline, hcomment]
  refine code_append_space hcode ?_ ?_ hc hd h.unopened
  · simp [not_mem_lastLine, hvisible.1.symm]
  · rw [hkept] at hcode
    rw [strip_eq, hkept]
    exact getLast?_stripFrom hcode (fun hin => absurd hin hv) false

/-- Relaid texts have the same lines. -/
theorem Relaid.lines_eq {s t : List Char} (h : Relaid s t) : lines t = lines s := by
  cases h with
  | @lineComment u w o x hcode hend ho hx =>
    rw [List.append_assoc]
    refine lines_congr ?_
    rw [← List.append_assoc]
    exact code_append_lineComment (not_mem_lastLine u) hcode ho hx hend
  | @blockComment u w x hcode hblank hx hmany =>
    have hline := not_mem_lastLine u
    have hlast : ∀ c ∈ (lastLine u).getLast?, c = ' ' ∨ c = '\t' := by
      intro c hc
      obtain ⟨p, hp⟩ := (lastLine_spec u).2.1
      have hmem : c ∈ u.getLast? := by
        rw [← hp, List.getLast?_append, Option.mem_def.1 hc]
        rfl
      rcases hblank c hmem with rfl | rfl | rfl
      · exact Or.inl rfl
      · exact Or.inr rfl
      · exact absurd (List.mem_of_getLast? hc) hline
    rw [List.append_assoc]
    refine lines_congr ?_
    rw [← List.append_assoc]
    by_cases hbreak : '\n' ∈ x
    · rw [code_append_broken hline hcode hlast hx hbreak]
      rcases hmany hbreak with hstart | ⟨v, rfl, hv⟩
      · exact (code_append_of_blanks hcode hstart w).symm
      · -- The space in front of the comment ends its line now, so it is trimmed there.
        obtain ⟨hspace, hcomment⟩ := lastLine_concat (c := ' ') (by decide) v
        have htrim := code_append_blanks (g := [' ']) hv.outside (not_mem_lastLine v) (by decide)
          (by decide)
        rw [hspace, hcomment, htrim.1, ← hv.code_append, List.append_assoc]
        rfl
    · exact code_append_comment hline hcode hlast hx hbreak
  | @lineBreak u w g h hg hmany =>
    rw [List.append_assoc]
    refine lines_congr ?_
    rw [h.code_append, ← List.append_assoc]
    exact code_append_lineBreak h.outside (not_mem_lastLine u) hg hmany w

/-- **Comments and line breaks do not matter**: however a text is relaid, it has the same logical
lines. -/
theorem normalize_eq_of_relaid {s t : String} (h : Relaid s.toList t.toList) :
    normalize t = normalize s := by
  rw [normalize, normalize, h.lines_eq]

/-- Two statements. -/
def plainCalls : String :=
  "$t->id();\n $t->char('a', 9);\n"

/-- The same with a line comment, which would open a string and a block. -/
def remarkedCalls : String :=
  "$t->id(); // it's \x7b\n $t->char('a', 9);\n"

/-- The same with a block comment that goes over two physical lines as well. -/
def explainedCalls : String :=
  "$t->id(); // it's \x7b\n /* a\n; */$t->char('a', 9);\n"

/-- The same with a line break in the second statement as well. -/
def brokenCalls : String :=
  "$t->id(); // it's \x7b\n /* a\n; */$t->char('a',\n  9);\n"

/-- A text that is relaid three times has its lines all the same. -/
theorem normalize_eq_of_relaid_calls :
    Relaid plainCalls.toList remarkedCalls.toList ∧
      Relaid remarkedCalls.toList explainedCalls.toList ∧
      Relaid explainedCalls.toList brokenCalls.toList ∧
      normalize brokenCalls = normalize plainCalls ∧
      normalize plainCalls = ["$t->id();", "$t->char('a', 9);"] := by
  have hrelaid : ∀ {a b : List Char} {s t : String}, Relaid a b → s.toList = a → t.toList = b →
      Relaid s.toList t.toList := fun h hs ht => hs ▸ ht ▸ h
  have hremarked : Relaid plainCalls.toList remarkedCalls.toList :=
    hrelaid
      (.lineComment (u := "$t->id();".toList) (w := "\n $t->char('a', 9);\n".toList)
        (x := " it's \x7b".toList) (by decide +kernel) (by decide +kernel) (Or.inl rfl) (by decide))
      (by decide +kernel) (by decide +kernel)
  have hlast : "$t->id(); // it's \x7b\n ".toList.getLast? = some ' ' := by decide +kernel
  have hexplained : Relaid remarkedCalls.toList explainedCalls.toList :=
    hrelaid
      (.blockComment (u := "$t->id(); // it's \x7b\n ".toList) (w := "$t->char('a', 9);\n".toList)
        (x := " a\n; ".toList) (by decide +kernel)
        (fun c hc => Or.inl (Option.some.inj ((Option.mem_def.1 hc).symm.trans hlast)))
        (by decide +kernel) fun _ => Or.inl (by decide +kernel))
      (by decide +kernel) (by decide +kernel)
  have hspace : BetweenCode ("$t->id(); // it's \x7b\n /* a\n; */$t->char('a'".toList ++ [','])
      ('9' :: ");\n".toList) :=
    ⟨by decide +kernel, ⟨_, ',', rfl, by decide, by decide +kernel⟩, ⟨'9', _, rfl, by decide⟩,
      by decide +kernel⟩
  have hbroken : Relaid explainedCalls.toList brokenCalls.toList :=
    hrelaid (.lineBreak hspace (g := "\n  ".toList) (by decide) (by decide))
      (by decide +kernel) (by decide +kernel)
  refine ⟨hremarked, hexplained, hbroken, ?_, by decide +kernel⟩
  rw [normalize_eq_of_relaid hbroken, normalize_eq_of_relaid hexplained,
    normalize_eq_of_relaid hremarked]

end SchemaHistory.Source

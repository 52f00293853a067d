import SchemaHistory.Proofs.CapturedText

/-!
# Chains are read as they are written

A chain of calls is written as `$v->n1(a, b)->n2(c);`, with arguments that are trees: strings of any
content between delimiters of any kind, numbers, words, and arrays of such
(`SchemaHistory.WrittenChain`). Reading the line gives this chain again, with the text of the
arguments of each call (`SchemaHistory.WrittenChain.ofVariable?_text`).

What the reader needs to know about the text of an argument does not depend on how it was built, and
is collected in one structure (`SchemaHistory.Writes`); likewise for the text of arguments in a row
(`SchemaHistory.Lists`). Strings may hold brackets, commas and arrows, but each is one token. So the
commas outside of brackets are those between arguments: an argument has none at depth zero, and a row
has none at any other depth, where it stands inside of an array.
-/

namespace SchemaHistory

open Source Text

/-! ### Escapes -/

/-- The characters that **delimit** strings. -/
inductive Delimiter
  | single
  | double
  | backtick
  deriving DecidableEq

def Delimiter.char : Delimiter → Char
  | single => '\''
  | double => '"'
  | backtick => '\x60'

theorem Delimiter.isQuote_char (q : Delimiter) : isQuote q.char = true := by
  cases q <;> decide

namespace Source

/-- A text with a backslash in front of each backslash and of each delimiter. -/
def escape (q : Char) : List Char → List Char
  | [] => []
  | c :: s => if c = q ∨ c = '\\' then '\\' :: c :: escape q s else c :: escape q s

theorem unescape_escape (q : Char) (s : List Char) : unescape (escape q s) = s := by
  induction s with
  | nil => rfl
  | cons c s ih =>
    rw [escape]
    split
    · rw [unescape, ih]
    · rename_i hc
      rw [not_or] at hc
      rw [unescape, ih]
      · exact fun h => absurd h hc.2
      · exact fun _ _ h => absurd h hc.2

section

variable {q : Char} (hq : isQuote q = true)
include hq

/-- The delimiter behind an escaped text is the first that closes. -/
theorem untilClosed_escape (s t : List Char) :
    untilClosed q (escape q s ++ q :: t) = (escape q s ++ [q], t) := by
  induction s with
  | nil => exact untilClosed_self hq t
  | cons c s ih =>
    rw [escape]
    split
    · rw [List.cons_append, List.cons_append, untilClosed, ih]
      rfl
    · rename_i hc
      rw [not_or] at hc
      rw [List.cons_append, untilClosed, if_neg hc.1, ih]
      · rfl
      · exact fun _ _ h => absurd h hc.2

theorem regionAfter_escape (s t : List Char) :
    regionAfter (.quoted q) (escape q s ++ q :: t) = regionAfter .code t := by
  induction s with
  | nil =>
    have hne : q ≠ '\\' := by
      rintro rfl
      exact absurd hq (by decide)
    rw [escape, List.nil_append, regionAfter, if_pos rfl]
    exact fun _ _ h => absurd h hne
  | cons c s ih =>
    rw [escape]
    split
    · rw [List.cons_append, List.cons_append, regionAfter, ih]
    · rename_i hc
      rw [not_or] at hc
      rw [List.cons_append, regionAfter, if_neg hc.1, ih]
      exact fun _ _ h => absurd h hc.2

end

end Source

/-! ### Texts of arguments -/

/-- A text is **whole** if it is read in the same way wherever it stands: it has a beginning and an
end, its strings are closed, and its brackets are level. -/
structure Whole (s : List Char) : Prop where
  nonempty : s ≠ []
  starts : ∀ c ∈ s.head?, isBlank c = false
  tight : Tight s
  sealed : Sealed s
  level : Level (kinds s)

/-- A text **writes** an argument if it is read as this argument, and has no comma outside of
brackets. -/
structure Writes (s : List Char) (a : Argument) : Prop extends Whole s where
  noComma : ∀ d, NoComma d (kinds s)
  argument : Argument.ofTokens (tokens s) = a

/-- A text **lists** arguments if they are what its pieces between commas are read as. Inside of
brackets it has no comma that is outside of them. -/
structure Lists (s : List Char) (args : List Argument) : Prop extends Whole s where
  noComma : ∀ d, NoComma (d + 1) (kinds s)
  nonempties : ∀ p ∈ pieces 0 (tokens s), p ≠ []
  arguments : (pieces 0 (tokens s)).map Argument.ofTokens = args

namespace Source

theorem NoComma.append {d : Nat} {ks js : List Kind} (hk : NoComma d ks)
    (hj : NoComma (depthOf d ks) js) : NoComma d (ks ++ js) := by
  induction ks generalizing d with
  | nil => exact hj
  | cons k ks ih => exact ⟨hk.1, ih hk.2 hj⟩

theorem noComma_of_not_mem {d : Nat} {ks : List Kind} (h : .comma ∉ ks) : NoComma d ks := by
  induction ks generalizing d with
  | nil => trivial
  | cons k ks ih =>
    rw [List.mem_cons, not_or] at h
    exact ⟨fun hk => h.1 hk.1.symm, ih h.2⟩

end Source

namespace Whole

variable {s t : List Char}

theorem tokens_ne_nil (h : Whole s) : tokens s ≠ [] := by
  intro hnil
  have hsource := h.tight.sourceText_tokens
  rw [hnil] at hsource
  exact h.nonempty hsource.symm

theorem trim_sourceText (h : Whole s) : trim (sourceText (tokens s)) = s := by
  rw [h.tight.sourceText_tokens, trim_of_tight h.starts h.tight]

/-- The tokens of two texts with a comma and a space between them. -/
theorem tokens_comma (hs : Whole s) (ht : Whole t) :
    tokens (s ++ ',' :: ' ' :: t) = tokens s ++ ⟨[], ⟨.comma, [',']⟩⟩ :: regap [' '] (tokens t) := by
  have hcomma : tokens (',' :: ' ' :: t) = ⟨[], ⟨.comma, [',']⟩⟩ :: tokens ([' '] ++ t) :=
    tokens_cons rfl (by decide)
  rw [hs.sealed.tokens_append_stop hs.tight (by decide), hcomma,
    tokens_append_gap (by decide) ht.starts]

theorem kinds_comma (hs : Whole s) (ht : Whole t) :
    kinds (s ++ ',' :: ' ' :: t) = kinds s ++ .comma :: kinds t := by
  rw [kinds, hs.tokens_comma ht, List.map_append, List.map_cons, map_kind_regap]
  rfl

theorem comma (hs : Whole s) (ht : Whole t) : Whole (s ++ ',' :: ' ' :: t) where
  nonempty := by simp
  starts := by
    obtain ⟨c, u, rfl⟩ := List.exists_cons_of_ne_nil hs.nonempty
    exact hs.starts
  tight := by
    have hsplit : s ++ ',' :: ' ' :: t = (s ++ [',', ' ']) ++ t := by simp
    rw [hsplit]
    exact ht.tight.append_left ht.nonempty _
  sealed :=
    hs.sealed.append ((Sealed.cons_iff (by decide)).2 ((Sealed.cons_iff (by decide)).2 ht.sealed))
      (by simp)
  level := by
    rw [hs.kinds_comma ht]
    exact hs.level.append (ht.level.cons rfl rfl)

end Whole

/-! ### Arrays -/

/-- The tokens of an array. -/
theorem Source.tokens_brackets {s : List Char} (hsealed : Sealed s) (htight : Tight s) :
    tokens ('[' :: (s ++ [']'])) =
      ⟨[], ⟨.openBracket, ['[']⟩⟩ :: (tokens s ++ [⟨[], ⟨.closeBracket, [']']⟩⟩]) := by
  have hopen : tokens ('[' :: (s ++ [']'])) = ⟨[], ⟨.openBracket, ['[']⟩⟩ :: tokens (s ++ [']']) :=
    tokens_cons rfl (by decide)
  have hclose : tokens [']'] = ⟨[], ⟨.closeBracket, [']']⟩⟩ :: tokens [] :=
    tokens_cons rfl (by decide)
  rw [hopen, hsealed.tokens_append_stop htight (by decide), hclose, tokens_nil]

/-- The argument that an array writes. -/
theorem Argument.ofTokens_brackets {o c : Token} (ho : o.kind = .openBracket)
    (hc : c.kind = .closeBracket) (ts : List Token) :
    ofTokens (o :: (ts ++ [c])) =
      .array (((pieces 0 ts).filter (!·.isEmpty)).map ofTokens) := by
  cases ts with
  | nil =>
    rw [List.nil_append, ofTokens, if_pos ⟨ho, hc⟩]
    rfl
  | cons t ts =>
    have hlast : ((t :: (ts ++ [c])).getLast (List.cons_ne_nil _ _)).kind = .closeBracket := by
      simp [hc]
    have hdrop : (t :: (ts ++ [c])).dropLast = t :: ts := by
      rw [← List.cons_append, List.dropLast_concat]
    rw [List.cons_append, ofTokens, if_pos ⟨ho, hlast⟩, hdrop, List.attach_map_val]

/-- **What stands between brackets makes up an array.** -/
theorem writes_brackets {s : List Char} {args : List Argument} (hsealed : Sealed s)
    (htight : Tight s) (hlevel : Level (kinds s)) (hcomma : ∀ d, NoComma (d + 1) (kinds s))
    (hargs : ((pieces 0 (tokens s)).filter (!·.isEmpty)).map Argument.ofTokens = args) :
    Writes ('[' :: (s ++ [']'])) (.array args) := by
  have htokens := tokens_brackets hsealed htight
  have hkinds : kinds ('[' :: (s ++ [']'])) = .openBracket :: (kinds s ++ [.closeBracket]) := by
    rw [kinds, htokens, List.map_cons, List.map_append]
    rfl
  refine ⟨⟨List.cons_ne_nil _ _, ?_, ?_, ?_, ?_⟩, fun d => ?_, ?_⟩
  · intro c hc
    obtain rfl : '[' = c := by simpa using hc
    decide
  · intro c hc
    rw [← List.cons_append, List.getLast?_concat] at hc
    obtain rfl : ']' = c := by simpa using hc
    decide
  · exact (Sealed.cons_iff (by decide)).2 (hsealed.append (by decide) (by simp))
  · rw [hkinds]
    exact hlevel.brackets
  · rw [hkinds]
    exact ⟨fun h => Kind.noConfusion h.1, (hcomma d).append ⟨fun h => Kind.noConfusion h.1, trivial⟩⟩
  · rw [htokens, Argument.ofTokens_brackets rfl rfl, hargs]

namespace Writes

variable {s t : List Char} {a : Argument}

/-- Nothing follows an argument that stands by itself. -/
theorem afterComma?_eq_none (h : Writes s a) : afterComma? 0 (tokens s) = none := by
  have happend := (h.noComma 0).afterComma?_append []
  rwa [List.append_nil, afterComma?] at happend

/-- What follows an argument is what stands behind the comma. -/
theorem afterComma?_comma (hs : Writes s a) (ht : Whole t) :
    (afterComma? 0 (tokens (s ++ ',' :: ' ' :: t))).map (fun ts => trim (sourceText ts)) =
      some t := by
  have hcomma : afterComma? 0 (tokens (s ++ ',' :: ' ' :: t)) = some (regap [' '] (tokens t)) := by
    have hdepth : depthOf 0 ((tokens s).map Token.kind) = 0 := hs.level.depth 0
    rw [hs.tokens_comma ht, (hs.noComma 0).afterComma?_append, hdepth]
    rfl
  rw [hcomma, Option.map_some, ← tokens_append_gap (by decide) ht.starts,
    (ht.tight.append_left ht.nonempty [' ']).sourceText_tokens, trim_append (by decide),
    trim_of_tight ht.starts ht.tight]

end Writes

namespace Lists

variable {s : List Char} {args : List Argument}

/-- Arguments in a row are what a call takes. -/
theorem listOfTokens_eq (h : Lists s args) : Argument.listOfTokens (tokens s) = args := by
  have hlast : ((pieces 0 (tokens s)).getLast?.getD []).isEmpty = false := by
    have hsome := List.getLast?_eq_some_getLast (pieces_ne_nil 0 (tokens s))
    rw [hsome, Option.getD_some, List.isEmpty_eq_false_iff]
    exact h.nonempties _ (List.getLast_mem _)
  rw [Argument.listOfTokens, hlast]
  exact h.arguments

/-- An argument by itself. -/
theorem of_writes {a : Argument} (h : Writes s a) : Lists s [a] := by
  have hpieces : pieces 0 (tokens s) = [tokens s] := (h.noComma 0).pieces_eq
  refine ⟨h.toWhole, fun d => h.noComma (d + 1), ?_, ?_⟩
  · rw [hpieces]
    simpa using h.tokens_ne_nil
  · rw [hpieces, List.map_singleton, h.argument]

/-- An argument in front of others. -/
theorem cons {t : List Char} {a : Argument} (hs : Writes s a) (ht : Lists t args) :
    Lists (s ++ ',' :: ' ' :: t) (a :: args) := by
  have hpieces : pieces 0 (tokens (s ++ ',' :: ' ' :: t)) =
      tokens s :: (pieces 0 (tokens t)).modifyHead (regap [' ']) := by
    rw [hs.tokens_comma ht.toWhole, (hs.noComma 0).pieces_comma (hs.level.depth 0) rfl,
      pieces_regap]
  refine ⟨hs.toWhole.comma ht.toWhole, fun d => ?_, ?_, ?_⟩
  · rw [hs.kinds_comma ht.toWhole]
    refine (hs.noComma (d + 1)).append ?_
    rw [hs.level.depth]
    exact ⟨fun h => absurd h.2 (Nat.succ_ne_zero d), ht.noComma d⟩
  · have hne := ht.nonempties
    rw [hpieces]
    cases hrest : pieces 0 (tokens t) with
    | nil => simpa using hs.tokens_ne_nil
    | cons p ps =>
      rw [hrest] at hne
      simpa [hs.tokens_ne_nil] using hne
  · rw [hpieces, List.map_cons, hs.argument, Argument.map_ofTokens_modifyHead, ht.arguments]

/-- **Arguments in a row make up an array** between brackets. -/
theorem brackets (h : Lists s args) : Writes ('[' :: (s ++ [']'])) (.array args) := by
  refine writes_brackets h.sealed h.tight h.level h.noComma ?_
  rw [List.filter_eq_self.2 fun p hp => by simpa using h.nonempties p hp, h.arguments]

end Lists

theorem writes_emptyArray : Writes ['[', ']'] (.array []) := by
  refine writes_brackets (s := []) .nil (by simp [Tight]) ?_ (fun d => ?_) ?_
  · rw [kinds_nil]
    exact .nil
  · rw [kinds_nil]
    trivial
  · rw [tokens_nil]
    rfl

/-! ### Strings, numbers and words -/

/-- **A string writes its content**, whatever that is. -/
theorem writes_string (q : Delimiter) (s : List Char) :
    Writes (q.char :: (escape q.char s ++ [q.char])) (.string (String.ofList s)) := by
  have hquote := q.isQuote_char
  have hfirst : Lexeme.startingWith q.char (escape q.char s ++ [q.char]) =
      (⟨.quoted, q.char :: (escape q.char s ++ [q.char])⟩, []) := by
    have hstart : ∀ u, Lexeme.startingWith q.char u =
        (⟨.quoted, q.char :: (untilClosed q.char u).1⟩, (untilClosed q.char u).2) := by
      cases q <;> exact fun _ => rfl
    rw [hstart, untilClosed_escape hquote]
  have htokens : tokens (q.char :: (escape q.char s ++ [q.char])) =
      [⟨[], ⟨.quoted, q.char :: (escape q.char s ++ [q.char])⟩⟩] := by
    rw [tokens_cons hfirst (by simp), tokens_nil]
  have hkinds : kinds (q.char :: (escape q.char s ++ [q.char])) = [.quoted] := by
    rw [kinds, htokens]
    rfl
  refine ⟨⟨List.cons_ne_nil _ _, fun c hc => ?_, fun c hc => ?_, ?_, ?_⟩, fun d => ?_, ?_⟩
  · obtain rfl : q.char = c := by simpa using hc
    exact isBlank_of_isQuote hquote
  · rw [← List.cons_append, List.getLast?_concat] at hc
    obtain rfl : q.char = c := by simpa using hc
    exact isBlank_of_isQuote hquote
  · rw [Sealed, regionAfter_quote _ hquote, regionAfter_escape hquote]
    rfl
  · rw [hkinds]
    exact .cons rfl rfl .nil
  · rw [hkinds]
    exact noComma_of_not_mem (by decide)
  · have hkind : (⟨[], ⟨.quoted, q.char :: (escape q.char s ++ [q.char])⟩⟩ : Token).kind = .quoted :=
      rfl
    have hascii : ¬0x80 ≤ q.char.toNat := by cases q <;> decide
    have hcontent : (⟨.quoted, q.char :: (escape q.char s ++ [q.char])⟩ : Lexeme).content = s := by
      simp [Lexeme.content, hascii, unescape_escape]
    rw [htokens, Argument.ofTokens, if_pos hkind, hcontent]

/-- Characters that neither delimit nor separate anything make up whole texts. -/
theorem whole_of_chars {s : List Char} (hne : s ≠ [])
    (h : ∀ c ∈ s, isInert c = true ∧ isBlank c = false) (hlevel : Level (kinds s)) : Whole s where
  nonempty := hne
  starts c hc := (h c (List.mem_of_mem_head? hc)).2
  tight c hc := (h c (List.mem_of_getLast? hc)).2
  sealed := by
    have hsealed := (Sealed.append_iff (s := []) fun c hc => (h c hc).1).2 .nil
    rwa [List.append_nil] at hsealed
  level := hlevel

/-- The texts of numbers and words. -/
inductive IsBare : List Char → Prop
  /-- A word. -/
  | word {w : List Char} (hw : isName w = true) : IsBare w
  /-- A number. -/
  | number {c : Char} {s : List Char} (hc : isDigit c = true)
    (hs : ∀ d ∈ s, isNumberPart d = true) : IsBare (c :: s)
  /-- A number with a sign. -/
  | signed {sign c : Char} {s : List Char} (hsign : sign = '-' ∨ sign = '+')
    (hc : isDigit c = true) (hs : ∀ d ∈ s, isNumberPart d = true) : IsBare (sign :: c :: s)

namespace IsBare

variable {s : List Char}

theorem tokens_eq (h : IsBare s) :
    tokens s = [⟨[], ⟨.word, s⟩⟩] ∨ tokens s = [⟨[], ⟨.number, s⟩⟩] ∨
      ∃ c u, s = c :: u ∧ tokens s = [⟨[], ⟨.other, [c]⟩⟩, ⟨[], ⟨.number, u⟩⟩] := by
  have hnumber : ∀ {c u}, isDigit c = true → (∀ d ∈ u, isNumberPart d = true) →
      tokens (c :: u) = [⟨[], ⟨.number, c :: u⟩⟩] := by
    intro c u hc hu
    have hlexemes := lexemes_number hc hu (t := []) (by simp)
    rw [List.append_nil] at hlexemes
    rw [tokens_of_lexemes hlexemes (by simp), tokens_nil]
  cases h with
  | word hw =>
    have hlexemes := lexemes_name hw (s := []) (by simp)
    rw [List.append_nil] at hlexemes
    left
    rw [tokens_of_lexemes hlexemes (by simp), tokens_nil]
  | number hc hs => exact Or.inr (Or.inl (hnumber hc hs))
  | signed hsign hc hs =>
    refine Or.inr (Or.inr ⟨_, _, rfl, ?_⟩)
    rw [tokens_of_lexemes (lexemes_sign hsign hc _) (by simp), hnumber hc hs]

theorem class_of_mem (h : IsBare s) : ∀ c ∈ s, isInert c = true ∧ isBlank c = false := by
  have hnumber : ∀ c, isNumberPart c = true → isInert c = true ∧ isBlank c = false :=
    fun c hc => ⟨isInert_of_isNumberPart hc, isBlank_of_isNumberPart hc⟩
  have hdigit : ∀ c, isDigit c = true → isInert c = true ∧ isBlank c = false :=
    fun c hc => hnumber c (by simp [isNumberPart, hc])
  cases h with
  | word hw =>
    intro c hc
    have hpart := isWordPart_of_isName hw c hc
    exact ⟨isInert_of_isWordPart hpart, isBlank_of_isWordPart hpart⟩
  | number hc hs => exact List.forall_mem_cons.2 ⟨hdigit _ hc, fun d hd => hnumber d (hs d hd)⟩
  | signed hsign hc hs =>
    refine List.forall_mem_cons.2 ⟨?_, List.forall_mem_cons.2 ⟨hdigit _ hc, fun d hd =>
      hnumber d (hs d hd)⟩⟩
    rcases hsign with rfl | rfl <;> decide

theorem ne_nil (h : IsBare s) : s ≠ [] := by
  cases h with
  | word hw =>
    rintro rfl
    exact absurd hw (by decide)
  | number => exact List.cons_ne_nil _ _
  | signed => exact List.cons_ne_nil _ _

/-- **A number or a word writes itself.** -/
theorem writes (h : IsBare s) : Writes s (.raw (String.ofList s)) := by
  have hkinds : kinds s = [.word] ∨ kinds s = [.number] ∨ kinds s = [.other, .number] := by
    rw [kinds]
    rcases h.tokens_eq with htokens | htokens | ⟨c, u, -, htokens⟩ <;> rw [htokens]
    exacts [Or.inl rfl, Or.inr (Or.inl rfl), Or.inr (Or.inr rfl)]
  have hlevel : Level (kinds s) := by
    rcases hkinds with hkinds | hkinds | hkinds <;> rw [hkinds]
    exacts [.cons rfl rfl .nil, .cons rfl rfl .nil, .cons rfl rfl (.cons rfl rfl .nil)]
  have hcomma : .comma ∉ kinds s := by
    rcases hkinds with hkinds | hkinds | hkinds <;> rw [hkinds] <;> decide
  refine ⟨whole_of_chars h.ne_nil h.class_of_mem hlevel, fun d => noComma_of_not_mem hcomma, ?_⟩
  rcases h.tokens_eq with htokens | htokens | ⟨c, u, rfl, htokens⟩ <;> rw [htokens]
  · rw [Argument.ofTokens, if_neg Kind.noConfusion]
    rfl
  · rw [Argument.ofTokens, if_neg Kind.noConfusion]
    rfl
  · rw [Argument.ofTokens, if_neg fun h => Kind.noConfusion h.1]
    simp [textFromFirst, sourceText, Token.text]

end IsBare

/-! ### Trees of arguments -/

/-- An argument as it is **written**. -/
inductive WrittenArgument
  /-- A string of any content. -/
  | string (q : Delimiter) (content : List Char)
  /-- A number or a word. -/
  | bare (text : List Char) (h : IsBare text)
  /-- An array. -/
  | array (items : List WrittenArgument)

namespace WrittenArgument

mutual

/-- The text of an argument. -/
def text : WrittenArgument → List Char
  | string q content => q.char :: (escape q.char content ++ [q.char])
  | bare s _ => s
  | array items => '[' :: (rowText items ++ [']'])

/-- The text of arguments in a row. -/
def rowText : List WrittenArgument → List Char
  | [] => []
  | [a] => text a
  | a :: b :: rest => text a ++ ',' :: ' ' :: rowText (b :: rest)

end

mutual

/-- The argument that is meant. -/
def argument : WrittenArgument → Argument
  | string _ content => .string (String.ofList content)
  | bare s _ => .raw (String.ofList s)
  | array items => .array (arguments items)

/-- The arguments that are meant by a row. -/
def arguments : List WrittenArgument → List Argument
  | [] => []
  | a :: rest => argument a :: arguments rest

end

mutual

/-- **Every argument is written by its text.** -/
theorem writes : (a : WrittenArgument) → Writes a.text a.argument
  | string q content => writes_string q content
  | bare _ h => h.writes
  | array [] => writes_emptyArray
  | array (a :: rest) => (lists (a :: rest) (List.cons_ne_nil a rest)).brackets

/-- **Arguments in a row are listed by their text**, if there are any. -/
theorem lists : (row : List WrittenArgument) → row ≠ [] → Lists (rowText row) (arguments row)
  | [], h => absurd rfl h
  | [a], _ => .of_writes (writes a)
  | a :: b :: rest, _ => .cons (writes a) (lists (b :: rest) (List.cons_ne_nil b rest))

end

end WrittenArgument

/-! ### Calls -/

/-- A call as it is **written**. -/
structure WrittenCall where
  name : List Char
  isName_name : isName name = true
  args : List WrittenArgument

namespace WrittenCall

/-- What stands between the parentheses. -/
def inside (w : WrittenCall) : List Char :=
  WrittenArgument.rowText w.args

/-- The text of a call behind its receiver. -/
def text (w : WrittenCall) : List Char :=
  '-' :: '>' :: (w.name ++ '(' :: (w.inside ++ [')']))

/-- The call that is meant, with the text of its arguments, and with that of those after the first
one if there are any. -/
def call (w : WrittenCall) : Call where
  name := String.ofList w.name
  args := WrittenArgument.arguments w.args
  rawArgs := String.ofList w.inside
  trailingArgs :=
    match w.args with
    | _ :: b :: rest => some (String.ofList (WrittenArgument.rowText (b :: rest)))
    | _ => none

/-- What stands between the parentheses is sealed, and has no blank at its end and level brackets. -/
theorem inside_spec (w : WrittenCall) :
    Sealed w.inside ∧ Tight w.inside ∧ Level (kinds w.inside) := by
  rw [inside]
  cases w.args with
  | nil =>
    rw [WrittenArgument.rowText, kinds_nil]
    exact ⟨.nil, by simp [Tight], .nil⟩
  | cons a rest =>
    have h := WrittenArgument.lists (a :: rest) (List.cons_ne_nil a rest)
    exact ⟨h.sealed, h.tight, h.level⟩

/-- The call that is read is the one that is meant. -/
theorem ofTokens_inside (w : WrittenCall) :
    Call.ofTokens (String.ofList w.name) (tokens w.inside) = w.call := by
  obtain ⟨name, hname, args⟩ := w
  cases args with
  | nil =>
    have hnil : tokens (inside ⟨name, hname, []⟩) = [] := tokens_nil
    rw [hnil]
    rfl
  | cons a rest =>
    have h := WrittenArgument.lists (a :: rest) (List.cons_ne_nil a rest)
    rw [inside, Call.ofTokens, h.listOfTokens_eq, h.trim_sourceText]
    cases rest with
    | nil =>
      have hnone : afterComma? 0 (tokens (WrittenArgument.rowText [a])) = none :=
        a.writes.afterComma?_eq_none
      rw [hnone]
      rfl
    | cons b rest =>
      have hrest := WrittenArgument.lists (b :: rest) (List.cons_ne_nil b rest)
      have hsome := a.writes.afterComma?_comma hrest.toWhole
      have hempty : (WrittenArgument.rowText (b :: rest)).isEmpty = false := by
        simpa using hrest.nonempty
      rw [WrittenArgument.rowText, hsome, Option.bind_some, hempty]
      rfl

/-- The tokens of a call are its own, whatever follows it. -/
theorem tokens_append (w : WrittenCall) (s : List Char) :
    tokens (w.text ++ s) =
      callHead w.name ++ (tokens w.inside ++ ⟨[], ⟨.closeParen, [')']⟩⟩ :: tokens s) := by
  obtain ⟨hsealed, htight, -⟩ := w.inside_spec
  have htext : w.text ++ s = '-' :: '>' :: (w.name ++ '(' :: (w.inside ++ ')' :: s)) := by
    simp [text]
  rw [htext, tokens_callHead w.isName_name, hsealed.tokens_append_of_tight htight]

/-- The call that is written first is read first. -/
theorem sequence_append (w : WrittenCall) (s : List Char) :
    Call.sequence (tokens (w.text ++ s)) = w.call :: Call.sequence (tokens s) := by
  rw [w.tokens_append, sequence_of_inside w.inside_spec.2.2.inside rfl, w.ofTokens_inside]

theorem sequence_flatMap (ws : List WrittenCall) (s : List Char) :
    Call.sequence (tokens (ws.flatMap text ++ s)) = ws.map call ++ Call.sequence (tokens s) := by
  induction ws with
  | nil => rfl
  | cons w ws ih =>
    rw [List.flatMap_cons, List.append_assoc, w.sequence_append, ih, List.map_cons, List.cons_append]

end WrittenCall

/-! ### Chains -/

/-- A chain as it is **written**: a variable, and one or more calls on it. -/
structure WrittenChain where
  variableName : List Char
  isVariablePart_variableName : ∀ c ∈ variableName, isVariablePart c = true
  first : WrittenCall
  others : List WrittenCall

namespace WrittenChain

/-- The line that a chain is written on. -/
def text (w : WrittenChain) : List Char :=
  '$' :: (w.variableName ++ ((w.first :: w.others).flatMap WrittenCall.text ++ [';']))

/-- The chain that is meant. -/
def chain (w : WrittenChain) : Chain :=
  ⟨String.ofList ('$' :: w.variableName), (w.first :: w.others).map WrittenCall.call⟩

/-- **A chain is read as it is written**, with all its calls, the trees of their arguments, and the
texts of these. -/
theorem ofVariable?_text (w : WrittenChain) :
    Chained.ofVariable? (tokens w.text) = some (.calls w.chain) := by
  have hend : Call.sequence (tokens [';']) = [] := by
    rw [tokens_cons (l := ⟨.semicolon, [';']⟩) (t := []) rfl (by decide), tokens_nil]
    simp [Call.sequence]
  have hsequence := WrittenCall.sequence_flatMap (w.first :: w.others) [';']
  rw [hend, List.append_nil, List.flatMap_cons, List.append_assoc, w.first.tokens_append]
    at hsequence
  obtain ⟨s, hs⟩ : ∃ s, (w.first :: w.others).flatMap WrittenCall.text ++ [';'] = '-' :: s :=
    ⟨_, rfl⟩
  rw [text, hs, tokens_variable w.isVariablePart_variableName, ← hs, List.flatMap_cons,
    List.append_assoc, w.first.tokens_append, ofVariable?_of_sequence hsequence, chain]
  rfl

/-- A chain with a quote inside of a string, arrays in each other, and a number with a sign. -/
def nestedArrays : WrittenChain where
  variableName := ['t']
  isVariablePart_variableName := by decide
  first := ⟨"enum".toList, by decide, [.string .single "it's".toList,
    .array [.array [], .bare ['-', '1'] (.signed (Or.inl rfl) (by decide) (by decide))]]⟩
  others := [⟨"nullable".toList, by decide, []⟩]

/-- The line of this chain, and what it is read as. -/
theorem ofVariable?_text_nestedArrays :
    nestedArrays.text = "$t->enum('it\\'s', [[], -1])->nullable();".toList ∧
      Chained.ofVariable? (tokens "$t->enum('it\\'s', [[], -1])->nullable();".toList) =
        some (.calls ⟨"$t", [⟨"enum", [.string "it's", .array [.array [], .raw "-1"]],
          "'it\\'s', [[], -1]", some "[[], -1]"⟩, ⟨"nullable", [], "", none⟩]⟩) := by
  have htext : nestedArrays.text = "$t->enum('it\\'s', [[], -1])->nullable();".toList := by decide
  have hread := ofVariable?_text nestedArrays
  rw [htext] at hread
  exact ⟨htext, hread⟩

end WrittenChain

end SchemaHistory

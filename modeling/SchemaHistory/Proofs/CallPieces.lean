import SchemaHistory.Proofs.CapturedText
import SchemaHistory.Proofs.WrittenLines

/-!
# The pieces of a call fit together

A call is kept in pieces: its arguments, as far as they are literals, the text between its
parentheses, and the text behind its first argument. The columns of a table are made of all three,
so they have to tell the same story on every line, whether or not the call is closed
(`SchemaHistory.Call.Coheres`). And the text has to be that of the line: from the opening
parenthesis to the first one that closes outside of brackets, or to the end of the line if there is
none (`SchemaHistory.Source.EndsAtParen`).

The reader looks at tokens and has lost the places by then, so where the calls stand is said of the
lexemes, whose texts make up the line: the calls **stand in a row** behind the receiver
(`SchemaHistory.Call.InRow`), each from its head to the end of its arguments. Blanks are what the
two views disagree on. Between the lexemes they have a place of their own, and with the tokens they
go in front of the next one; trimming makes up for that
(`SchemaHistory.Source.trim_sourceText_tokensAfter`).
-/

namespace SchemaHistory

open Source Text

namespace Source

/-! ### Tokens of a line -/

/-- What every **token of a line** looks like: only blanks stand before it, it starts with none, and
a comma is nothing but a comma. -/
structure Token.Sound (t : Token) : Prop where
  gap : ∀ c ∈ t.gap, isBlank c = true
  starts : ∃ c ∈ t.text.head?, isBlank c = false
  comma : t.kind = .comma → t.text = [',']

/-- A comma is one character long. -/
theorem Lexeme.text_of_comma {c : Char} {s : List Char}
    (h : (startingWith c s).1.kind = .comma) : (startingWith c s).1.text = [','] := by
  rcases manner c with ⟨kind, p, hrun, hstart⟩ | ⟨-, hstart⟩ | hstart
  · rw [hstart] at h
    cases hrun <;> exact Kind.noConfusion h
  · rw [hstart] at h
    exact Kind.noConfusion h
  · rw [hstart] at h ⊢
    unfold mark at h ⊢
    split at h
    · exact Kind.noConfusion h
    · exact Kind.noConfusion h
    · exact Kind.noConfusion h
    · unfold markKind at h
      split at h <;> first | rfl | exact Kind.noConfusion h

theorem sound_of_mem_tokens {s : List Char} {t : Token} (ht : t ∈ tokens s) : t.Sound := by
  obtain ⟨hlexeme, hkind⟩ := lexeme_mem_of_mem_tokens ht
  obtain ⟨c, u, v, hstart, htext⟩ := exists_startingWith hlexeme
  refine ⟨isBlank_gap t ht, ⟨c, ?_, ?_⟩, fun hcomma => ?_⟩
  · rw [Token.text, htext]
    rfl
  · refine Bool.eq_false_iff.2 fun hc => hkind ?_
    have hblank := Lexeme.kind_startingWith_eq_blank_iff (c := c) (s := u)
    rw [hstart] at hblank
    exact hblank.2 hc
  · have hone := Lexeme.text_of_comma (c := c) (s := u)
    rw [hstart] at hone
    exact hone hcomma

/-! ### Blanks -/

/-- **Trimmed, the text of tokens is that of their lexemes.** -/
theorem trim_sourceText_tokensAfter {gap : List Char} {ls : List Lexeme}
    (hls : ∀ l ∈ ls, l.kind = .blank → ∀ c ∈ l.text, isBlank c = true)
    (hgap : ∀ c ∈ gap, isBlank c = true) :
    trim (sourceText (tokensAfter gap ls)) = trim (textOf ls) := by
  obtain ⟨g, hg, htext⟩ := exists_sourceText_append hls hgap
  rw [← trim_append_blanks hg, htext, trim_append hgap]

theorem map_lexeme_tokensAfter (gap : List Char) (ls : List Lexeme) :
    (tokensAfter gap ls).map Token.lexeme = ls.filter (·.kind ≠ .blank) := by
  induction ls generalizing gap with
  | nil => rfl
  | cons l ls ih => by_cases hl : l.kind = .blank <;> simp [tokensAfter, hl, ih]

/-! ### Where arguments end -/

/-- A stretch of lexemes, read at some depth of brackets, **ends at its parenthesis**: no
parenthesis closes at depth zero within it, and the next lexeme is one that does, if there is a next
one. -/
structure EndsAtParen (depth : Nat) (inside behind : List Lexeme) : Prop where
  within : ∀ a p b, inside = a ++ p :: b → p.kind = .closeParen → depthOf depth (a.map (·.kind)) ≠ 0
  next : ∀ p ∈ behind.head?, p.kind = .closeParen ∧ depthOf depth (inside.map (·.kind)) = 0

theorem EndsAtParen.cons {depth : Nat} {l : Lexeme} {inside behind : List Lexeme}
    (hl : ¬(l.kind = .closeParen ∧ depth = 0))
    (h : EndsAtParen (depthAfter depth l.kind) inside behind) :
    EndsAtParen depth (l :: inside) behind where
  within := by
    rintro (_ | ⟨k, a⟩) p b hsplit hp
    · obtain ⟨rfl, -⟩ := List.cons.inj hsplit
      exact fun hd => hl ⟨hp, hd⟩
    · obtain ⟨rfl, hrest⟩ := List.cons.inj hsplit
      exact h.within a p b hrest hp
  next := h.next

/-- **The tokens up to the parenthesis that closes are those of a stretch that ends there.** -/
theorem exists_untilCloseParen_tokensAfter (depth : Nat) (gap : List Char) (ls : List Lexeme) :
    ∃ inside behind, ls = inside ++ behind ∧ EndsAtParen depth inside behind ∧
      untilCloseParen depth (tokensAfter gap ls) =
        (tokensAfter gap inside, tokensAfter [] behind.tail) := by
  induction ls generalizing depth gap with
  | nil => exact ⟨[], [], rfl, ⟨by simp, by simp⟩, rfl⟩
  | cons l ls ih =>
    by_cases hblank : l.kind = .blank
    · obtain ⟨inside, behind, rfl, hends, huntil⟩ := ih depth (gap ++ l.text)
      refine ⟨l :: inside, behind, rfl, .cons (by simp [hblank]) (by rwa [hblank]), ?_⟩
      rw [tokensAfter, if_pos hblank, huntil, tokensAfter, if_pos hblank]
    · have hkind : (⟨gap, l⟩ : Token).kind = l.kind := rfl
      by_cases hclose : l.kind = .closeParen ∧ depth = 0
      · refine ⟨[], l :: ls, rfl, ⟨by simp, fun p hp => ?_⟩, ?_⟩
        · obtain rfl : l = p := by simpa using hp
          exact hclose
        · rw [tokensAfter.eq_2 gap l ls, if_neg hblank, untilCloseParen, hkind, if_pos hclose]
          rfl
      · obtain ⟨inside, behind, rfl, hends, huntil⟩ := ih (depthAfter depth l.kind) []
        refine ⟨l :: inside, behind, rfl, .cons hclose hends, ?_⟩
        rw [tokensAfter, if_neg hblank, untilCloseParen, hkind, if_neg hclose, huntil, tokensAfter,
          if_neg hblank]

/-! ### Pieces and commas -/

theorem pieces_of_afterComma?_eq_none {d : Nat} {ts : List Token} (h : afterComma? d ts = none) :
    pieces d ts = [ts] := by
  induction ts generalizing d with
  | nil => rfl
  | cons t ts ih =>
    rw [afterComma?] at h
    split at h
    · exact absurd h (by simp)
    · rename_i hcomma
      rw [pieces, if_neg hcomma, ih h]

theorem exists_of_afterComma? {d : Nat} {ts us : List Token} (h : afterComma? d ts = some us) :
    ∃ vs t, ts = vs ++ t :: us ∧ t.kind = .comma := by
  induction ts generalizing d with
  | nil => exact absurd h (by simp [afterComma?])
  | cons t ts ih =>
    rw [afterComma?] at h
    split at h
    · rename_i hcomma
      obtain rfl := Option.some.inj h
      exact ⟨[], t, rfl, hcomma.1⟩
    · obtain ⟨vs, u, rfl, hu⟩ := ih h
      exact ⟨t :: vs, u, rfl, hu⟩

end Source

namespace Argument

/-- The arguments are those of the first comma: what stands before it, and the arguments behind it.
Without a comma there is one argument, or none. -/
theorem listOfTokens_of_afterComma?_eq_none {ts : List Token} (h : afterComma? 0 ts = none) :
    listOfTokens ts = if ts = [] then [] else [ofTokens ts] := by
  rw [listOfTokens, pieces_of_afterComma?_eq_none h]
  cases ts <;> rfl

theorem listOfTokens_eq_nil_iff {ts : List Token} : listOfTokens ts = [] ↔ ts = [] := by
  cases hcomma : afterComma? 0 ts with
  | none => rw [listOfTokens_of_afterComma?_eq_none hcomma]; simp
  | some us =>
    obtain ⟨p, hp⟩ := exists_pieces_of_afterComma? hcomma
    obtain ⟨vs, t, rfl, -⟩ := exists_of_afterComma? hcomma
    rw [listOfTokens_eq_cons hp]
    simp

/-- **There are two arguments exactly if something follows the first comma.** -/
theorem two_le_length_listOfTokens_iff {ts : List Token} :
    2 ≤ (listOfTokens ts).length ↔ ∃ us, afterComma? 0 ts = some us ∧ us ≠ [] := by
  cases hcomma : afterComma? 0 ts with
  | none =>
    rw [listOfTokens_of_afterComma?_eq_none hcomma]
    split <;> simp
  | some us =>
    obtain ⟨p, hp⟩ := exists_pieces_of_afterComma? hcomma
    rw [listOfTokens_eq_cons hp, List.length_cons, Nat.succ_le_succ_iff, Nat.one_le_iff_ne_zero,
      ne_eq, List.length_eq_zero_iff, listOfTokens_eq_nil_iff]
    simp

end Argument

namespace Call

/-! ### The pieces of one call -/

/-- Whether the **pieces of a call cohere**. -/
structure Coheres (c : Call) : Prop where
  /-- There are no arguments exactly if there is no text between the parentheses. -/
  args : c.args = [] ↔ c.rawArgs = ""
  /-- There is a text behind the first argument exactly if there is a second one. -/
  trailing : c.trailingArgs.isSome = true ↔ 2 ≤ c.args.length
  /-- This text is trimmed and not empty, it ends the text between the parentheses, and a comma
  stands before it there, with nothing but blanks in between. -/
  suffix : ∀ t, c.trailingArgs = some t → t ≠ "" ∧ trim t.toList = t.toList ∧
    ∃ first, c.rawArgs = first ++ t ∧ (trimEnd first.toList).getLast? = some ','

section

variable {inside : List Token} (h : ∀ t ∈ inside, t.Sound)
include h

theorem trim_sourceText_eq_nil_iff : trim (sourceText inside) = [] ↔ inside = [] := by
  refine ⟨fun htrim => ?_, fun hnil => by rw [hnil]; rfl⟩
  by_contra hne
  obtain ⟨t, ts, rfl⟩ := List.exists_cons_of_ne_nil hne
  obtain ⟨c, hc, hblank⟩ := (h t List.mem_cons_self).starts
  obtain ⟨g, g', hg, hg', htext⟩ := exists_trim_eq (sourceText (t :: ts))
  have hmem : c ∈ sourceText (t :: ts) := by
    simp [sourceText, List.mem_of_mem_head? hc]
  rw [htext, htrim, List.nil_append] at hmem
  have hall := (List.mem_append.1 hmem).elim (hg c) (hg' c)
  exact absurd hall (by simp [hblank])

theorem trimStart_sourceText : trimStart (sourceText inside) = textFromFirst inside := by
  cases inside with
  | nil => rfl
  | cons t ts =>
    obtain ⟨hgap, ⟨c, hc, hblank⟩, -⟩ := h t List.mem_cons_self
    have htext : sourceText (t :: ts) = t.gap ++ textFromFirst (t :: ts) := by
      simp [sourceText, textFromFirst]
    have hhead : ∀ d ∈ (textFromFirst (t :: ts)).head?, isBlank d = false := by
      intro d hd
      rw [textFromFirst, List.head?_append, Option.mem_def.1 hc] at hd
      obtain rfl : c = d := by simpa using hd
      exact hblank
    rw [htext, trimStart_append hgap, trimStart_of_head hhead]

/-- The text behind the first comma is the end of the text between the parentheses. -/
theorem exists_rawArgs_eq {us : List Token} (hus : afterComma? 0 inside = some us) :
    ∃ first, trim (sourceText inside) = first ++ trim (sourceText us) ∧
      (trimEnd first).getLast? = some ',' := by
  obtain ⟨vs, t, rfl, ht⟩ := exists_of_afterComma? hus
  have hcomma := (h t (by simp)).comma ht
  obtain ⟨v, hv⟩ : ∃ v, textFromFirst (vs ++ t :: us) = (v ++ [',']) ++ sourceText us := by
    cases vs with
    | nil => exact ⟨[], by simp [textFromFirst, hcomma]⟩
    | cons u vs =>
      exact ⟨u.text ++ sourceText vs ++ t.gap, by simp [textFromFirst, sourceText, hcomma]⟩
  have htight : Tight (v ++ [',']) := by
    intro c hc
    obtain rfl : ',' = c := by simpa using hc
    decide
  obtain ⟨g, hg, hend⟩ := exists_trimEnd_eq (sourceText us)
  refine ⟨v ++ [','] ++ g, ?_, ?_⟩
  · rw [trim, trimStart_sourceText h, hv, trimEnd_append htight, hend,
      List.append_assoc (v ++ [','])]
  · rw [trimEnd_append_blanks hg, trimEnd_of_tight htight]
    simp

theorem coheres_ofTokens (name : String) : (ofTokens name inside).Coheres := by
  have htrailing : (ofTokens name inside).trailingArgs =
      (afterComma? 0 inside).bind fun us =>
        if us = [] then none else some (String.ofList (trim (sourceText us))) := by
    cases hcomma : afterComma? 0 inside with
    | none => simp [ofTokens, hcomma]
    | some us =>
      have hus := trim_sourceText_eq_nil_iff fun t ht => h t ((afterComma?_suffix hcomma).subset ht)
      simp [ofTokens, hcomma, hus]
  refine ⟨?_, ?_, fun t ht => ?_⟩
  · have hraw : (ofTokens name inside).rawArgs = "" ↔ trim (sourceText inside) = [] := by
      simp [ofTokens, ← String.toList_inj]
    rw [hraw, trim_sourceText_eq_nil_iff h]
    exact Argument.listOfTokens_eq_nil_iff
  · have hlength : 2 ≤ (ofTokens name inside).args.length ↔ _ :=
      Argument.two_le_length_listOfTokens_iff
    rw [hlength, htrailing]
    cases afterComma? 0 inside with
    | none => simp
    | some us => by_cases hnil : us = [] <;> simp [hnil]
  · rw [htrailing] at ht
    obtain ⟨us, hus, ht⟩ := Option.bind_eq_some_iff.1 ht
    split at ht
    · exact absurd ht (by simp)
    · rename_i hne
      obtain rfl := Option.some.inj ht
      obtain ⟨first, hfirst, hlast⟩ := exists_rawArgs_eq h hus
      have hnonempty := mt
        (trim_sourceText_eq_nil_iff fun t ht => h t ((afterComma?_suffix hus).subset ht)).1 hne
      refine ⟨?_, ?_, String.ofList first, ?_, by simpa using hlast⟩
      · simpa [← String.toList_inj] using hnonempty
      · rw [String.toList_ofList, trim_of_tight (isBlank_head?_trim _) (tight_trimEnd _)]
      · have hraw : (ofTokens name inside).rawArgs = String.ofList (trim (sourceText inside)) := rfl
        rw [hraw, hfirst, String.ofList_append]

end

/-! ### The calls of a line -/

/-- Lexemes make up the **head** of a call: what links it to what stands before, its name, and the
opening parenthesis, with nothing but blanks in between. -/
def IsHead (name : String) (ls : List Lexeme) : Prop :=
  ∃ link word paren, ls.filter (·.kind ≠ .blank) = [link, word, paren] ∧ ls.getLast? = some paren ∧
    isLink link.kind = true ∧ word.kind = .word ∧ paren.kind = .openParen ∧
    name = String.ofList word.text

/-- Calls **stand in a row** of lexemes. Each starts with its head, where the one before it ends;
its text is what stands from there to the parenthesis that closes, or to the end; and the last call
is not followed by another head. -/
inductive InRow : List Lexeme → List Call → Prop
  | nil {ls : List Lexeme} (h : ∀ name head rest, ls = head ++ rest → ¬IsHead name head) :
    InRow ls []
  | cons {c : Call} {cs : List Call} {head inside behind : List Lexeme} (hhead : IsHead c.name head)
    (hends : EndsAtParen 0 inside behind) (hraw : c.rawArgs = String.ofList (trim (textOf inside)))
    (h : InRow behind.tail cs) : InRow (head ++ (inside ++ behind)) (c :: cs)

theorem not_isHead_of_sequence_eq_nil {gap : List Char} {ls : List Lexeme}
    (h : sequence (tokensAfter gap ls) = []) (name : String) (head rest : List Lexeme)
    (hls : ls = head ++ rest) : ¬IsHead name head := by
  rintro ⟨link, word, paren, hfilter, -, hlink, hword, hparen, -⟩
  have hmap := map_lexeme_tokensAfter gap ls
  rw [hls, List.filter_append, hfilter] at hmap
  obtain ⟨ts, us, htokens, hts, -⟩ := List.map_eq_append_iff.1 hmap
  match ts, hts with
  | [a, b, c], hts =>
    simp only [List.map_cons, List.map_nil, List.cons.injEq, and_true] at hts
    obtain ⟨rfl, rfl, rfl⟩ := hts
    rw [← hls] at htokens
    rw [htokens, List.cons_append, List.cons_append, List.cons_append, List.nil_append, sequence,
      if_pos ⟨hlink, hword, hparen⟩] at h
    exact absurd h (by simp)

/-- **The calls that are read stand in a row.** -/
theorem inRow_sequence {gap : List Char} {ls : List Lexeme}
    (hls : ∀ l ∈ ls, l.kind = .blank → ∀ c ∈ l.text, isBlank c = true) :
    InRow ls (sequence (tokensAfter gap ls)) := by
  generalize hts : tokensAfter gap ls = ts
  fun_induction sequence ts generalizing gap ls with
  | case1 link name paren rest hcall ih =>
    have hsplit : tokensAfter gap ls = [link, name] ++ paren :: rest := hts
    obtain ⟨ks, ms, rfl, -, hhead, hrest⟩ := tokensAfter_split hsplit
    obtain ⟨inside, behind, rfl, hends, huntil⟩ := exists_untilCloseParen_tokensAfter 0 [] ms
    rw [hrest] at huntil
    rw [huntil] at ih ⊢
    rw [← List.singleton_append, ← List.append_assoc] at hls ⊢
    have hfilter := map_lexeme_tokensAfter gap (ks ++ [paren.lexeme])
    rw [hhead] at hfilter
    refine .cons ⟨link.lexeme, name.lexeme, paren.lexeme, hfilter.symm, by simp, hcall.1, hcall.2.1,
      hcall.2.2, rfl⟩ hends ?_ ?_
    · have hinside : trim (sourceText (tokensAfter [] inside)) = trim (textOf inside) :=
        trim_sourceText_tokensAfter (fun l hl => hls l (by simp [hl])) (by simp)
      rw [ofTokens, hinside]
    · refine ih (fun l hl => hls l ?_) rfl
      simp [List.mem_of_mem_tail hl]
  | case2 link name paren rest hcall =>
    have hnil : sequence (tokensAfter gap ls) = [] := by rw [hts, sequence, if_neg hcall]
    exact .nil (not_isHead_of_sequence_eq_nil hnil)
  | case3 ts hshort =>
    have hnil : sequence (tokensAfter gap ls) = [] := by
      rw [hts, sequence]
      exact hshort
    exact .nil (not_isHead_of_sequence_eq_nil hnil)

/-- **The pieces of the calls that are read cohere.** -/
theorem coheres_sequence {ts : List Token} (h : ∀ t ∈ ts, t.Sound) :
    ∀ c ∈ sequence ts, c.Coheres := by
  fun_induction sequence ts with
  | case1 link name paren rest hcall ih =>
    have hrest : ∀ t ∈ rest, t.Sound := fun t ht => h t (by simp [ht])
    rw [List.forall_mem_cons]
    refine ⟨coheres_ofTokens (fun t ht => hrest t (untilCloseParen_subset 0 rest ht)) _, ih ?_⟩
    exact fun t ht => hrest t ((untilCloseParen_suffix 0 rest).subset ht)
  | case2 => simp
  | case3 => simp

end Call

namespace Chain

/-- A chain is **read from** a line if it is what is chained to the first variable there that an
arrow follows, or to the first mention of a class that a double colon follows. -/
def IsReadFrom (line : List Char) (chain : Chain) : Prop :=
  Chained.ofVariable? (tokens line) = some (.calls chain) ∨
    ∃ name, ofClass? name (tokens line) = some chain

theorem IsReadFrom.exists_receiver {line : List Char} {chain : Chain} (h : chain.IsReadFrom line) :
    ∃ before t rest, tokens line = before ++ t :: rest ∧ chain.receiver = String.ofList t.text ∧
      chain.calls = Call.sequence rest := by
  obtain ⟨p, r, hr, hcalls⟩ : ∃ p r, findReceiver? p (tokens line) = some r ∧
      Chained.ofReceiver? (String.ofList r.1.text) r.2 = some (.calls chain) := by
    rcases h with h | ⟨name, h⟩
    · obtain ⟨r, hr, hcalls⟩ := Option.bind_eq_some_iff.1 h
      exact ⟨_, r, hr, hcalls⟩
    · exact exists_of_ofClass? h
  obtain ⟨before, hbefore⟩ := findReceiver?_eq_append hr
  refine ⟨before, r.1, r.2, hbefore, ?_, Chained.calls_of_ofReceiver? hcalls⟩
  unfold Chained.ofReceiver? at hcalls
  split at hcalls
  · exact absurd hcalls (by simp)
  · split at hcalls
    · exact absurd hcalls (by simp)
    · obtain rfl : (⟨_, _⟩ : Chain) = chain := by simpa using hcalls
      rfl

/-- **The pieces of the calls on a line fit together.** The calls of a chain that is read from a
line stand in a row behind its receiver, so that the text of each is the trimmed text of the line
from its opening parenthesis to the first one that closes outside of brackets, or to the end of the
line; and the pieces of each of them cohere. -/
theorem calls_cohere {line : List Char} {chain : Chain} (h : chain.IsReadFrom line) :
    (∃ before receiver behind, lexemes line = before ++ receiver :: behind ∧
      chain.receiver = String.ofList receiver.text ∧ Call.InRow behind chain.calls) ∧
    ∀ c ∈ chain.calls, c.Coheres := by
  obtain ⟨before, t, rest, htokens, hreceiver, hcalls⟩ := h.exists_receiver
  rw [hcalls]
  constructor
  · obtain ⟨ks, ms, hlexemes, -, -, rfl⟩ := tokensAfter_split htokens
    refine ⟨ks, t.lexeme, ms, hlexemes, hreceiver, Call.inRow_sequence fun l hl => ?_⟩
    exact isBlank_of_mem_lexemes (s := line) l (by simp [hlexemes, hl])
  · exact Call.coheres_sequence fun u hu => sound_of_mem_tokens (s := line) (by simp [htokens, hu])

/-- A line with brackets that do not match, a keyed array, and a call that is left open together
with the string in it. -/
def raggedLine : List Char :=
  "f($t->enum( 'a' , [1, 2), 'k' => ')' ] )->after()->b('x, y ".toList

/-- What is told of the calls on the ragged line: the name, the text between the parentheses, the
text behind the first argument, and the number of arguments. -/
theorem calls_cohere_raggedLine : ∃ chain : Chain, chain.IsReadFrom raggedLine ∧
    chain.calls.map (fun c => (c.name, c.rawArgs, c.trailingArgs, c.args.length)) =
      [("enum", "'a' , [1, 2), 'k' => ')' ]", some "[1, 2), 'k' => ')' ]", 3),
        ("after", "", none, 0), ("b", "'x, y", none, 1)] ∧
    (∃ before receiver behind, lexemes raggedLine = before ++ receiver :: behind ∧
      chain.receiver = String.ofList receiver.text ∧ Call.InRow behind chain.calls) ∧
    ∀ c ∈ chain.calls, c.Coheres := by
  have hcalls : ((Chained.ofVariable? (tokens raggedLine)).bind Chained.chain?).map (fun chain =>
      chain.calls.map fun c => (c.name, c.rawArgs, c.trailingArgs, c.args.length)) =
      some [("enum", "'a' , [1, 2), 'k' => ')' ]", some "[1, 2), 'k' => ')' ]", 3),
        ("after", "", none, 0), ("b", "'x, y", none, 1)] := by decide +kernel
  obtain ⟨chain, hchain, hpieces⟩ := Option.map_eq_some_iff.1 hcalls
  obtain ⟨chained, hread, hchained⟩ := Option.bind_eq_some_iff.1 hchain
  rw [Chained.chain?_eq_some_iff.1 hchained] at hread
  exact ⟨chain, Or.inl hread, hpieces, calls_cohere (Or.inl hread)⟩

end Chain

end SchemaHistory

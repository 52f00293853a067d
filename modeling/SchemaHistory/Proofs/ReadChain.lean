import SchemaHistory.Proofs.Writable
import SchemaHistory.Statement

/-!
# Reading a chain back

A chain that was written link by link is read call by call. The arguments of a link end at its own
parenthesis if its brackets are **level** (`SchemaHistory.Source.Level`): it closes what it opens,
and has no closing parenthesis of its own. Then the calls of the chain are those of its links
(`SchemaHistory.ofVariable?_chainText`), and the call of a link depends on nothing but its text.

The arguments that scripts write come in three shapes: nothing, a string with more arguments or
without, and a text that is copied. What their calls say is listed at the end.
-/

namespace SchemaHistory

open Source Text

/-! ### Level brackets -/

namespace Source

/-- The bracket depth behind tokens of some kinds. -/
def depthOf (depth : Nat) (ks : List Kind) : Nat :=
  ks.foldl depthAfter depth

/-- Kinds are **level** if no parenthesis is closed among them and they leave the bracket depth as
it is. -/
structure Level (ks : List Kind) : Prop where
  noParen : .closeParen ∉ ks
  depth : ∀ d, depthOf d ks = d

theorem Level.nil : Level [] := ⟨by simp, fun _ => rfl⟩

theorem Level.append {ks js : List Kind} (hk : Level ks) (hj : Level js) : Level (ks ++ js) where
  noParen := by
    rw [List.mem_append]
    rintro (h | h)
    · exact hk.noParen h
    · exact hj.noParen h
  depth := by
    intro d
    have happend : depthOf d (ks ++ js) = depthOf (depthOf d ks) js := List.foldl_append
    rw [happend, hk.depth, hj.depth]

/-- A token that is no bracket keeps the level. -/
theorem Level.cons {k : Kind} (hopen : k.opens = false) (hclose : k.closes = false)
    {ks : List Kind} (h : Level ks) : Level (k :: ks) where
  noParen := by
    rintro hmem
    rcases List.mem_cons.1 hmem with rfl | hmem
    · exact absurd hclose (by decide)
    · exact h.noParen hmem
  depth := by
    intro d
    have hk : depthAfter d k = d := by simp [depthAfter, hopen, hclose]
    have hcons : depthOf d (k :: ks) = depthOf (depthAfter d k) ks := rfl
    rw [hcons, hk, h.depth]

/-- Level kinds stay level between brackets. -/
theorem Level.brackets {ks : List Kind} (h : Level ks) :
    Level (.openBracket :: (ks ++ [.closeBracket])) where
  noParen := by
    have hparen := h.noParen
    simp [hparen]
  depth := by
    intro d
    have hopen : depthOf d (.openBracket :: (ks ++ [.closeBracket])) =
        depthOf (d + 1) (ks ++ [.closeBracket]) := rfl
    have hclose : depthOf (d + 1) (ks ++ [.closeBracket]) =
        depthAfter (depthOf (d + 1) ks) .closeBracket := by
      rw [depthOf, List.foldl_append]
      rfl
    rw [hopen, hclose, h.depth]
    rfl

/-- Kinds stand **inside** a parenthesis, at some depth of brackets, if what closes it is the next
closing parenthesis behind them. -/
def Inside : Nat → List Kind → Prop
  | d, [] => d = 0
  | d, k :: ks => ¬(k = .closeParen ∧ d = 0) ∧ Inside (depthAfter d k) ks

/-- **What stands inside a parenthesis ends where that is closed.** -/
theorem Inside.untilCloseParen_eq {d : Nat} {ts : List Token} (h : Inside d (ts.map Token.kind))
    {p : Token} (hp : p.kind = .closeParen) (rest : List Token) :
    untilCloseParen d (ts ++ p :: rest) = (ts, rest) := by
  induction ts generalizing d with
  | nil => rw [List.nil_append, untilCloseParen, if_pos ⟨hp, h⟩]
  | cons t ts ih => rw [List.cons_append, untilCloseParen, if_neg h.1, ih h.2]

theorem inside_of_noParen {d : Nat} {ks : List Kind} (hparen : .closeParen ∉ ks)
    (hd : depthOf d ks = 0) : Inside d ks := by
  induction ks generalizing d with
  | nil => exact hd
  | cons k ks ih =>
    rw [List.mem_cons, not_or] at hparen
    exact ⟨fun h => hparen.1 h.1.symm, ih hparen.2 hd⟩

/-- **Kinds that are level stand inside a parenthesis.** -/
theorem Level.inside {ks : List Kind} (h : Level ks) : Inside 0 ks :=
  inside_of_noParen h.noParen (h.depth 0)

theorem pieces_ne_nil (d : Nat) (ts : List Token) : pieces d ts ≠ [] := by
  cases ts with
  | nil => simp [pieces]
  | cons t ts =>
    rw [pieces]
    split
    · simp
    · split <;> simp

/-- Kinds have **no comma** outside of brackets, at some depth of them. -/
def NoComma : Nat → List Kind → Prop
  | _, [] => True
  | d, k :: ks => ¬(k = .comma ∧ d = 0) ∧ NoComma (depthAfter d k) ks

/-- **Tokens without a comma outside of brackets go into the first piece.** -/
theorem NoComma.pieces_append {d : Nat} {ts : List Token} (h : NoComma d (ts.map Token.kind))
    (us : List Token) :
    pieces d (ts ++ us) = (pieces (depthOf d (ts.map Token.kind)) us).modifyHead (ts ++ ·) := by
  induction ts generalizing d with
  | nil =>
    obtain ⟨p, ps, hps⟩ := List.exists_cons_of_ne_nil (pieces_ne_nil d us)
    have hd : depthOf d ([].map Token.kind) = d := rfl
    rw [hd, hps]
    exact hps
  | cons t ts ih =>
    have hd : depthOf d ((t :: ts).map Token.kind) =
        depthOf (depthAfter d t.kind) (ts.map Token.kind) := rfl
    rw [List.cons_append, pieces, if_neg h.1, ih h.2, hd]
    cases hps : pieces (depthOf (depthAfter d t.kind) (ts.map Token.kind)) us with
    | nil => exact absurd hps (pieces_ne_nil _ us)
    | cons p ps => rfl

theorem NoComma.pieces_eq {d : Nat} {ts : List Token} (h : NoComma d (ts.map Token.kind)) :
    pieces d ts = [ts] := by
  have hpieces := h.pieces_append []
  rwa [pieces, List.modifyHead_cons, List.append_nil] at hpieces

theorem NoComma.afterComma?_append {d : Nat} {ts : List Token}
    (h : NoComma d (ts.map Token.kind)) (us : List Token) :
    afterComma? d (ts ++ us) = afterComma? (depthOf d (ts.map Token.kind)) us := by
  induction ts generalizing d with
  | nil => rfl
  | cons t ts ih =>
    rw [List.cons_append, afterComma?, if_neg h.1, ih h.2]
    rfl

/-- The first comma outside of brackets ends the first piece. -/
theorem NoComma.pieces_comma {ts : List Token} (h : NoComma 0 (ts.map Token.kind))
    (hd : depthOf 0 (ts.map Token.kind) = 0) {t : Token} (ht : t.kind = .comma) (us : List Token) :
    pieces 0 (ts ++ t :: us) = ts :: pieces 0 us := by
  rw [h.pieces_append, hd, pieces, if_pos ⟨ht, rfl⟩, List.modifyHead_cons, List.append_nil]

/-- The **kinds** of the tokens of a text. -/
def kinds (s : List Char) : List Kind :=
  (tokens s).map Token.kind

/-- The kinds of tokens are those of the lexemes that are no blanks. -/
theorem map_kind_tokensAfter (gap : List Char) (ls : List Lexeme) :
    (tokensAfter gap ls).map Token.kind =
      (ls.map (·.kind)).filter fun k => !decide (k = .blank) := by
  induction ls generalizing gap with
  | nil => rfl
  | cons l ls ih =>
    by_cases hl : l.kind = .blank
    · simp [tokensAfter, hl, ih]
    · simp [tokensAfter, hl, ih, Token.kind]

@[simp] theorem kinds_nil : kinds [] = [] := by
  rw [kinds, tokens_nil, List.map_nil]

/-- A sealed text has its own kinds if a character behind it stops its lexemes. -/
theorem Sealed.kinds_append {s : List Char} (h : Sealed s) {d : Char} (hd : isStop d = true)
    (t : List Char) : kinds (s ++ d :: t) = kinds s ++ kinds (d :: t) := by
  rw [kinds, kinds, kinds, tokens, tokens, tokens, h.lexemes_append hd, map_kind_tokensAfter,
    map_kind_tokensAfter, map_kind_tokensAfter, List.map_append, List.filter_append]

theorem kinds_of_lexemes {s t : List Char} {l : Lexeme} (h : lexemes s = l :: lexemes t)
    (hl : l.kind ≠ .blank) : kinds s = l.kind :: kinds t := by
  rw [kinds, tokens_of_lexemes h hl, List.map_cons, kinds, Token.kind]

theorem kinds_cons {c : Char} {s t : List Char} {l : Lexeme}
    (h : Lexeme.startingWith c s = (l, t)) (hl : l.kind ≠ .blank) :
    kinds (c :: s) = l.kind :: kinds t :=
  kinds_of_lexemes (lexemes_cons h) hl

/-- Blanks before a text have no kind. -/
theorem kinds_gap {g t : List Char} (hg : ∀ c ∈ g, isBlank c = true)
    (ht : ∀ c ∈ t.head?, isBlank c = false) : kinds (g ++ t) = kinds t := by
  rw [kinds, tokens_gap hg ht, kinds, tokens, map_kind_tokensAfter, map_kind_tokensAfter]

end Source

/-! ### Calls -/

/-- Where a call starts, it is the first one. -/
theorem sequence_callHead (name : List Char) (ts : List Token) :
    Call.sequence (callHead name ++ ts) =
      Call.ofTokens (String.ofList name) (untilCloseParen 0 ts).1 ::
        Call.sequence (untilCloseParen 0 ts).2 := by
  rw [callHead, List.cons_append, List.cons_append, List.cons_append, List.nil_append,
    Call.sequence, if_pos ⟨rfl, rfl, rfl⟩]
  rfl

/-- **A call goes to its closing parenthesis**, and the next one is looked for behind it. -/
theorem sequence_of_inside {inside : List Token} (h : Inside 0 (inside.map Token.kind)) {p : Token}
    (hp : p.kind = .closeParen) (name : List Char) (rest : List Token) :
    Call.sequence (callHead name ++ (inside ++ p :: rest)) =
      Call.ofTokens (String.ofList name) inside :: Call.sequence rest := by
  rw [sequence_callHead, h.untilCloseParen_eq hp]

/-- Behind a variable the calls are read from the start of the first one. -/
theorem ofVariable?_of_sequence {v name : List Char} {ts : List Token} {c : Call}
    {cs : List Call} (h : Call.sequence (callHead name ++ ts) = c :: cs) :
    Chained.ofVariable? (⟨[], ⟨.variable, v⟩⟩ :: (callHead name ++ ts)) =
      some (.calls ⟨String.ofList v, c :: cs⟩) := by
  have hreceiver : Chained.ofVariable? (⟨[], ⟨.variable, v⟩⟩ :: (callHead name ++ ts)) =
      Chained.ofReceiver? (String.ofList v) (callHead name ++ ts) := rfl
  have hcall : assignment? (callHead name ++ ts) = none := rfl
  rw [hreceiver, Chained.ofReceiver?, hcall, h]

namespace Link

/-- The **call** that a link writes. -/
def call (l : Link) : Call :=
  Call.ofTokens l.name (Source.tokens l.inside.toList)

/-- A link is **level** if its brackets are, and no blank stands at the end of its arguments. -/
structure Level (l : Link) : Prop extends l.Proper where
  level : Source.Level (kinds l.inside.toList)
  tight : Tight l.inside.toList

theorem Level.tokens_eq {l : Link} (h : l.Level) :
    l.tokens = callHead l.name.toList ++
      (Source.tokens l.inside.toList ++ [⟨[], ⟨.closeParen, [')']⟩⟩]) := by
  rw [tokens, h.inside.tokens_append_of_tight h.tight, tokens_nil]
  rfl

theorem Level.sequence_cons {l : Link} (h : l.Level) (ts : List Token) :
    Call.sequence (l.tokens ++ ts) = l.call :: Call.sequence ts := by
  rw [h.tokens_eq, List.append_assoc, List.append_assoc, List.singleton_append,
    sequence_of_inside h.level.inside rfl, String.ofList_toList, call]

end Link

theorem sequence_flatMap_tokens {ls : List Link} (h : ∀ l ∈ ls, l.Level) (ts : List Token) :
    Call.sequence (ls.flatMap Link.tokens ++ ts) = ls.map Link.call ++ Call.sequence ts := by
  induction ls with
  | nil => rfl
  | cons l ls ih =>
    rw [List.flatMap_cons, List.append_assoc, (h l List.mem_cons_self).sequence_cons,
      ih fun k hk => h k (List.mem_cons_of_mem l hk)]
    rfl

/-- **The calls of a chain are those of its links.** -/
theorem ofVariable?_chainText {l : Link} {ls : List Link} (h : ∀ k ∈ l :: ls, k.Level) :
    Chained.ofVariable? (Source.tokens (chainText (l :: ls))) =
      some (.calls ⟨"$table", (l :: ls).map Link.call⟩) := by
  have hsequence := sequence_flatMap_tokens h [⟨[], ⟨.semicolon, [';']⟩⟩]
  have hend : Call.sequence [⟨[], ⟨.semicolon, [';']⟩⟩] = [] := by simp [Call.sequence]
  have hreceiver : String.ofList tableVariable = "$table" := by decide
  rw [hend, List.append_nil, List.flatMap_cons, List.append_assoc, l.tokens_append] at hsequence
  rw [tokens_chainText fun k hk => (h k hk).toProper, List.flatMap_cons, List.append_assoc,
    l.tokens_append, ofVariable?_of_sequence hsequence, hreceiver, List.map_cons]

/-! ### What the calls of links say -/

/-- The token of a string literal. -/
def literalToken (s : String) : Token :=
  ⟨[], ⟨.quoted, '\'' :: (s.toList ++ ['\''])⟩⟩

theorem tokens_literal_append {s : String} (h : Quotable s) (t : List Char) :
    Source.tokens ((literal s).toList ++ t) = literalToken s :: Source.tokens t := by
  have hfirst : Lexeme.startingWith '\'' (s.toList ++ '\'' :: t) =
      (⟨.quoted, '\'' :: (s.toList ++ ['\''])⟩, t) := by
    have hstart : Lexeme.startingWith '\'' (s.toList ++ '\'' :: t) =
        (⟨.quoted, '\'' :: (untilClosed '\'' (s.toList ++ '\'' :: t)).1⟩,
          (untilClosed '\'' (s.toList ++ '\'' :: t)).2) := rfl
    rw [hstart, untilClosed_of_isQuotable h.quotable]
  have htext : (literal s).toList ++ t = '\'' :: (s.toList ++ '\'' :: t) := by
    simp [toList_literal]
  rw [htext, tokens_cons hfirst (by simp), literalToken]

theorem tokens_literal {s : String} (h : Quotable s) :
    Source.tokens (literal s).toList = [literalToken s] := by
  have htokens := tokens_literal_append h []
  rwa [List.append_nil, tokens_nil] at htokens

theorem noComma_literalToken (s : String) : NoComma 0 ([literalToken s].map Token.kind) :=
  ⟨fun h => Kind.noConfusion h.1, trivial⟩

/-- The first argument is a string if a string literal stands there alone. -/
theorem head?_listOfTokens {s : String} {ts : List Token}
    (h : ts = [] ∨ ∃ t rest, ts = t :: rest ∧ t.kind = .comma) :
    (Argument.listOfTokens (literalToken s :: ts)).head? =
      some (Argument.ofTokens [literalToken s]) := by
  rcases h with rfl | ⟨t, rest, rfl, ht⟩
  · rfl
  have hpieces : pieces 0 (literalToken s :: t :: rest) = [literalToken s] :: pieces 0 rest :=
    (noComma_literalToken s).pieces_comma rfl ht rest
  rw [Argument.listOfTokens, hpieces]
  cases hrest : pieces 0 rest with
  | nil => exact absurd hrest (pieces_ne_nil 0 rest)
  | cons p ps => split <;> simp

/-- The **content** that a string literal is read as: its text without the escapes. -/
def contentOf (s : String) : String :=
  String.ofList (literalToken s).lexeme.content

/-- The argument that a string literal writes. -/
theorem ofTokens_literalToken (s : String) :
    Argument.ofTokens [literalToken s] = .string (contentOf s) := by
  have hkind : (literalToken s).kind = .quoted := rfl
  rw [Argument.ofTokens, if_pos hkind, contentOf]

/-- The first argument of a call that starts with a string literal. -/
theorem stringAt?_ofTokens {s : String} {ts : List Token} (name : String)
    (h : ts = [] ∨ ∃ t rest, ts = t :: rest ∧ t.kind = .comma) :
    (Call.ofTokens name (literalToken s :: ts)).stringAt? 0 = some (contentOf s) := by
  have hargs : (Call.ofTokens name (literalToken s :: ts)).args =
      Argument.listOfTokens (literalToken s :: ts) := rfl
  rw [Call.stringAt?, ← List.head?_eq_getElem?, hargs, head?_listOfTokens h,
    ofTokens_literalToken]
  rfl

/-- A text without backslashes has no escapes. -/
theorem unescape_of_not_mem {s : List Char} (h : '\\' ∉ s) : unescape s = s := by
  induction s with
  | nil => rfl
  | cons c s ih =>
    have hc : c ≠ '\\' := fun hc => h (by simp [hc])
    rw [unescape, ih fun hmem => h (List.mem_cons_of_mem c hmem)]
    · exact fun hc' => absurd hc' hc
    · exact fun _ _ hc' => absurd hc' hc

/-- The content of a string literal without backslashes is the text between its quotes. -/
theorem contentOf_eq {s : String} (h : '\\' ∉ s.toList) : contentOf s = s := by
  have hcontent : (literalToken s).lexeme.content = s.toList := by
    simp [literalToken, Lexeme.content, unescape_of_not_mem h]
  rw [contentOf, hcontent, String.ofList_toList]

/-- A text that can be **copied** into the arguments of a call and read back from there. -/
structure Legible (s : String) : Prop extends Copyable s where
  nonempty : s ≠ ""
  starts : ∀ c ∈ s.toList.head?, isBlank c = false
  tight : Tight s.toList
  level : Source.Level (kinds s.toList)

namespace Link

/-- The call of a link without arguments. -/
theorem call_empty (name : String) : call ⟨name, ""⟩ = ⟨name, [], "", none⟩ := by
  have htokens : Source.tokens "".toList = [] := tokens_nil
  rw [call, htokens]
  rfl

theorem rawArgs_call {name inside : String} (h : Legible inside) :
    (call ⟨name, inside⟩).rawArgs = inside := by
  have hraw : (call ⟨name, inside⟩).rawArgs =
      String.ofList (trim (sourceText (Source.tokens inside.toList))) := rfl
  rw [hraw, h.tight.sourceText_tokens, trim_of_tight h.starts h.tight, String.ofList_toList]

/-- The tokens of a string, a comma and a text. -/
theorem tokens_literal_comma {s : String} (h : Quotable s) (text : String) :
    Source.tokens (literal s ++ ", " ++ text).toList =
      literalToken s :: ⟨[], ⟨.comma, [',']⟩⟩ :: Source.tokens (' ' :: text.toList) := by
  have htext : (literal s ++ ", " ++ text).toList =
      (literal s).toList ++ ',' :: ' ' :: text.toList := by
    simp [String.toList_append]
  have hcomma : Lexeme.startingWith ',' (' ' :: text.toList) =
      (⟨.comma, [',']⟩, ' ' :: text.toList) := rfl
  rw [htext, tokens_literal_append h, tokens_cons hcomma (by simp)]

/-- The arguments of a link that start with a string. -/
theorem stringAt?_call {name s : String} (h : Quotable s) :
    (call ⟨name, literal s⟩).stringAt? 0 = some (contentOf s) ∧
      ∀ text, (call ⟨name, literal s ++ ", " ++ text⟩).stringAt? 0 = some (contentOf s) := by
  refine ⟨?_, fun text => ?_⟩
  · rw [call, tokens_literal h]
    exact stringAt?_ofTokens name (Or.inl rfl)
  · rw [call, tokens_literal_comma h]
    exact stringAt?_ofTokens name (Or.inr ⟨_, _, rfl, rfl⟩)

/-- The first string of a link that has a string for its argument. -/
theorem firstString?_call {name s : String} (h : Quotable s) :
    (call ⟨name, literal s⟩).firstString? = some (contentOf s) := by
  have hargs : (call ⟨name, literal s⟩).args = Argument.listOfTokens [literalToken s] := by
    rw [call, tokens_literal h]
    rfl
  rw [Call.firstString?, hargs, head?_listOfTokens (Or.inl rfl), ofTokens_literalToken]
  rfl

/-- What follows the string in the arguments of a link. -/
theorem trailingArgs_call {name s : String} (h : Quotable s) :
    (call ⟨name, literal s⟩).trailingArgs = none ∧
      ∀ text, Legible text → (call ⟨name, literal s ++ ", " ++ text⟩).trailingArgs = some text := by
  refine ⟨?_, fun text htext => ?_⟩
  · rw [call, tokens_literal h]
    rfl
  · have hne : text.toList ≠ [] := fun hnil => htext.nonempty (String.toList_eq_nil_iff.1 hnil)
    have htight : Tight (' ' :: text.toList) := htext.tight.append_left hne [' ']
    have htrim : trim (' ' :: text.toList) = text.toList := by
      have happend := trim_append (u := [' ']) (by decide) text.toList
      rw [trim_of_tight htext.starts htext.tight] at happend
      exact happend
    have htrailing : (call ⟨name, literal s ++ ", " ++ text⟩).trailingArgs =
        (some (trim (sourceText (Source.tokens (' ' :: text.toList))))).bind fun s =>
          if s.isEmpty then none else some (String.ofList s) := by
      rw [call, tokens_literal_comma h]
      rfl
    have hempty : text.toList.isEmpty = false := by simpa using hne
    rw [htrailing, htight.sourceText_tokens, htrim, Option.bind_some, if_neg (by simp [hempty]),
      String.ofList_toList]

end Link

end SchemaHistory

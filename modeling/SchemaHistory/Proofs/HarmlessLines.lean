import SchemaHistory.Proofs.HeadLines
import SchemaHistory.Proofs.RebuiltTables
import SchemaHistory.Replay

/-!
# Lines that no replay fails on

A replay fails on a line for one of two reasons: a call on the schema class lacks its literal
arguments, or a call on the open table is unknown or lacks them. A line on which neither can happen
is **harmless** (`SchemaHistory.Replay.Harmless`), whatever state the replay is in.

The lines of a script can be harmless although they are not read as they were meant. A name with
an escape comes back as another name, and a copied text may hold brackets of any kind. All that
counts is the first call of a line: its name is known and its first argument is a string literal.
That the line makes no call on the schema class has to be asked of the texts that are copied into
it (`SchemaHistory.ofClass?_chainText`), because such a call would count before the first one.
-/

namespace SchemaHistory

open Source Text

/-! ### Calls on a class -/

/-- Whether tokens start with a link, a word and an opening parenthesis. -/
def startsCall : List Token → Bool
  | link :: name :: paren :: _ =>
    isLink link.kind && name.kind == .word && paren.kind == .openParen
  | _ => false

/-- Calls follow a receiver exactly if one starts right behind it. -/
theorem ofReceiver?_eq_calls_iff {receiver : String} {ts : List Token} :
    (∃ chain, Chained.ofReceiver? receiver ts = some (.calls chain)) ↔ startsCall ts = true := by
  match ts with
  | link :: name :: paren :: rest =>
    rw [Chained.ofReceiver?, assignment?, Call.sequence, startsCall]
    by_cases hcall : isLink link.kind ∧ name.kind = .word ∧ paren.kind = .openParen
    · simp [hcall]
    · rw [if_neg hcall]
      have hstart : ¬((isLink link.kind && name.kind == .word && paren.kind == .openParen) =
          true) := by simpa [and_assoc] using hcall
      split <;> simp_all
  | [] => simp [Chained.ofReceiver?, assignment?, Call.sequence, startsCall]
  | [t] => simp [Chained.ofReceiver?, assignment?, Call.sequence, startsCall]
  | [t, u] => simp [Chained.ofReceiver?, assignment?, Call.sequence, startsCall]

/-- Whether two tokens are a mention of a class and a double colon. -/
def isReceiver (name : String) (t u : Token) : Bool :=
  t.kind == .word && namesClass name.toList t.text && u.kind == .doubleColon

theorem isReceiver_eq_false {name : String} {t u : Token}
    (h : t.kind ≠ .word ∨ u.kind ≠ .doubleColon) : isReceiver name t u = false := by
  rcases h with h | h <;> simp [isReceiver, h]

/-- No call on a class is made if none starts behind its first mention. -/
theorem ofClass?_cons_cons_eq_none_iff {name : String} {t u : Token} {ts : List Token} :
    Chain.ofClass? name (t :: u :: ts) = none ↔
      if isReceiver name t u then startsCall (u :: ts) = false
      else Chain.ofClass? name (u :: ts) = none := by
  rw [Chain.ofClass?, findReceiver?]
  cases hp : isReceiver name t u with
  | false =>
    rw [if_neg (by simpa [isReceiver] using hp), if_neg (by simp)]
    rfl
  | true =>
    have hiff : (∃ chain, Chained.ofReceiver? (String.ofList t.text) (u :: ts) =
        some (.calls chain)) ↔ startsCall (u :: ts) = true := ofReceiver?_eq_calls_iff
    rw [if_pos (by simpa [isReceiver] using hp), if_pos rfl, Option.bind_some,
      ← Bool.not_eq_true, ← hiff]
    cases hr : Chained.ofReceiver? (String.ofList t.text) (u :: ts) with
    | none => simp
    | some c => cases c <;> simp

section Classless

variable {name : String} {t : Token} {ts : List Token}

/-- A token that is no mention of a class can be put in front. -/
theorem ofClass?_cons (h : t.kind ≠ .word ∨ ∀ u ∈ ts.head?, u.kind ≠ .doubleColon)
    (hts : Chain.ofClass? name ts = none) : Chain.ofClass? name (t :: ts) = none := by
  cases ts with
  | nil => rfl
  | cons u ts =>
    have hreceiver : isReceiver name t u = false :=
      isReceiver_eq_false (h.imp_right fun h => h u rfl)
    rw [ofClass?_cons_cons_eq_none_iff, hreceiver, if_neg (by simp)]
    exact hts

/-- The blanks before the first token do not matter. -/
theorem ofClass?_gap (gap : List Char) (h : Chain.ofClass? name (t :: ts) = none) :
    Chain.ofClass? name ({ t with gap } :: ts) = none := by
  cases ts with
  | nil => rfl
  | cons u ts =>
    rw [ofClass?_cons_cons_eq_none_iff] at h ⊢
    exact h

/-- No call reaches over a closing parenthesis, since a name is missing before it or an opening one
behind the name. -/
theorem startsCall_append {p : Token} (hp : p.kind = .closeParen) (h : startsCall ts = false)
    (us : List Token) : startsCall (ts ++ p :: us) = false := by
  match ts with
  | [] => cases us with
    | nil => rfl
    | cons u us => cases us <;> simp [startsCall, isLink, hp]
  | [t] => cases us <;> simp [startsCall, hp]
  | [t, u] => simp [startsCall, hp]
  | t :: u :: v :: ts => exact h

/-- **Behind a closing parenthesis the search for a call on a class starts anew.** -/
theorem ofClass?_append {p : Token} (hp : p.kind = .closeParen)
    (hts : Chain.ofClass? name ts = none) {us : List Token}
    (hus : Chain.ofClass? name us = none) : Chain.ofClass? name (ts ++ p :: us) = none := by
  have hend : Chain.ofClass? name (p :: us) = none := ofClass?_cons (Or.inl (by simp [hp])) hus
  induction ts with
  | nil => exact hend
  | cons t ts ih =>
    cases ts with
    | nil =>
      refine ofClass?_cons (Or.inr fun u hu => ?_) hend
      obtain rfl := Option.some.inj hu
      simp [hp]
    | cons u ts =>
      rw [ofClass?_cons_cons_eq_none_iff] at hts
      rw [List.cons_append, List.cons_append, ofClass?_cons_cons_eq_none_iff]
      split at hts
      · rename_i hreceiver
        rw [if_pos hreceiver]
        exact startsCall_append hp hts us
      · rename_i hreceiver
        rw [if_neg hreceiver]
        exact ih hts

end Classless

/-- The blanks at the start of a text stand before its first token. -/
theorem tokens_eq_tokensAfter (s : List Char) :
    tokens s = tokensAfter (s.takeWhile isBlank) (lexemes (s.dropWhile isBlank)) := by
  cases s with
  | nil => rfl
  | cons c s =>
    by_cases hc : isBlank c = true
    · have hfirst : Lexeme.startingWith c s =
          (⟨.blank, c :: s.takeWhile isBlank⟩, s.dropWhile isBlank) := by
        unfold Lexeme.startingWith run
        rw [if_pos hc]
      rw [tokens, lexemes_cons hfirst, tokensAfter, if_pos rfl, List.nil_append,
        List.takeWhile_cons_of_pos hc, List.dropWhile_cons_of_pos hc]
    · rw [List.takeWhile_cons_of_neg hc, List.dropWhile_cons_of_neg hc, tokens]

/-- A space before a text makes no call. -/
theorem ofClass?_tokens_space {name : String} {s : List Char}
    (h : Chain.ofClass? name (tokens s) = none) :
    Chain.ofClass? name (tokens (' ' :: s)) = none := by
  have hgap : ∀ (ls : List Lexeme) (g g' : List Char),
      Chain.ofClass? name (tokensAfter g ls) = none →
        Chain.ofClass? name (tokensAfter g' ls) = none := by
    intro ls
    induction ls with
    | nil => exact fun _ _ _ => rfl
    | cons l ls ih =>
      intro g g' hg
      rw [tokensAfter] at hg ⊢
      split at hg
      · rename_i hblank
        rw [if_pos hblank]
        exact ih _ _ hg
      · rename_i hblank
        rw [if_neg hblank]
        exact ofClass?_gap g' hg
  have hspace : isBlank ' ' = true := by decide
  rw [tokens_eq_tokensAfter] at h ⊢
  rw [List.dropWhile_cons_of_pos hspace]
  exact hgap _ _ _ h

/-- The arguments of a link and the parenthesis behind them. -/
theorem Source.Sealed.exists_tokens_paren {s : List Char} (h : Sealed s) :
    ∃ p, p.kind = .closeParen ∧ tokens (s ++ [')']) = tokens s ++ [p] := by
  have hafter : ∀ (ls : List Lexeme) (g : List Char), ∃ p : Token, p.kind = .closeParen ∧
      tokensAfter g (ls ++ [⟨.closeParen, [')']⟩]) = tokensAfter g ls ++ [p] := by
    intro ls
    induction ls with
    | nil => exact fun g => ⟨⟨g, ⟨.closeParen, [')']⟩⟩, rfl, rfl⟩
    | cons l ls ih =>
      intro g
      rw [List.cons_append, tokensAfter, tokensAfter]
      split
      · exact ih _
      · obtain ⟨p, hp, hls⟩ := ih []
        exact ⟨p, hp, by rw [hls, List.cons_append]⟩
  have hone : lexemes (s ++ [')']) = lexemes s ++ [⟨.closeParen, [')']⟩] := by
    rw [h.lexemes_append_paren, lexemes]
  rw [tokens, hone]
  exact hafter _ _

/-- **A chain makes no call on a class if its arguments make none.** -/
theorem ofClass?_chainText {name : String} {ls : List Link} (h : ∀ l ∈ ls, l.Proper)
    (hinside : ∀ l ∈ ls, Chain.ofClass? name (tokens l.inside.toList) = none) :
    Chain.ofClass? name (tokens (chainText ls)) = none := by
  have hlinks : ∀ us : List Token, Chain.ofClass? name us = none →
      Chain.ofClass? name (ls.flatMap Link.tokens ++ us) = none := by
    intro us hus
    induction ls with
    | nil => exact hus
    | cons l ls ih =>
      have hrest := ih (fun k hk => h k (List.mem_cons_of_mem l hk))
        fun k hk => hinside k (List.mem_cons_of_mem l hk)
      obtain ⟨p, hp, htokens⟩ := (h l List.mem_cons_self).inside.exists_tokens_paren
      have harguments := ofClass?_append hp (hinside l List.mem_cons_self) hrest
      have hflat : (l :: ls).flatMap Link.tokens ++ us =
          ⟨[], ⟨.arrow, ['-', '>']⟩⟩ :: ⟨[], ⟨.word, l.name.toList⟩⟩ ::
            ⟨[], ⟨.openParen, ['(']⟩⟩ :: (tokens l.inside.toList ++
              p :: (ls.flatMap Link.tokens ++ us)) := by
        simp [Link.tokens, htokens]
      rw [hflat]
      refine ofClass?_cons (Or.inl (by decide)) (ofClass?_cons (Or.inr ?_)
        (ofClass?_cons (Or.inl (by decide)) harguments))
      rintro u hu
      obtain rfl := Option.some.inj hu
      decide
  rw [tokens_chainText h]
  exact ofClass?_cons (Or.inl (by decide)) (hlinks _ rfl)

/-- Nothing is called on a class by a string literal, nor by one with a comma and a text that makes
no call. -/
theorem Quotable.noCall {s : String} (h : Quotable s) :
    Chain.ofClass? "Schema" (tokens (literal s).toList) = none ∧
      ∀ text, Chain.ofClass? "Schema" (tokens text.toList) = none →
        Chain.ofClass? "Schema" (tokens (literal s ++ ", " ++ text).toList) = none := by
  refine ⟨?_, fun text htext => ?_⟩
  · rw [tokens_literal h]
    rfl
  · rw [Link.tokens_literal_comma h]
    have hliteral : (literalToken s).kind ≠ .word := by simp [literalToken, Token.kind]
    exact ofClass?_cons (Or.inl hliteral)
      (ofClass?_cons (Or.inl (by decide)) (ofClass?_tokens_space htext))

/-! ### Harmless lines -/

/-- A chain is **accepted** if no table fails on it. -/
def Chain.Accepted (chain : Chain) : Prop :=
  ∀ head, chain.head? = some head → ∀ (t : Table) (key : String) (l : Location),
    ∃ e, t.apply key head chain l = .ok e

namespace Replay

/-- A line is **harmless** if no replay fails on it. -/
def Harmless (text : String) : Prop :=
  ∀ (r : Replay) (l : Location) (f : Failure), (r.line text l).2 ≠ .fail f

/-- Only calls that are not accepted fail. -/
theorem step_ne_fail {s : Statement} (h : ∀ chain, s = .calls chain → chain.Accepted) (r : Replay)
    (l : Location) (f : Failure) : (r.step s l).2 ≠ .fail f := by
  cases s with
  | calls chain =>
    have hcall : (r.call chain l).2 = none := by
      unfold call
      split
      · rename_i head name hhead _
        obtain ⟨e, he⟩ := h chain rfl head hhead ((r.schema.openTable name).tableOrNew name) name l
        simp only [he]
      · rfl
    rw [step]
    split
    · simp
    · rename_i heq
      rw [heq] at hcall
      exact absurd hcall (by simp)
  | downBoundary => simp [step]
  | blockClose => simp [step]
  | alteration a => simp [step]
  | renameTable old new => simp [step]
  | directive verb table => simp [step]
  | query verb => simp [step]
  | assignment property value => simp [step]

/-- A call on the schema class is never a call on a table. -/
theorem ofSchemaChain_ne_calls {chain chain' : Chain} {l : Location} :
    Statement.ofSchemaChain chain l ≠ .ok (.calls chain') := by
  have hdirective : ∀ verb call, Statement.tableDirective verb call l ≠ .ok (.calls chain') := by
    intro verb call
    rw [Statement.tableDirective]
    split <;> simp
  rw [Statement.ofSchemaChain]
  split
  · unfold Statement.ofDirectiveCall
    split
    · split <;> simp
    · exact hdirective _ _
    · exact hdirective _ _
    · exact hdirective _ _
    · exact hdirective _ _
    · simp
  · simp

/-- A line is harmless if a call on the schema class has its arguments, and if calls on a table
are accepted where there is none. -/
theorem harmless_of {text : String}
    (hclass : ∀ chain, Chain.ofClass? "Schema" (tokens text.toList) = some chain →
      ∀ l, ∃ s, Statement.ofSchemaChain chain l = .ok s)
    (hcalls : Chain.ofClass? "Schema" (tokens text.toList) = none → ∀ chain,
      Chained.ofVariable? (tokens text.toList) = some (.calls chain) → chain.Accepted) :
    Harmless text := by
  intro r l f
  have hread : ∃ o, Statement.recognize text.toList r.current.isSome l = .ok o ∧
      ∀ chain, o = some (.calls chain) → chain.Accepted := by
    rw [Statement.recognize]
    split
    · exact ⟨_, rfl, by simp⟩
    split
    · exact ⟨_, rfl, by simp⟩
    split
    · exact ⟨_, rfl, by simp⟩
    split
    · rename_i chain hchain
      obtain ⟨s, hs⟩ := hclass chain hchain l
      refine ⟨some s, by rw [hs]; rfl, fun chain' heq => ?_⟩
      obtain rfl := Option.some.inj heq
      exact absurd hs ofSchemaChain_ne_calls
    · rename_i hnone
      split
      · refine ⟨_, rfl, fun chain heq => ?_⟩
        obtain ⟨c, hc, heq⟩ := Option.map_eq_some_iff.1 heq
        cases c with
        | calls chain' =>
          obtain rfl := Statement.calls.inj heq
          exact hcalls hnone chain' hc
        | assignment receiver property value => exact absurd heq (by simp [Statement.ofChained])
      · exact ⟨_, rfl, by simp⟩
  obtain ⟨o, ho, haccepted⟩ := hread
  rw [line, ho]
  cases o with
  | none => simp
  | some s => exact step_ne_fail (fun chain heq => haccepted chain (congrArg some heq)) r l f

end Replay

end SchemaHistory

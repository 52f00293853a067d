import SchemaHistory.Failure
import SchemaHistory.Proofs.PlacedArguments

/-!
# Chains by index

A reader by places goes through the tokens of a line with one index that it moves on, and looks at
the token there. What it returns of the arguments of a call (`SchemaHistory.ByPlace.Arguments`) are
places again: where the first comma outside of brackets ends, where the arguments end, and the index
of the token behind them. The texts of the call are cut out of the line between these places only
when all of them are known.

So the places have to be right *together*: the comma must not lie behind the end, and both have to
stand between characters. They are, since both are counted from the start of the line by what stands
in front of them (`SchemaHistory.ByPlace.Arguments.Fits`). In this form the invariant goes through
the loop of the arguments token by token, and gives all slices of the call at once
(`SchemaHistory.ByPlace.call_eq`). The blanks at the end of a line are the one thing that the places
see and the tokens do not; trimming takes them away.

That the loop of the calls comes to an end is a matter of the index, which never goes back
(`SchemaHistory.ByPlace.le_next_of_arguments`).
-/

namespace SchemaHistory

open Source Text

/-- The arguments that pieces write: all of them, but the last one only if it is there. -/
def Argument.ofPieces (ps : List (List Token)) : List Argument :=
  (if (ps.getLast?.getD []).isEmpty then ps.dropLast else ps).map ofTokens

theorem Argument.ofPieces_pieces (ts : List Token) : ofPieces (pieces 0 ts) = listOfTokens ts :=
  rfl

theorem Argument.ofPieces_cons (p : List Token) {ps : List (List Token)} (h : ps ≠ []) :
    ofPieces (p :: ps) = ofTokens p :: ofPieces ps := by
  rw [ofPieces, ofPieces, List.getLast?_cons_of_ne_nil h, List.dropLast_cons_of_ne_nil h]
  split <;> rfl

namespace ByPlace

/-! ### The arguments of a call -/

/-- What is read of the **arguments** of a call. -/
structure Arguments where
  args : List Argument
  /-- The place behind the first comma outside of brackets. -/
  comma : Option Nat
  /-- The place where the arguments end. -/
  close : Nat
  /-- The index of the token behind them. -/
  next : Nat

/-- The argument that is left when the last one ends, if there is one. -/
def lastArgument (line : List Char) (ts : List PlacedLexeme) (start stop : Nat) :
    Except Fault (List Argument) :=
  if start < stop then (argument line ts start stop).map ([·]) else .ok []

/-- The arguments of a call, from the one that begins at the first index, of which the tokens up to
the second index are already read. They end at a parenthesis that closes, or with the line. -/
def arguments (line : List Char) (ts : List PlacedLexeme) (start pos depth : Nat) :
    Except Fault Arguments :=
  if _ : pos < ts.length then
    let t := ts[pos]
    if t.lexeme.kind.opens then arguments line ts start (pos + 1) (depth + 1)
    else if t.lexeme.kind.closes ∧ 0 < depth then arguments line ts start (pos + 1) (depth - 1)
    else if t.lexeme.kind = .closeParen then
      (lastArgument line ts start pos).map fun args => ⟨args, none, t.start, pos + 1⟩
    else if t.lexeme.kind = .comma ∧ depth = 0 then
      match argument line ts start pos with
      | .error f => .error f
      | .ok a => (arguments line ts (pos + 1) (pos + 1) 0).map fun r =>
          { r with args := a :: r.args, comma := some t.stop }
    else if t.lexeme.kind = .finish then
      (lastArgument line ts start pos).map fun args => ⟨args, none, t.start, pos⟩
    else arguments line ts start (pos + 1) depth
  else (lastArgument line ts start pos).map fun args => ⟨args, none, byteLength line, pos⟩
termination_by ts.length - pos

/-- **The index does not go back.** -/
theorem le_next_of_arguments {line : List Char} {ts : List PlacedLexeme} {start pos depth : Nat}
    {r : Arguments} (h : arguments line ts start pos depth = .ok r) : pos ≤ r.next := by
  fun_induction arguments line ts start pos depth generalizing r with
  | case1 | case2 | case7 =>
    rename_i ih
    exact Nat.le_of_succ_le (ih h)
  | case3 =>
    obtain ⟨a, -, rfl⟩ := exists_of_map_eq_ok h
    exact Nat.le_succ _
  | case4 => exact absurd h (by simp)
  | case5 =>
    rename_i ih
    obtain ⟨r', hr', rfl⟩ := exists_of_map_eq_ok h
    have hle := ih hr'
    exact Nat.le_of_succ_le hle
  | case6 | case8 =>
    obtain ⟨a, -, rfl⟩ := exists_of_map_eq_ok h
    exact Nat.le_refl _

/-- What is read of arguments **fits** the tokens of the line: those in front of an argument, those
of it that are already read, those that are left up to the parenthesis that closes, and those behind
it. -/
structure Arguments.Fits (line : List Char) (before read inside behind : List Token) (depth : Nat)
    (r : Arguments) : Prop where
  args : r.args = Argument.ofPieces ((pieces depth inside).modifyHead (read ++ ·))
  comma : r.comma = (afterComma? depth inside).map fun us =>
    byteLength (sourceText (before ++ (read ++ inside))) - byteLength (sourceText us)
  close : ∃ g s, (∀ c ∈ g, isBlank c = true) ∧
    line = sourceText (before ++ (read ++ inside)) ++ g ++ s ∧
    r.close = byteLength (sourceText (before ++ (read ++ inside)) ++ g)
  next : ∃ front, tokens line = front ++ behind ∧ r.next = front.length

namespace Arguments.Fits

variable {line : List Char} {before read inside behind : List Token} {t : Token} {r : Arguments}

/-- A token that is no comma outside of brackets becomes one of those that are read. -/
theorem cons {d : Nat} (ht : ¬(t.kind = .comma ∧ d = 0))
    (h : Fits line before (read ++ [t]) inside behind (depthAfter d t.kind) r) :
    Fits line before read (t :: inside) behind d r := by
  obtain ⟨hargs, hcomma, hclose, hnext⟩ := h
  have hread : read ++ [t] ++ inside = read ++ t :: inside := by simp
  rw [hread] at hcomma hclose
  refine ⟨?_, ?_, hclose, hnext⟩
  · rw [hargs, pieces_cons ht, List.modifyHead_modifyHead]
    simp [Function.comp_def]
  · rw [hcomma, afterComma?, if_neg ht]

/-- A comma ends an argument, and the next one begins behind it. -/
theorem cons_comma (ht : t.kind = .comma)
    (h : Fits line (before ++ (read ++ [t])) [] inside behind 0 r) :
    Fits line before read (t :: inside) behind 0
      { r with
        args := Argument.ofTokens read :: r.args
        comma := some (placed (before ++ read) t).stop } := by
  obtain ⟨hargs, -, hclose, hnext⟩ := h
  have hread : before ++ (read ++ [t]) ++ ([] ++ inside) = before ++ (read ++ t :: inside) := by
    simp
  rw [hread] at hclose
  refine ⟨?_, ?_, hclose, hnext⟩
  · have hpieces : pieces 0 (t :: inside) = [] :: pieces 0 inside := by
      rw [pieces, if_pos ⟨ht, rfl⟩]
    rw [hpieces, List.modifyHead_cons, List.append_nil,
      Argument.ofPieces_cons _ (pieces_ne_nil 0 _), hargs, modifyHead_nil_append]
  · have hsplit : before ++ (read ++ t :: inside) = before ++ read ++ [t] ++ inside := by simp
    have hlength := byteLength_append (sourceText (before ++ read ++ [t])) (sourceText inside)
    rw [← sourceText_append, ← hsplit] at hlength
    rw [afterComma?, if_pos ⟨ht, rfl⟩, Option.map_some, hlength, Nat.add_sub_cancel]
    rfl

end Arguments.Fits

/-- The token at an index, which is in range. -/
theorem exists_getElem {line : List Char} {before ts : List Token} {t : Token}
    (h : tokens line = before ++ t :: ts) : ∃ hpos : before.length < (placedTokens line).length,
      (placedTokens line)[before.length] = placed before t :=
  List.getElem?_eq_some_iff.1 (getElem?_placedTokens h)

/-- The last argument is the piece that is read when the arguments end. -/
theorem lastArgument_eq {line : List Char} {before read ts : List Token}
    (h : tokens line = before ++ (read ++ ts)) (d : Nat) :
    lastArgument line (placedTokens line) before.length (before ++ read).length =
      .ok (Argument.ofPieces ((pieces d []).modifyHead (read ++ ·))) := by
  rw [lastArgument, pieces, List.modifyHead_cons, List.append_nil]
  cases read with
  | nil =>
    rw [List.append_nil, if_neg (Nat.lt_irrefl _)]
    rfl
  | cons t read =>
    rw [if_pos (by simp), argument_eq h]
    rfl

section

variable {line : List Char} {before read ts : List Token} {t : Token} {d : Nat}
  (h : tokens line = before ++ (read ++ t :: ts))
include h

/-- A token that neither ends an argument nor the arguments changes nothing but the depth. -/
theorem arguments_step (hclose : ¬(t.kind = .closeParen ∧ d = 0))
    (hcomma : ¬(t.kind = .comma ∧ d = 0)) :
    arguments line (placedTokens line) before.length (before ++ read).length d =
      arguments line (placedTokens line) before.length (before ++ (read ++ [t])).length
        (depthAfter d t.kind) := by
  have hmem : t ∈ tokens line := by simp [h]
  have hfinish : t.kind ≠ .finish := kind_ne_finish (lexeme_mem_of_mem_tokens hmem).1
  obtain ⟨hpos, hget⟩ := exists_getElem (h.trans (List.append_assoc before read _).symm)
  rw [arguments, dif_pos hpos]
  dsimp only
  rw [hget, kind_placed, length_read_concat, depthAfter, if_neg hcomma, if_neg hfinish]
  by_cases hopens : t.kind.opens = true
  · rw [if_pos hopens, if_pos hopens]
  rw [if_neg hopens, if_neg hopens]
  by_cases hcloses : t.kind.closes = true
  · by_cases hd : 0 < d
    · rw [if_pos ⟨hcloses, hd⟩, if_pos hcloses]
    · -- A bracket that closes nothing is passed over, unless it is the parenthesis.
      obtain rfl : d = 0 := by omega
      rw [if_neg fun h => hd h.2, if_neg fun h => hclose ⟨h, rfl⟩, if_pos hcloses]
  · have hparen : t.kind ≠ .closeParen := by
      intro hkind
      exact hcloses (by rw [hkind]; rfl)
    rw [if_neg fun h => hcloses h.1, if_neg hparen, if_neg hcloses]

/-- The parenthesis that closes ends the arguments. -/
theorem arguments_closeParen (hclose : t.kind = .closeParen) :
    arguments line (placedTokens line) before.length (before ++ read).length 0 =
      .ok ⟨Argument.ofPieces ((pieces 0 []).modifyHead (read ++ ·)), none,
        (placed (before ++ read) t).start, (before ++ read).length + 1⟩ := by
  obtain ⟨hpos, hget⟩ := exists_getElem (h.trans (List.append_assoc before read _).symm)
  rw [arguments, dif_pos hpos]
  dsimp only
  rw [hget, kind_placed, hclose, if_neg (by decide), if_neg (by simp), if_pos rfl,
    lastArgument_eq h 0]
  rfl

/-- A comma ends an argument. -/
theorem arguments_comma (hcomma : t.kind = .comma) :
    arguments line (placedTokens line) before.length (before ++ read).length 0 =
      (arguments line (placedTokens line) (before ++ (read ++ [t])).length
        (before ++ (read ++ [t]) ++ []).length 0).map fun r =>
          { r with
            args := Argument.ofTokens read :: r.args
            comma := some (placed (before ++ read) t).stop } := by
  obtain ⟨hpos, hget⟩ := exists_getElem (h.trans (List.append_assoc before read _).symm)
  rw [arguments, dif_pos hpos]
  dsimp only
  rw [hget, kind_placed, hcomma, if_neg (by decide), if_neg (by decide), if_neg (by decide),
    if_pos ⟨rfl, rfl⟩, argument_eq h, List.append_nil, length_read_concat]

end

/-- The end of the line ends the arguments. -/
theorem arguments_finish {line : List Char} {before read : List Token}
    (h : tokens line = before ++ read) (d : Nat) :
    arguments line (placedTokens line) before.length (before ++ read).length d =
      .ok ⟨Argument.ofPieces ((pieces d []).modifyHead (read ++ ·)), none, byteLength line,
        (tokens line).length⟩ := by
  obtain ⟨hpos, hget⟩ := List.getElem?_eq_some_iff.1 (getElem?_placedTokens_length line)
  rw [← h, arguments, dif_pos hpos]
  dsimp only
  have hsplit : tokens line = before ++ (read ++ []) := by rw [h, List.append_nil]
  have hlast := lastArgument_eq hsplit d
  rw [← h] at hlast
  rw [hget, hlast]
  rfl

/-- **What is read of the arguments of a call fits the tokens of the line.** -/
theorem exists_arguments {line : List Char} {before read ts : List Token} {d : Nat}
    (h : tokens line = before ++ (read ++ ts)) :
    ∃ r, arguments line (placedTokens line) before.length (before ++ read).length d = .ok r ∧
      r.Fits line before read (untilCloseParen d ts).1 (untilCloseParen d ts).2 d := by
  obtain ⟨g, hg, hline⟩ := exists_sourceText_tokens line
  -- Tokens move from those that are left to those that are read. What stands in front of the
  -- parenthesis stays the same, and with it all places.
  induction ts generalizing before read d with
  | nil =>
    refine ⟨_, arguments_finish (by rw [h, List.append_nil]) d, rfl, rfl, ⟨g, [], hg, ?_, ?_⟩,
      tokens line, ?_, rfl⟩
    · rw [untilCloseParen, ← h, hline, List.append_nil]
    · rw [untilCloseParen, ← h, hline]
    · rw [untilCloseParen, List.append_nil]
  | cons t ts ih =>
    rw [untilCloseParen]
    by_cases hclose : t.kind = .closeParen ∧ d = 0
    · obtain ⟨hclose, rfl⟩ := hclose
      have hmem : t ∈ tokens line := by simp [h]
      refine ⟨_, arguments_closeParen h hclose, ?_⟩
      rw [if_pos ⟨hclose, rfl⟩]
      refine ⟨rfl, rfl, ⟨t.gap, t.text ++ sourceText ts ++ g, isBlank_gap t hmem, ?_, ?_⟩,
        before ++ (read ++ [t]), by simp [h], by simp [Nat.add_assoc]⟩
      · rw [List.append_nil, ← hline, h, ← List.append_assoc, sourceText_append]
        simp [sourceText]
      · rw [List.append_nil]
        rfl
    rw [if_neg hclose]
    by_cases hcomma : t.kind = .comma ∧ d = 0
    · obtain ⟨hcomma, rfl⟩ := hcomma
      have hsplit : tokens line = before ++ (read ++ [t]) ++ ([] ++ ts) := by simp [h]
      obtain ⟨r, hr, hfits⟩ := ih (d := 0) hsplit
      have hdepth : depthAfter 0 t.kind = 0 := by rw [hcomma]; rfl
      rw [hdepth, arguments_comma h hcomma, hr]
      exact ⟨_, rfl, hfits.cons_comma hcomma⟩
    · have hsplit : tokens line = before ++ ((read ++ [t]) ++ ts) := by simp [h]
      obtain ⟨r, hr, hfits⟩ := ih (d := depthAfter d t.kind) hsplit
      exact ⟨r, (arguments_step h hclose hcomma).trans hr, hfits.cons hcomma⟩

/-! ### Calls -/

/-- The text behind the first argument, if there is any, between the place of the comma and that
where the arguments end. -/
def trailing (line : List Char) (comma : Option Nat) (close : Nat) : Except Fault (Option String) :=
  match comma with
  | none => .ok none
  | some place => (slice line place close).map fun s =>
      if (trim s).isEmpty then none else some (String.ofList (trim s))

/-- The call of a name, from the index behind its opening parenthesis on, and the index behind the
call. -/
def call (line : List Char) (ts : List PlacedLexeme) (name : String) (paren : PlacedLexeme)
    (pos : Nat) : Except Fault (Call × Nat) := do
  let r ← arguments line ts pos pos 0
  let raw ← slice line paren.stop r.close
  let rest ← trailing line r.comma r.close
  return (⟨name, r.args, String.ofList (trim raw), rest⟩, r.next)

theorem le_of_call {line : List Char} {ts : List PlacedLexeme} {name : String}
    {paren : PlacedLexeme} {pos : Nat} {r : Call × Nat} (h : call line ts name paren pos = .ok r) :
    pos ≤ r.2 := by
  obtain ⟨args, hargs, h⟩ := exists_of_bind_eq_ok h
  obtain ⟨raw, -, h⟩ := exists_of_bind_eq_ok h
  obtain ⟨rest, -, h⟩ := exists_of_bind_eq_ok h
  obtain rfl := Except.ok.inj h
  exact le_next_of_arguments hargs

/-- Between the place behind some tokens and a place among the blanks behind further ones, these
stand, and blanks. -/
theorem slice_sourceText {line g s : List Char} {front ts : List Token}
    (h : line = sourceText (front ++ ts) ++ g ++ s) :
    slice line (byteLength (sourceText front)) (byteLength (sourceText (front ++ ts) ++ g)) =
      .ok (sourceText ts ++ g) := by
  have hslice := slice_append (sourceText front) (sourceText ts ++ g) s
  rwa [← List.append_assoc, ← List.append_assoc (sourceText front), ← sourceText_append, ← h]
    at hslice

/-- **A call by index** is the one that the tokens behind its parenthesis write, and the index
behind it is that of the tokens which are left. -/
theorem call_eq {line : List Char} {before ts : List Token} {paren : Token} (name : String)
    (h : tokens line = before ++ paren :: ts) :
    ∃ front, tokens line = front ++ (untilCloseParen 0 ts).2 ∧
      call line (placedTokens line) name (placed before paren) (before ++ [paren]).length =
        .ok (Call.ofTokens name (untilCloseParen 0 ts).1, front.length) := by
  have hsplit : tokens line = before ++ [paren] ++ ([] ++ ts) := by simp [h]
  obtain ⟨r, hr, hargs, hcomma, ⟨g, s, hg, hline, hclose⟩, front, hfront, hnext⟩ :=
    exists_arguments (d := 0) hsplit
  generalize (untilCloseParen 0 ts).1 = inside at *
  rw [List.nil_append] at hline hclose hcomma
  rw [List.append_nil] at hr
  -- Both texts end among the blanks behind the arguments, which trimming takes away.
  have hraw : slice line (placed before paren).stop r.close = .ok (sourceText inside ++ g) := by
    rw [hclose]
    exact slice_sourceText hline
  have htrailing : trailing line r.comma r.close =
      .ok (Call.ofTokens name inside).trailingArgs := by
    rw [hcomma, Call.ofTokens]
    cases hafter : afterComma? 0 inside with
    | none => rfl
    | some us =>
      obtain ⟨vs, rfl⟩ := afterComma?_suffix hafter
      rw [← List.append_assoc] at hline hclose ⊢
      rw [Option.map_some, trailing, sourceText_append _ us, byteLength_append, Nat.add_sub_cancel,
        hclose, slice_sourceText hline]
      simp only [Except.map, trim_append_blanks hg, Option.map_some, Option.bind_some]
  refine ⟨front, hfront, ?_⟩
  rw [call, hr]
  dsimp only [bind, Except.bind]
  rw [hraw, htrailing]
  dsimp only
  rw [trim_append_blanks hg, hargs, modifyHead_nil_append, Argument.ofPieces_pieces, hnext]
  rfl

/-! ### What is chained to a receiver -/

/-- The value that is assigned, from an index on. -/
def assignedValue (ts : List PlacedLexeme) (pos : Nat) : Except Fault (List Char) :=
  if _ : pos < ts.length then
    let t := ts[pos]
    if t.lexeme.kind = .semicolon ∨ t.lexeme.kind = .finish then .ok []
    else do
      let s ← if t.lexeme.kind = .quoted then content t.lexeme.text else .ok t.lexeme.text
      let rest ← assignedValue ts (pos + 1)
      return s ++ rest
  else .ok []
termination_by ts.length - pos

/-- Calls in a chain, if there are any. -/
def chainOf (receiver : String) (calls : List Call) : Option Chained :=
  if calls.isEmpty then none else some (.calls ⟨receiver, calls⟩)

/-- What is chained to a receiver, from an index on, behind the calls that are already read. -/
def chainedTo (line : List Char) (ts : List PlacedLexeme) (receiver : String) (calls : List Call)
    (pos : Nat) : Except Fault (Option Chained) :=
  if _ : pos + 2 < ts.length then
    let name := ts[pos + 1]
    let mark := ts[pos + 2]
    if isLink ts[pos].lexeme.kind ∧ name.lexeme.kind = .word then
      if mark.lexeme.kind = .openParen then
        match h : call line ts (String.ofList name.lexeme.text) mark (pos + 3) with
        | .error f => .error f
        | .ok (c, next) => chainedTo line ts receiver (calls ++ [c]) next
      else if mark.lexeme.kind = .equals ∧ calls.isEmpty then
        (assignedValue ts (pos + 3)).map fun value =>
          some (.assignment receiver (String.ofList name.lexeme.text) (String.ofList value))
      else .ok (chainOf receiver calls)
    else .ok (chainOf receiver calls)
  else .ok (chainOf receiver calls)
termination_by ts.length - pos
decreasing_by have := le_of_call h; omega

/-- The value by index is the one that the tokens write. -/
theorem assignedValue_eq {line : List Char} {before ts : List Token}
    (h : tokens line = before ++ ts) : (assignedValue (placedTokens line) before.length).map
      String.ofList = .ok (SchemaHistory.assignedValue ts) := by
  suffices hvalue : assignedValue (placedTokens line) before.length =
      .ok ((ts.takeWhile (·.kind != .semicolon)).flatMap fun t =>
        if t.kind = .quoted then t.lexeme.content else t.text) by
    rw [hvalue]
    rfl
  induction ts generalizing before with
  | nil =>
    obtain ⟨hpos, hget⟩ := List.getElem?_eq_some_iff.1 (getElem?_placedTokens_length line)
    rw [List.append_nil] at h
    rw [← h, assignedValue, dif_pos hpos]
    dsimp only
    rw [hget]
    rfl
  | cons t ts ih =>
    have hmem : t ∈ tokens line := by simp [h]
    obtain ⟨hpos, hget⟩ := exists_getElem h
    have hsplit : tokens line = (before ++ [t]) ++ ts := by simp [h]
    have hrest := ih hsplit
    rw [List.length_append, List.length_singleton] at hrest
    rw [assignedValue, dif_pos hpos]
    dsimp only
    rw [hget, hrest, kind_placed, text_placed]
    by_cases hsemicolon : t.kind = .semicolon
    · rw [if_pos (Or.inl hsemicolon), List.takeWhile_cons_of_neg (by simp [hsemicolon])]
      rfl
    have hfinish : t.kind ≠ .finish := kind_ne_finish (lexeme_mem_of_mem_tokens hmem).1
    rw [if_neg (by simp [hsemicolon, hfinish]),
      List.takeWhile_cons_of_pos (by simp [hsemicolon]), List.flatMap_cons]
    by_cases hquoted : t.kind = .quoted
    · rw [if_pos hquoted, if_pos hquoted, content_of_mem_tokens hmem hquoted]
      rfl
    · rw [if_neg hquoted, if_neg hquoted]
      rfl

/-- What tokens chain to a receiver behind calls that are already read. -/
def chainedBehind (receiver : String) (calls : List Call) (ts : List Token) : Option Chained :=
  if calls.isEmpty then Chained.ofReceiver? receiver ts
  else chainOf receiver (calls ++ Call.sequence ts)

theorem chainedBehind_stop {receiver : String} {calls : List Call} {ts : List Token}
    (hassign : calls.isEmpty → assignment? ts = none) (hcalls : Call.sequence ts = []) :
    chainedBehind receiver calls ts = chainOf receiver calls := by
  by_cases hempty : calls.isEmpty = true
  · rw [chainedBehind, if_pos hempty, Chained.ofReceiver?, hassign hempty, hcalls, chainOf,
      if_pos hempty]
  · rw [chainedBehind, if_neg hempty, hcalls, List.append_nil]

theorem chainedBehind_call {receiver : String} {calls : List Call} {link name paren : Token}
    {rest : List Token}
    (h : isLink link.kind = true ∧ name.kind = .word ∧ paren.kind = .openParen) :
    chainedBehind receiver calls (link :: name :: paren :: rest) =
      chainedBehind receiver
        (calls ++ [Call.ofTokens (String.ofList name.text) (untilCloseParen 0 rest).1])
        (untilCloseParen 0 rest).2 := by
  have hassign : assignment? (link :: name :: paren :: rest) = none := by
    rw [assignment?, if_neg]
    simp [h.2.2]
  have hsequence := Call.sequence.eq_1 link name paren rest
  rw [if_pos h] at hsequence
  have hne : ∀ c, ¬(calls ++ [c]).isEmpty = true := by simp
  rw [chainedBehind, chainedBehind, if_neg (hne _)]
  cases calls with
  | nil =>
    rw [if_pos List.isEmpty_nil, Chained.ofReceiver?, hassign, hsequence]
    rfl
  | cons c calls =>
    rw [if_neg (by simp), hsequence, List.append_assoc, List.singleton_append]

theorem length_placedTokens (line : List Char) :
    (placedTokens line).length = (tokens line).length + 1 := by
  rw [placedTokens_eq_placedBehind, List.length_append, length_placedBehind, List.length_singleton]

/-- Three tokens in a row at their indices. -/
theorem exists_getElem_three {line : List Char} {before ts : List Token} {t u v : Token}
    (h : tokens line = before ++ t :: u :: v :: ts) :
    ∃ hpos : before.length + 2 < (placedTokens line).length,
      (placedTokens line)[before.length] = placed before t ∧
        (placedTokens line)[before.length + 1] = placed (before ++ [t]) u ∧
          (placedTokens line)[before.length + 2] = placed (before ++ [t, u]) v := by
  have hu : tokens line = (before ++ [t]) ++ u :: v :: ts := by simp [h]
  have hv : tokens line = (before ++ [t, u]) ++ v :: ts := by simp [h]
  have hgetu := exists_getElem hu
  have hgetv := exists_getElem hv
  simp only [List.length_append, List.length_cons, List.length_nil, Nat.zero_add] at hgetu hgetv
  exact ⟨hgetv.1, (exists_getElem h).2, hgetu.2, hgetv.2⟩

section Chained

variable {line : List Char} {before ts rest : List Token} {link name mark : Token}

/-- A call is read by its places, and what is chained behind it is read from the index behind it. -/
theorem exists_chainedTo_call (h : tokens line = before ++ link :: name :: mark :: rest)
    (hcall : isLink link.kind = true ∧ name.kind = .word ∧ mark.kind = .openParen)
    (receiver : String) (calls : List Call) :
    ∃ front, tokens line = front ++ (untilCloseParen 0 rest).2 ∧
      chainedTo line (placedTokens line) receiver calls before.length =
        chainedTo line (placedTokens line) receiver
          (calls ++ [Call.ofTokens (String.ofList name.text) (untilCloseParen 0 rest).1])
          front.length := by
  obtain ⟨hpos, hlink, hname, hparen⟩ := exists_getElem_three h
  have hsplit : tokens line = (before ++ [link, name]) ++ mark :: rest := by simp [h]
  obtain ⟨front, hfront, heq⟩ := call_eq (String.ofList name.text) hsplit
  have hindex : (before ++ [link, name] ++ [mark]).length = before.length + 3 := by simp
  rw [hindex] at heq
  refine ⟨front, hfront, ?_⟩
  rw [chainedTo, dif_pos hpos]
  dsimp only
  rw [hlink, hname, hparen, kind_placed, kind_placed, kind_placed, text_placed,
    if_pos ⟨hcall.1, hcall.2.1⟩, if_pos hcall.2.2]
  split
  · rename_i herror
    exact absurd (herror.symm.trans heq) (by simp)
  · rename_i c next hok
    obtain ⟨rfl, rfl⟩ := Prod.mk.inj (Except.ok.inj (hok.symm.trans heq))
    rfl

/-- Three tokens that are no call end a chain, and start none but an assignment. -/
theorem chainedTo_of_not_call (h : tokens line = before ++ link :: name :: mark :: rest)
    (hcall : ¬(isLink link.kind = true ∧ name.kind = .word ∧ mark.kind = .openParen))
    (receiver : String) (calls : List Call) :
    chainedTo line (placedTokens line) receiver calls before.length =
      .ok (chainedBehind receiver calls (link :: name :: mark :: rest)) := by
  obtain ⟨hpos, hlink, hname, hmark⟩ := exists_getElem_three h
  have hsequence : Call.sequence (link :: name :: mark :: rest) = [] := by
    rw [Call.sequence, if_neg hcall]
  rw [chainedTo, dif_pos hpos]
  dsimp only
  rw [hlink, hname, hmark, kind_placed, kind_placed, kind_placed, text_placed]
  by_cases hhead : isLink link.kind = true ∧ name.kind = .word
  · rw [if_pos hhead, if_neg fun hparen => hcall ⟨hhead.1, hhead.2, hparen⟩]
    by_cases hassign : mark.kind = .equals ∧ calls.isEmpty = true
    · have hsplit : tokens line = (before ++ [link, name, mark]) ++ rest := by simp [h]
      obtain ⟨s, hs, hvalue⟩ := exists_of_map_eq_ok (assignedValue_eq hsplit)
      have hindex : (before ++ [link, name, mark]).length = before.length + 3 := by simp
      rw [hindex] at hs
      rw [if_pos hassign, hs, chainedBehind, if_pos hassign.2, Chained.ofReceiver?, assignment?,
        if_pos ⟨hhead.1, hhead.2, hassign.1⟩, ← hvalue]
      rfl
    · rw [if_neg hassign, chainedBehind_stop (fun hempty => ?_) hsequence]
      rw [assignment?, if_neg fun hmark => hassign ⟨hmark.2.2, hempty⟩]
  · rw [if_neg hhead, chainedBehind_stop (fun _ => ?_) hsequence]
    rw [assignment?, if_neg fun hmark => hhead ⟨hmark.1, hmark.2.1⟩]

/-- Less than three tokens end a chain. -/
theorem chainedTo_short (h : tokens line = before ++ ts)
    (hshort : ∀ t u v rest, ts = t :: u :: v :: rest → False)
    (receiver : String) (calls : List Call) :
    chainedTo line (placedTokens line) receiver calls before.length =
      .ok (chainOf receiver calls) := by
  have hlength : (placedTokens line).length = before.length + ts.length + 1 := by
    rw [length_placedTokens, h, List.length_append]
  rw [chainedTo]
  obtain _ | ⟨t, _ | ⟨u, _ | ⟨v, rest⟩⟩⟩ := ts
  · rw [dif_neg (by simp [hlength])]
  · rw [dif_neg (by simp [hlength])]
  · -- What would be the third token is the end of the line.
    obtain ⟨hpos, hfinish⟩ : ∃ hpos : before.length + 2 < (placedTokens line).length,
        (placedTokens line)[before.length + 2] = finishAt (byteLength line) := by
      have hfinish := getElem?_placedTokens_length line
      rw [h, List.length_append] at hfinish
      exact List.getElem?_eq_some_iff.1 hfinish
    rw [dif_pos hpos]
    dsimp only
    rw [hfinish]
    split <;> rfl
  · exact absurd rfl (hshort t u v rest)

/-- **What is chained to a receiver, from an index on**, is what the tokens from there on chain to
it. -/
theorem chainedTo_eq (h : tokens line = before ++ ts) (receiver : String) (calls : List Call) :
    chainedTo line (placedTokens line) receiver calls before.length =
      .ok (chainedBehind receiver calls ts) := by
  induction ts using Call.sequence.induct generalizing before calls with
  | case1 link name paren rest hcall ih =>
    obtain ⟨front, hfront, heq⟩ := exists_chainedTo_call h hcall receiver calls
    rw [heq, ih hfront, chainedBehind_call hcall]
  | case2 link name mark rest hcall => exact chainedTo_of_not_call h hcall receiver calls
  | case3 ts hshort =>
    have hassign : assignment? ts = none := by
      rw [assignment?]
      exact hshort
    have hsequence : Call.sequence ts = [] := by
      rw [Call.sequence]
      exact hshort
    rw [chainedTo_short h hshort, chainedBehind_stop (fun _ => hassign) hsequence]

end Chained

/-! ### Receivers -/

/-- The index of the first token that, together with the one after it, satisfies a test. -/
def pairAt? (q : Lexeme → Lexeme → Bool) : List PlacedLexeme → Option Nat
  | t :: u :: rest => if q t.lexeme u.lexeme then some 0 else (pairAt? q (u :: rest)).map (· + 1)
  | _ => none

/-- What is chained to the first token that, together with the one after it, satisfies a test. -/
def chained (q : Lexeme → Lexeme → Bool) (line : List Char) (ts : List PlacedLexeme) :
    Except Fault (Option Chained) :=
  match pairAt? q ts with
  | none => .ok none
  | some pos =>
    match ts[pos]? with
    | none => .error (.index pos)
    | some t => chainedTo line ts (String.ofList t.lexeme.text) [] (pos + 1)

/-- A pair of tokens is found at the index where the tokens in front of it end, as the `finish`
makes no pair with the last one. -/
theorem pairAt?_placedBehind {q : Lexeme → Lexeme → Bool} (hq : ∀ l, q l ⟨.finish, []⟩ = false)
    (before ts : List Token) (n : Nat) :
    (findReceiver? (fun t u => q t.lexeme u.lexeme) ts = none ∧
        pairAt? q (placedBehind before ts ++ [finishAt n]) = none) ∨
      ∃ front t rest, ts = front ++ t :: rest ∧
        findReceiver? (fun t u => q t.lexeme u.lexeme) ts = some (t, rest) ∧
        pairAt? q (placedBehind before ts ++ [finishAt n]) = some front.length := by
  induction ts generalizing before with
  | nil => exact Or.inl ⟨rfl, rfl⟩
  | cons t ts ih =>
    cases ts with
    | nil =>
      have hpair : q (placed before t).lexeme (finishAt n).lexeme = false := hq _
      refine Or.inl ⟨rfl, ?_⟩
      rw [placedBehind_cons]
      dsimp only [placedBehind, placeTokens, List.cons_append, List.nil_append]
      rw [pairAt?, hpair]
      rfl
    | cons u rest =>
      have hrest := ih (before ++ [t])
      rw [placedBehind_cons, List.cons_append] at hrest
      rw [placedBehind_cons, placedBehind_cons, List.cons_append, List.cons_append, pairAt?,
        lexeme_placed, lexeme_placed, findReceiver?]
      by_cases hpair : q t.lexeme u.lexeme = true
      · exact Or.inr ⟨[], t, u :: rest, rfl, if_pos hpair, if_pos hpair⟩
      · rw [if_neg hpair, if_neg hpair]
        rcases hrest with ⟨hnone, hpairAt⟩ | ⟨front, v, us, hsplit, hsome, hpairAt⟩
        · exact Or.inl ⟨hnone, by rw [hpairAt]; rfl⟩
        · refine Or.inr ⟨t :: front, v, us, by rw [hsplit]; rfl, hsome, ?_⟩
          rw [hpairAt]
          rfl

/-- **What is chained to the first token of a kind by index** is what the tokens behind it chain to
it. -/
theorem chained_eq {q : Lexeme → Lexeme → Bool} (hq : ∀ l, q l ⟨.finish, []⟩ = false)
    (line : List Char) : chained q line (placedTokens line) =
      .ok ((findReceiver? (fun t u => q t.lexeme u.lexeme) (tokens line)).bind fun r =>
        Chained.ofReceiver? (String.ofList r.1.text) r.2) := by
  have hplaced := placedTokens_eq_placedBehind line
  rw [chained]
  rcases pairAt?_placedBehind hq [] (tokens line) (byteLength line) with
    ⟨hnone, hpair⟩ | ⟨front, t, rest, hsplit, hsome, hpair⟩
  · rw [hnone, hplaced, hpair]
    rfl
  · have hbehind : tokens line = (front ++ [t]) ++ rest := by simp [hsplit]
    have hchained := chainedTo_eq hbehind (String.ofList t.text) []
    rw [List.length_append, List.length_singleton] at hchained
    rw [hsome, hplaced, hpair, ← hplaced]
    dsimp only
    rw [getElem?_placedTokens hsplit]
    exact hchained

end ByPlace

end SchemaHistory

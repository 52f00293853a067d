import SchemaHistory.Proofs.ScannedTokens
import SchemaHistory.Proofs.WrittenChains

/-!
# Arguments by index

`SchemaHistory.Argument.ofTokens` is given the tokens of an argument and takes them apart. A reader
by places has all tokens of the line in front of it and is given two **indices** instead, and for an
array it goes on between two other ones, which it computes. So it can ask for a stretch of tokens
that is not there, or for a token behind the last one; and as an array is read with the help of its
items, which may be arrays again, it is not obvious that it comes to an end. It does since the
second index is smaller each time that brackets are taken off, and the first one is greater each
time that an item is read.

The indices are all right because they only ever name *beginnings of the tokens of the line*. If
these are split into three stretches, then the lengths in front of and behind the middle one are its
indices, and the bytes that they take are its places; from there on the argument is read as it is
from the middle stretch alone (`SchemaHistory.ByPlace.argument_eq`).
-/

namespace SchemaHistory

open Source Text

namespace Source

theorem sourceText_append (ts us : List Token) :
    sourceText (ts ++ us) = sourceText ts ++ sourceText us :=
  List.flatMap_append

theorem sourceText_concat (ts : List Token) (t : Token) :
    sourceText (ts ++ [t]) = sourceText ts ++ (t.gap ++ t.text) := by
  rw [sourceText_append]
  simp [sourceText]

/-- Behind a token that is no comma outside of brackets, the piece that it belongs to goes on. -/
theorem pieces_cons {d : Nat} {t : Token} (ht : ¬(t.kind = .comma ∧ d = 0)) (ts : List Token) :
    pieces d (t :: ts) = (pieces (depthAfter d t.kind) ts).modifyHead (t :: ·) := by
  have h : NoComma d ([t].map Token.kind) := ⟨ht, trivial⟩
  exact h.pieces_append ts

end Source

namespace ByPlace

/-! ### Tokens at their places -/

/-- A token at its place behind others. -/
def placed (before : List Token) (t : Token) : PlacedLexeme :=
  ⟨t.lexeme, byteLength (sourceText before ++ t.gap), byteLength (sourceText (before ++ [t]))⟩

@[simp] theorem lexeme_placed (before : List Token) (t : Token) :
    (placed before t).lexeme = t.lexeme := rfl

@[simp] theorem kind_placed (before : List Token) (t : Token) :
    (placed before t).lexeme.kind = t.kind := rfl

@[simp] theorem text_placed (before : List Token) (t : Token) :
    (placed before t).lexeme.text = t.text := rfl

/-- Tokens at their places behind others. -/
def placedBehind (before ts : List Token) : List PlacedLexeme :=
  placeTokens (byteLength (sourceText before)) ts

theorem placedBehind_cons (before : List Token) (t : Token) (ts : List Token) :
    placedBehind before (t :: ts) = placed before t :: placedBehind (before ++ [t]) ts := by
  rw [placedBehind, placeTokens, placed, placedBehind, sourceText_concat, byteLength_append,
    byteLength_append, byteLength_append, Nat.add_assoc]

theorem placedBehind_append (before ts us : List Token) :
    placedBehind before (ts ++ us) = placedBehind before ts ++ placedBehind (before ++ ts) us := by
  induction ts generalizing before with
  | nil => rw [List.nil_append, List.append_nil]; rfl
  | cons t ts ih =>
    rw [List.cons_append, placedBehind_cons, placedBehind_cons, ih, List.append_assoc]
    rfl

@[simp] theorem length_placedBehind (before ts : List Token) :
    (placedBehind before ts).length = ts.length := by
  induction ts generalizing before with
  | nil => rfl
  | cons t ts ih => rw [placedBehind_cons, List.length_cons, ih, List.length_cons]

theorem placedTokens_eq_placedBehind (line : List Char) :
    placedTokens line = placedBehind [] (tokens line) ++ [finishAt (byteLength line)] := rfl

/-- The tokens of a line at their places, split where the line is. -/
theorem placedTokens_append {line : List Char} {before ts : List Token}
    (h : tokens line = before ++ ts) : placedTokens line =
      placedBehind [] before ++ (placedBehind before ts ++ [finishAt (byteLength line)]) := by
  rw [placedTokens_eq_placedBehind, h, placedBehind_append, List.append_assoc]
  rfl

/-- **The token at an index**: what follows the tokens in front of it. -/
theorem getElem?_placedTokens {line : List Char} {before ts : List Token} {t : Token}
    (h : tokens line = before ++ t :: ts) :
    (placedTokens line)[before.length]? = some (placed before t) := by
  have hlength := length_placedBehind [] before
  rw [placedTokens_append h, List.getElem?_append_right (Nat.le_of_eq hlength), hlength,
    Nat.sub_self, placedBehind_cons]
  rfl

/-- Behind all tokens there is the `finish`. -/
theorem getElem?_placedTokens_length (line : List Char) :
    (placedTokens line)[(tokens line).length]? = some (finishAt (byteLength line)) := by
  have hlength := length_placedBehind [] (tokens line)
  rw [placedTokens_append (List.append_nil _).symm,
    List.getElem?_append_right (Nat.le_of_eq hlength), hlength, Nat.sub_self]
  rfl

/-! ### Stretches of tokens -/

/-- The tokens from one index to another. -/
def stretch (ts : List PlacedLexeme) (start stop : Nat) : Except Fault (List PlacedLexeme) :=
  if start ≤ stop ∧ stop ≤ ts.length then .ok ((ts.take stop).drop start)
  else .error (.stretch start stop)

section

variable {line : List Char} {before ts behind : List Token}
  (h : tokens line = before ++ (ts ++ behind))
include h

/-- **The stretch between the lengths of two beginnings.** -/
theorem stretch_placedTokens :
    stretch (placedTokens line) before.length (before ++ ts).length =
      .ok (placedBehind before ts) := by
  have hsplit : placedTokens line =
      (placedBehind [] before ++ placedBehind before ts) ++
        (placedBehind (before ++ ts) behind ++ [finishAt (byteLength line)]) := by
    rw [placedTokens_append h, placedBehind_append, List.append_assoc, List.append_assoc]
  have hlength : (placedBehind [] before ++ placedBehind before ts).length =
      (before ++ ts).length := by simp
  have hrange : before.length ≤ (before ++ ts).length ∧
      (before ++ ts).length ≤ (placedTokens line).length := by
    rw [hsplit]
    simp
  rw [stretch, if_pos hrange, hsplit, List.take_left' hlength,
    List.drop_left' (length_placedBehind [] before)]

/-- The text of a stretch, from the start of its first token, is what the line has there. -/
theorem slice_textFromFirst {t : Token} {us : List Token} (hts : ts = t :: us) :
    slice line (placed before t).start (byteLength (sourceText (before ++ ts))) =
      .ok (textFromFirst ts) := by
  obtain ⟨g, -, hline⟩ := exists_sourceText_tokens line
  have htext : sourceText ts = t.gap ++ textFromFirst ts := by
    rw [hts, textFromFirst, sourceText, List.flatMap_cons, List.append_assoc]
    rfl
  have hslice := slice_append (sourceText before ++ t.gap) (textFromFirst ts)
    (sourceText behind ++ g)
  have hfront : sourceText before ++ t.gap ++ textFromFirst ts = sourceText (before ++ ts) := by
    rw [sourceText_append, htext, List.append_assoc]
  have hwhole : sourceText before ++ t.gap ++ (textFromFirst ts ++ (sourceText behind ++ g)) =
      line := by
    rw [← List.append_assoc, hfront, ← hline, h, ← List.append_assoc before, ← List.append_assoc,
      ← sourceText_append]
  rwa [hwhole, hfront] at hslice

end

theorem getLast_placedBehind {before ts : List Token} (hne : ts ≠ [])
    (hne' : placedBehind before ts ≠ []) :
    ((placedBehind before ts).getLast hne').lexeme = (ts.getLast hne).lexeme ∧
      ((placedBehind before ts).getLast hne').stop = byteLength (sourceText (before ++ ts)) := by
  obtain ⟨us, t, rfl⟩ : ∃ us t, ts = us ++ [t] := ⟨_, _, (List.dropLast_append_getLast hne).symm⟩
  have hlast : placedBehind before (us ++ [t]) =
      placedBehind before us ++ [placed (before ++ us) t] := by
    rw [placedBehind_append, placedBehind_cons]
    rfl
  simp only [hlast, List.getLast_concat, placed, List.append_assoc, and_self]

/-! ### Arguments -/

mutual

/-- The argument that the tokens from one index to another write. -/
def argument (line : List Char) (ts : List PlacedLexeme) (start stop : Nat) :
    Except Fault Argument :=
  match stretch ts start stop with
  | .error f => .error f
  | .ok [] => .ok (.raw "")
  | .ok [t] =>
    if t.lexeme.kind = .quoted then
      (content t.lexeme.text).map fun s => .string (String.ofList s)
    else .ok (.raw (String.ofList t.lexeme.text))
  | .ok (t :: u :: rest) =>
    let last := (u :: rest).getLast (by simp)
    if t.lexeme.kind = .openBracket ∧ last.lexeme.kind = .closeBracket then
      -- Without the brackets there has to be a range again. Its end is smaller, so this goes on
      -- only so many times.
      if _ : 1 ≤ stop ∧ start + 1 ≤ stop - 1 then
        (items line ts (start + 1) (start + 1) 0 (stop - 1)).map .array
      else .error (.stretch (start + 1) (stop - 1))
    else (slice line t.start last.stop).map fun s => .raw (String.ofList s)
termination_by (stop, 0, 0)

/-- The items of an array, from the one that begins at the first index, of which the tokens up to
the second index are already read. Items without tokens are left out. -/
def items (line : List Char) (ts : List PlacedLexeme) (start index depth stop : Nat) :
    Except Fault (List Argument) :=
  if _ : index < stop then
    match ts[index]? with
    | none => .error (.index index)
    | some t =>
      if t.lexeme.kind = .comma ∧ depth = 0 then
        if start < index then
          match argument line ts start index with
          | .error f => .error f
          | .ok a => (items line ts (index + 1) (index + 1) 0 stop).map (a :: ·)
        else items line ts (index + 1) (index + 1) 0 stop
      else items line ts start (index + 1) (depthAfter depth t.lexeme.kind) stop
  else if start < stop then (argument line ts start stop).map ([·])
  else .ok []
termination_by (stop, 1, stop - index)

end

theorem length_read_concat (before read : List Token) (t : Token) :
    (before ++ (read ++ [t])).length = (before ++ read).length + 1 := by
  simp [Nat.add_assoc]

theorem modifyHead_nil_append (ps : List (List Token)) : ps.modifyHead ([] ++ ·) = ps := by
  cases ps <;> rfl

/-- **The items between two indices**, if each argument that is no longer than they are together is
read as it should. The tokens of the first item that are already read stand in front of the first
piece of the rest. -/
theorem items_eq {line : List Char} {n : Nat}
    (harg : ∀ before ts behind, ts.length ≤ n → tokens line = before ++ (ts ++ behind) →
      argument line (placedTokens line) before.length (before ++ ts).length = .ok (.ofTokens ts))
    {before read ts behind : List Token} {d : Nat} (hn : (read ++ ts).length ≤ n)
    (h : tokens line = before ++ (read ++ (ts ++ behind))) :
    items line (placedTokens line) before.length (before ++ read).length d
        (before ++ (read ++ ts)).length =
      .ok ((((pieces d ts).modifyHead (read ++ ·)).filter (!·.isEmpty)).map Argument.ofTokens) := by
  induction ts generalizing before read d with
  | nil =>
    rw [items, List.append_nil, dif_neg (Nat.lt_irrefl _), pieces, List.modifyHead_cons,
      List.append_nil]
    cases read with
    | nil => rw [List.append_nil, if_neg (Nat.lt_irrefl _)]; rfl
    | cons t read =>
      rw [if_pos (by simp), harg before (t :: read) behind (by simpa using hn) h]
      rfl
  | cons t ts ih =>
    have hget : (placedTokens line)[(before ++ read).length]? = some (placed (before ++ read) t) :=
      getElem?_placedTokens (by rw [h, List.append_assoc, List.cons_append])
    rw [items, dif_pos (by simp), hget]
    dsimp only
    rw [kind_placed]
    -- In both cases the loop goes on with one token less in front of it. The stretch that it goes
    -- over is the same, but it is split elsewhere.
    by_cases hcomma : t.kind = .comma ∧ d = 0
    · -- The comma ends the item that is read, and the next one begins behind it.
      have hsplit : tokens line = before ++ (read ++ [t]) ++ ([] ++ (ts ++ behind)) := by simp [h]
      have hrest := ih (d := 0) (by simp at hn ⊢; omega) hsplit
      have hstop : (before ++ (read ++ [t]) ++ ([] ++ ts)).length =
          (before ++ (read ++ t :: ts)).length := by simp
      rw [List.append_nil, length_read_concat, hstop, modifyHead_nil_append] at hrest
      rw [if_pos hcomma, hrest, pieces, if_pos hcomma, List.modifyHead_cons, List.append_nil]
      cases read with
      | nil =>
        rw [List.append_nil, if_neg (Nat.lt_irrefl _)]
        rfl
      | cons u read =>
        rw [if_pos (by simp), harg before (u :: read) (t :: (ts ++ behind))
          (by simp at hn ⊢; omega) (by simp [h])]
        rfl
    · have hsplit : tokens line = before ++ ((read ++ [t]) ++ (ts ++ behind)) := by simp [h]
      have hrest := ih (d := depthAfter d t.kind) (by simpa using hn) hsplit
      rw [length_read_concat, List.append_assoc read] at hrest
      rw [if_neg hcomma, ← List.singleton_append, hrest, List.singleton_append, pieces_cons hcomma]
      simp [List.modifyHead_modifyHead, Function.comp_def]

theorem argument_singleton {line : List Char} {before behind : List Token} {t : Token}
    (h : tokens line = before ++ ([t] ++ behind)) :
    argument line (placedTokens line) before.length (before ++ [t]).length =
      .ok (Argument.ofTokens [t]) := by
  rw [argument, stretch_placedTokens h, placedBehind_cons, Argument.ofTokens]
  dsimp only [placedBehind, placeTokens]
  rw [kind_placed, text_placed]
  by_cases hquoted : t.kind = .quoted
  · have hmem : t ∈ tokens line := by simp [h]
    rw [if_pos hquoted, if_pos hquoted, content_of_mem_tokens hmem hquoted]
    rfl
  · rw [if_neg hquoted, if_neg hquoted]

/-- Of two tokens or more, the first and the last one decide what is read, and brackets leave a
range between them. -/
theorem argument_cons_cons {line : List Char} {before rest behind : List Token} {t u : Token}
    (h : tokens line = before ++ (t :: u :: rest ++ behind)) :
    argument line (placedTokens line) before.length (before ++ t :: u :: rest).length =
      if t.kind = .openBracket ∧
          ((u :: rest).getLast (List.cons_ne_nil u rest)).kind = .closeBracket then
        (items line (placedTokens line) (before.length + 1) (before.length + 1) 0
          ((before ++ t :: u :: rest).length - 1)).map .array
      else .ok (.raw (String.ofList (textFromFirst (t :: u :: rest)))) := by
  have hne : placedBehind (before ++ [t]) (u :: rest) ≠ [] := by simp [placedBehind_cons]
  obtain ⟨hlexeme, hstop⟩ := getLast_placedBehind (List.cons_ne_nil u rest) hne
  simp only [placedBehind_cons (before ++ [t])] at hlexeme hstop
  have hrange : 1 ≤ (before ++ t :: u :: rest).length ∧
      before.length + 1 ≤ (before ++ t :: u :: rest).length - 1 := by
    simp
    omega
  rw [argument, stretch_placedTokens h, placedBehind_cons, placedBehind_cons]
  dsimp only
  rw [hlexeme, hstop, kind_placed, ← Token.kind, dif_pos hrange, List.append_assoc,
    List.singleton_append, slice_textFromFirst h rfl]
  rfl

/-- **The argument between two indices** is the one that the tokens there write. -/
theorem argument_eq {line : List Char} {before ts behind : List Token}
    (h : tokens line = before ++ (ts ++ behind)) :
    argument line (placedTokens line) before.length (before ++ ts).length =
      .ok (Argument.ofTokens ts) := by
  induction hn : ts.length using Nat.strong_induction_on generalizing before ts behind with
  | _ n ih =>
    match ts with
    | [] =>
      rw [argument, stretch_placedTokens h, Argument.ofTokens]
      rfl
    | [t] => exact argument_singleton h
    | t :: u :: rest =>
      rw [argument_cons_cons h]
      obtain ⟨inner, c, hinner⟩ : ∃ inner c, u :: rest = inner ++ [c] :=
        ⟨_, _, (List.dropLast_append_getLast (List.cons_ne_nil u rest)).symm⟩
      by_cases harray : t.kind = .openBracket ∧
          ((u :: rest).getLast (List.cons_ne_nil u rest)).kind = .closeBracket
      · -- The items are between the brackets, so each of them is shorter than the whole.
        rw [if_pos harray]
        simp only [hinner, List.getLast_concat] at harray h hn ⊢
        have hsplit : tokens line = before ++ [t] ++ ([] ++ (inner ++ c :: behind)) := by simp [h]
        have hitems := items_eq (d := 0) (fun before' ts behind' hle h' =>
          ih ts.length (by simp at hn; omega) h' rfl) (Nat.le_refl inner.length) hsplit
        have hstart : (before ++ [t]).length = before.length + 1 := by simp
        have hstop : (before ++ [t] ++ ([] ++ inner)).length =
            (before ++ t :: (inner ++ [c])).length - 1 := by simp
        rw [List.append_nil, hstart, hstop] at hitems
        rw [hitems, Argument.ofTokens_brackets harray.1 harray.2, modifyHead_nil_append]
        rfl
      · rw [if_neg harray, Argument.ofTokens, if_neg harray]

end ByPlace

end SchemaHistory

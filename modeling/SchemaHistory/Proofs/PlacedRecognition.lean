import SchemaHistory.Proofs.AlterStatements
import SchemaHistory.Proofs.PlacedChains

/-!
# Recognition by places never fails

Put together, the readers by places recognise logical lines (`SchemaHistory.ByPlace.recognize`).
Each of them counts bytes and indices, adds and subtracts one, and asks for what is there; and each
of them **fails** where there is nothing: on a slice that is out of range or cuts a character in
two, on a stretch of tokens whose end lies in front of its start or behind the last token, on a
token that is missing inside of a stretch, and on a difference below zero. In particular a slice has
no empty text to fall back on.

On no line does any of this happen, whatever its brackets, its quotes and its characters are, inside
the block of a table or not: the line is recognised, and as the same statement as by the readers
that never count (`SchemaHistory.ByPlace.recognize_never_fails`). What is left to be seen for it are
the splits of a raw alteration. They are made in front of the first character of a class, and behind
the first closing parenthesis, which is one byte long.
-/

namespace SchemaHistory

open Source Text

namespace ByPlace

/-! ### Raw alterations -/

/-- The first word of a text, without backticks, and what follows it. -/
def splitWord (s : List Char) : Except Fault (List Char × List Char) := do
  let stop := (firstByte? Alteration.endsWord s).getD (byteLength s)
  let word ← slice s 0 stop
  let after ← slice s stop (byteLength s)
  return (Alteration.trimTicks word, after)

/-- The new name of a statement that may give one, and the definition. -/
def splitNewName (change : Bool) (s : List Char) : Except Fault (Option (List Char) × List Char) :=
  if change then do
    let r ← splitWord s
    return if Alteration.isNewName r.1 r.2 then (some r.1, trimStart r.2) else (none, s)
  else .ok (none, s)

/-- Parameters, if there are any. -/
def parameters? (s : List Char) : Option (List Char) :=
  if (trim s).isEmpty then none else some (trim s)

/-- The parameters, up to the first closing parenthesis, and the attributes behind them. -/
def splitParameters (s : List Char) : Except Fault (Option (List Char) × List Char) :=
  match trimStart s with
  | '(' :: inner =>
    match firstByte? (· == ')') inner with
    | some stop => do
      let parameters ← slice inner 0 stop
      let attributes ← slice inner (stop + 1) (byteLength inner)
      return (parameters? parameters, attributes)
    | none => .ok (parameters? inner, [])
  | s => .ok (none, s)

/-- The alteration that a match describes, if it names a type. -/
def ofMatch? (m : Alteration.Match) : Except Fault (Option Alteration) := do
  let tail := trimStart (m.tail.takeWhile fun c => !Alteration.endsStatement c)
  let name ← splitNewName m.change tail
  let type ← splitWord name.2
  if type.1.isEmpty then return none
  else
    let r ← splitParameters type.2
    return some {
      table := String.ofList m.table
      column := String.ofList m.column
      renamed := name.1.map String.ofList
      sqlType := String.ofList type.1
      parameters := r.1.map String.ofList
      attributes := String.ofList (trim r.2) }

/-- The alteration that the first match on a line describes. -/
def alteration? (line : List Char) : Except Fault (Option Alteration) :=
  match firstMatch? Alteration.match? line with
  | none => .ok none
  | some m => ofMatch? m

theorem splitWord_eq (s : List Char) : splitWord s = .ok (Alteration.splitWord s) := by
  rw [splitWord]
  cases hfirst : firstByte? Alteration.endsWord s with
  | none =>
    have hall := firstByte?_eq_none_iff.1 hfirst
    have hword := slice_zero s []
    have hafter := slice_to_end s []
    have hsplit := Sql.splitWord_append hall (s := []) (by simp)
    rw [List.append_nil] at hword hafter hsplit
    rw [Option.getD_none, hword, hafter, hsplit]
    rfl
  | some n =>
    obtain ⟨a, c, b, rfl, ha, hc, rfl⟩ := exists_of_firstByte? hfirst
    have hsplit := Sql.splitWord_append ha (s := c :: b) (by simpa using hc)
    rw [Option.getD_some, slice_zero, slice_to_end, hsplit]
    rfl

theorem splitNewName_eq (change : Bool) (s : List Char) :
    splitNewName change s = .ok (Alteration.splitNewName change s) := by
  rw [splitNewName, Alteration.splitNewName, splitWord_eq]
  cases change <;> rfl

theorem splitParameters_eq (s : List Char) :
    splitParameters s = .ok (Alteration.splitParameters s) := by
  rw [splitParameters]
  split
  · rename_i inner hstart
    have htrimmed : trimStart ('(' :: inner) = '(' :: inner := trimStart_of_head (by simp; decide)
    have hmodel : Alteration.splitParameters s = Alteration.splitParameters ('(' :: inner) := by
      rw [Alteration.splitParameters, Alteration.splitParameters, hstart, htrimmed]
    rw [hmodel]
    cases hfirst : firstByte? (· == ')') inner with
    | none =>
      have hall : ∀ c ∈ inner, c ≠ ')' := by simpa using firstByte?_eq_none_iff.1 hfirst
      have hsplit := Sql.splitParameters_append hall (s := []) (by simp)
      rw [List.append_nil] at hsplit
      rw [hsplit]
      rfl
    | some n =>
      obtain ⟨a, c, b, rfl, ha, hc, rfl⟩ := exists_of_firstByte? hfirst
      obtain rfl : c = ')' := by simpa using hc
      have hsplit := Sql.splitParameters_append (fun c hc => by simpa using ha c hc)
        (s := ')' :: b) (by simp)
      have hbehind : slice (a ++ ')' :: b) (byteLength a + 1) (byteLength (a ++ ')' :: b)) =
          .ok b := by
        have hslice := slice_to_end (a ++ [')']) b
        rwa [byteLength_append, List.append_assoc] at hslice
      dsimp only
      rw [slice_zero, hbehind, hsplit]
      rfl
  · rename_i hother
    rw [Alteration.splitParameters]
    split
    · rename_i inner hstart
      exact absurd hstart (hother inner)
    · rfl

theorem alteration?_eq (line : List Char) : alteration? line = .ok (Alteration.parse? line) := by
  rw [alteration?, Alteration.parse?]
  cases firstMatch? Alteration.match? line with
  | none => rfl
  | some m =>
    unfold ofMatch? Alteration.ofMatch?
    rw [Option.bind_some]
    dsimp only
    rw [splitNewName_eq]
    dsimp only [bind, Except.bind]
    rw [splitWord_eq]
    dsimp only
    split
    · rfl
    · rw [splitParameters_eq]
      rfl

/-! ### Lines -/

/-- The calls on the first mention of a class that a double colon follows. -/
def ofClass? (name : String) (line : List Char) (ts : List PlacedLexeme) :
    Except Fault (Option Chain) :=
  (chained (fun l m => l.kind == .word && namesClass name.toList l.text && m.kind == .doubleColon)
    line ts).map (·.bind Chained.chain?)

/-- What is chained to the first variable that an arrow follows. -/
def ofVariable? (line : List Char) (ts : List PlacedLexeme) : Except Fault (Option Chained) :=
  chained (fun l m => l.kind == .variable && m.kind == .arrow) line ts

theorem ofClass?_eq (name : String) (line : List Char) :
    ofClass? name line (placedTokens line) = .ok (Chain.ofClass? name (tokens line)) := by
  rw [ofClass?, chained_eq (by simp), Except.map, Option.bind_assoc]
  refine congrArg Except.ok (congrArg (Option.bind _) (funext fun r => ?_))
  cases Chained.ofReceiver? (String.ofList r.1.text) r.2 with
  | none => rfl
  | some c => cases c <;> rfl

theorem ofVariable?_eq (line : List Char) :
    ofVariable? line (placedTokens line) = .ok (Chained.ofVariable? (tokens line)) :=
  chained_eq (by simp) line

open Statement in
/-- **Recognises** a logical line by bytes and indices. -/
def recognize (line : List Char) (inTable : Bool) (location : Location) :
    Except Fault (Except Failure (Option Statement)) :=
  if opensDown line then .ok (.ok (some downBoundary))
  else if line.contains '\x7d' then .ok (.ok (some blockClose))
  else do
    match ← alteration? line with
    | some a => return .ok (some (.alteration a))
    | none =>
      let ts ← scan line (.ofText line)
      match ← ofClass? "Schema" line ts with
      | some chain => return (ofSchemaChain chain location).map some
      | none =>
        if inTable then return .ok ((← ofVariable? line ts).map ofChained)
        else return .ok none

/-- **Recognition by places never fails.** For every line, inside the block of a table or not, and
for every location, each slice, stretch, index and difference that is asked for is there, and the
line is recognised as it is by the readers that never count. -/
theorem recognize_never_fails (line : List Char) (inTable : Bool) (location : Location) :
    recognize line inTable location = .ok (Statement.recognize line inTable location) := by
  rw [recognize, Statement.recognize]
  split
  · rfl
  split
  · rfl
  rw [alteration?_eq]
  cases Alteration.parse? line with
  | some a => rfl
  | none =>
    dsimp only [bind, Except.bind]
    rw [scan_eq]
    dsimp only
    rw [ofClass?_eq]
    cases Chain.ofClass? "Schema" (tokens line) with
    | some chain => rfl
    | none =>
      dsimp only
      rw [ofVariable?_eq]
      cases inTable <;> rfl

end ByPlace

end SchemaHistory

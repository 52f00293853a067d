import SchemaHistory.Chain
import SchemaHistory.Source.Token

/-!
# Reading chains

A chain is read from the tokens of a logical line. It starts at the first variable that an arrow
follows, or at the first mention of a class that a double colon follows; whatever stands before is
passed over. From there, links of the form *arrow, name, argument list* are taken as long as they
come.

An argument list goes to its closing parenthesis, or to the end of the line if that is missing.
Brackets of all shapes nest, and arguments are separated by the commas outside all of them.
-/

namespace SchemaHistory

open Source Text

/-- The **argument** that a stretch of tokens writes. -/
def Argument.ofTokens (ts : List Token) : Argument :=
  match ts with
  | [] => .raw ""
  | [t] =>
    if t.kind = .quoted then .string (String.ofList t.lexeme.content)
    else .raw (String.ofList t.text)
  | t :: u :: rest =>
    if t.kind = .openBracket ∧ ((u :: rest).getLast (by simp)).kind = .closeBracket then
      .array (((pieces 0 (u :: rest).dropLast).filter (!·.isEmpty)).attach.map
        fun p => ofTokens p.1)
    else
      .raw (String.ofList (textFromFirst (t :: u :: rest)))
termination_by ts.length
decreasing_by
  have h := length_le_of_mem_pieces (List.mem_filter.1 p.2).1
  simp only [List.length_dropLast, List.length_cons] at h
  simp only [List.length_cons]
  omega

/-- The arguments between two parentheses: every piece, but the last one only if it is there. -/
def Argument.listOfTokens (ts : List Token) : List Argument :=
  let ps := pieces 0 ts
  let ps := if (ps.getLast?.getD []).isEmpty then ps.dropLast else ps
  ps.map ofTokens

/-- The **call** of a name with the tokens between its parentheses. -/
def Call.ofTokens (name : String) (inside : List Token) : Call where
  name := name
  args := Argument.listOfTokens inside
  rawArgs := String.ofList (trim (sourceText inside))
  trailingArgs :=
    ((afterComma? 0 inside).map fun ts => trim (sourceText ts)).bind fun s =>
      if s.isEmpty then none else some (String.ofList s)

/-- Whether a kind links a receiver to what is called on it. -/
def isLink (k : Kind) : Bool :=
  k == .arrow || k == .doubleColon

/-- The **calls** that follow a receiver, as far as they come. -/
def Call.sequence : List Token → List Call
  | link :: name :: paren :: rest =>
    if isLink link.kind ∧ name.kind = .word ∧ paren.kind = .openParen then
      Call.ofTokens (String.ofList name.text) (untilCloseParen 0 rest).1 ::
        sequence (untilCloseParen 0 rest).2
    else []
  | _ => []
termination_by ts => ts.length
decreasing_by
  have := length_untilCloseParen 0 rest
  simp only [List.length_cons]
  omega

/-- The value assigned to a property: everything up to the end of the statement, the strings by
their content. -/
def assignedValue (ts : List Token) : String :=
  String.ofList ((ts.takeWhile (·.kind != .semicolon)).flatMap fun t =>
    if t.kind = .quoted then t.lexeme.content else t.text)

/-- The property that is assigned right behind a receiver, and its value. -/
def assignment? : List Token → Option (String × String)
  | link :: name :: equals :: rest =>
    if isLink link.kind ∧ name.kind = .word ∧ equals.kind = .equals then
      some (String.ofList name.text, assignedValue rest)
    else none
  | _ => none

/-- What is **chained** to a receiver, if anything is. -/
def Chained.ofReceiver? (receiver : String) (ts : List Token) : Option Chained :=
  match assignment? ts with
  | some (property, value) => some (.assignment receiver property value)
  | none =>
    match Call.sequence ts with
    | [] => none
    | call :: rest => some (.calls ⟨receiver, call :: rest⟩)

/-- The first token that, together with the one after it, satisfies a test, and what follows
it. -/
def findReceiver? (p : Token → Token → Bool) : List Token → Option (Token × List Token)
  | t :: u :: rest => if p t u then some (t, u :: rest) else findReceiver? p (u :: rest)
  | _ => none

/-- What is chained to the first **variable** that an arrow follows. -/
def Chained.ofVariable? (ts : List Token) : Option Chained :=
  (findReceiver? (fun t u => t.kind == .variable && u.kind == .arrow) ts).bind fun r =>
    ofReceiver? (String.ofList r.1.text) r.2

/-- Whether a word names a class, in whatever namespace. -/
def namesClass (name : List Char) (word : List Char) : Bool :=
  (splitAt (· == '\\') word).getLast? == some name

/-- The chain of calls on the first mention of a **class** that a double colon follows. -/
def Chain.ofClass? (name : String) (ts : List Token) : Option Chain :=
  (findReceiver? (fun t u =>
      t.kind == .word && namesClass name.toList t.text && u.kind == .doubleColon) ts).bind fun r =>
    match Chained.ofReceiver? (String.ofList r.1.text) r.2 with
    | some (.calls chain) => some chain
    | _ => none

end SchemaHistory

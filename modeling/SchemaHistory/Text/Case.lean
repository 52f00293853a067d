import SchemaHistory.Text.Letter
import SchemaHistory.Text.Table.Case

/-!
# Lower and upper case

The full case mappings: a character may have several characters as its other case, and a capital
sigma becomes a *final* sigma at the end of a word. What stands before a sigma is carried along as
one flag, so a text is mapped in a single pass.
-/

namespace SchemaHistory.Text

/-- The image of a code point under the first run that it is on. -/
def runImage? (runs : List CaseRun) (n : Nat) : Option Nat :=
  runs.findSome? fun r => r.map? n

/-- The other case of a character above ASCII, by the listed sequences, else by the runs. -/
def caseForm (sequences : List (Nat × List Nat)) (runs : List CaseRun) (c : Char) : List Char :=
  match sequences.lookup c.toNat with
  | some ns => ns.map Char.ofNat
  | none =>
    match runImage? runs c.toNat with
    | some n => [Char.ofNat n]
    | none => [c]

/-- The **lower case form** of one character, whatever stands around it. -/
def lowerForm (c : Char) : List Char :=
  if c.toNat < 0x80 then [c.toLower] else caseForm lowerSequences lowerRuns c

/-- The **upper case form** of one character. -/
def upperForm (c : Char) : List Char :=
  if c.toNat < 0x80 then [c.toUpper] else caseForm upperSequences upperRuns c

/-- Whether a character has case. -/
def isCased (c : Char) : Bool :=
  isAsciiLetter c || (decide (0x80 ≤ c.toNat) && casedAboveAscii.has c.toNat)

/-- Whether a character is skipped when one looks for a cased neighbour. -/
def isCaseIgnorable (c : Char) : Bool :=
  ['\'', '.', ':', '^', '\x60'].contains c ||
    (decide (0x80 ≤ c.toNat) && caseIgnorableAboveAscii.has c.toNat)

/-- Whether the first character that is not ignorable has case. -/
def startsCased (s : List Char) : Bool :=
  match s.dropWhile isCaseIgnorable with
  | [] => false
  | c :: _ => isCased c

/-- Lower case, given whether the text before, ignorable characters aside, ends in a cased
character. -/
def lowerAfter (cased : Bool) : List Char → List Char
  | [] => []
  | c :: rest =>
    let form :=
      if c = 'Σ' then (if cased && !startsCased rest then ['ς'] else ['σ']) else lowerForm c
    form ++ lowerAfter (if isCaseIgnorable c then cased else isCased c) rest

/-- The text in **lower case**. -/
def lower (s : List Char) : List Char :=
  lowerAfter false s

/-- The text in **upper case**. -/
def upper (s : List Char) : List Char :=
  s.flatMap upperForm

/-- A string in lower case. -/
def lowerString (s : String) : String :=
  String.ofList (lower s.toList)

end SchemaHistory.Text

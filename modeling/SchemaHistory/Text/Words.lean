import SchemaHistory.Text.Case
import SchemaHistory.Text.Grapheme

/-!
# Words and capitalised names

A name such as `users_2fa` or `HTTPServer` is made of **words**. Underscores, hyphens and spaces
stand between words and vanish; a word also ends where the kind of character changes: from lower
to upper case, between letters and digits, and before the last capital of a run of capitals that
a small letter follows. Joining the words with a capital each gives the name of a class.

The text is read in grapheme clusters, so an accented letter is one character.
-/

namespace SchemaHistory.Text

/-- Whether a cluster is an **upper case** one: case changes it, and raising it does not. -/
def isUpperCluster (g : List Char) : Bool :=
  upper g != lower g && g == upper g

/-- Whether a cluster is a **lower case** one. -/
def isLowerCluster (g : List Char) : Bool :=
  upper g != lower g && g == lower g

/-- Whether a cluster is made of digits. -/
def isDigitCluster (g : List Char) : Bool :=
  g.all isDigit

/-- Whether a cluster **separates** words and belongs to none. -/
def isSeparator (g : List Char) : Bool :=
  g == ['_'] || g == ['-'] || g == [' ']

/-- Whether a word ends between two neighbours. -/
def changesKind (g h : List Char) : Bool :=
  (isLowerCluster g && isUpperCluster h) || (isUpperCluster g && isDigitCluster h) ||
    (isDigitCluster g && isUpperCluster h) || (isDigitCluster g && isLowerCluster h) ||
    (isLowerCluster g && isDigitCluster h)

/-- Whether a word starts at a cluster, given its neighbours on both sides. -/
def startsWord (before : Option (List Char)) (g : List Char) (after : Option (List Char)) : Bool :=
  match before with
  | none => false
  | some b =>
    changesKind b g ||
      (isUpperCluster b && isUpperCluster g &&
        match after with
        | none => false
        | some a => isLowerCluster a)

/-- The words of a text, given the word that is open and the cluster before; words may be
empty. -/
def wordsAfter (word : List Char) (before : Option (List Char)) :
    List (List Char) → List (List Char)
  | [] => [word]
  | g :: rest =>
    if isSeparator g then word :: wordsAfter [] (some g) rest
    else if startsWord before g rest.head? then word :: wordsAfter g (some g) rest
    else wordsAfter (word ++ g) (some g) rest

/-- The **words** of a text, none of them empty. -/
def words (s : List Char) : List (List Char) :=
  (wordsAfter [] none (graphemes s)).filter (!·.isEmpty)

/-- A word with its first character in upper case and the others in lower case. -/
def capitalize : List Char → List Char
  | [] => []
  | c :: rest => upperForm c ++ lower rest

/-- The words of a text, capitalised and joined. -/
def pascalCase (s : String) : String :=
  String.ofList ((words s.toList).flatMap capitalize)

end SchemaHistory.Text

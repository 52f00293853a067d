import SchemaHistory.Text.Table.Grapheme

/-!
# Grapheme clusters

A text is read in **extended grapheme clusters**, the units that a reader takes for one
character: a letter with its accents, a syllable block, a flag of two letters, a picture joined
from several ones. Whether two neighbours stay together depends on their break classes and on a
little of what came before, which is kept in a `Context`, so a single pass cuts the text.
-/

namespace SchemaHistory.Text

/-- The **break class** of a character. -/
inductive BreakClass
  | carriageReturn
  | lineFeed
  | control
  | extend
  | joiner
  | regional
  | prepend
  | spacing
  | leading
  | vowel
  | trailing
  | openSyllable
  | closedSyllable
  | other
  deriving DecidableEq

/-- The class of a Hangul syllable, which is open if it has no trailing consonant. -/
def syllableClass (n : Nat) : BreakClass :=
  if (n - 0xAC00) % 28 = 0 then .openSyllable else .closedSyllable

/-- The break class of a character. -/
def breakClass (c : Char) : BreakClass :=
  let n := c.toNat
  if c = '\r' then .carriageReturn
  else if c = '\n' then .lineFeed
  else if n < 0x20 then .control
  else if n < 0x7F then .other
  else if n = 0x200D then .joiner
  else if 0xAC00 ≤ n ∧ n ≤ 0xD7A3 then syllableClass n
  else if breakControl.has n then .control
  else if breakExtend.has n then .extend
  else if breakRegional.has n then .regional
  else if breakPrepend.has n then .prepend
  else if breakSpacing.has n then .spacing
  else if hangulLeading.has n then .leading
  else if hangulVowel.has n then .vowel
  else if hangulTrailing.has n then .trailing
  else .other

/-- Whether a character is a picture. -/
def isPictograph (c : Char) : Bool :=
  decide (0x80 ≤ c.toNat) && pictographs.has c.toNat

/-- How far a picture sequence has come: nothing yet, a picture with what extends it, or such a
picture followed by a joiner. -/
inductive PictureState
  | none
  | picture
  | joined
  deriving DecidableEq

/-- How far a conjunct has come: nothing yet, a consonant, or a consonant with a linker. -/
inductive ConjunctState
  | none
  | consonant
  | linked
  deriving DecidableEq

/-- What has to be known of the text before a character. -/
structure Context where
  last : BreakClass
  oddRegional : Bool
  picture : PictureState
  conjunct : ConjunctState

/-- The picture state after one more character. -/
def PictureState.push (s : PictureState) (c : Char) : PictureState :=
  if isPictograph c then .picture
  else
    match breakClass c, s with
    | .extend, .picture => .picture
    | .joiner, .picture => .joined
    | _, _ => .none

/-- The conjunct state after one more character. -/
def ConjunctState.push (s : ConjunctState) (c : Char) : ConjunctState :=
  if c.toNat < 0x80 then .none
  else if conjunctConsonant.has c.toNat then .consonant
  else if s = .none then .none
  else if conjunctLinker.has c.toNat then .linked
  else if breakClass c = .extend ∧ c.toNat ≠ 0x200C then s
  else if breakClass c = .joiner then s
  else .none

/-- The context after one more character. -/
def Context.push (x : Context) (c : Char) : Context where
  last := breakClass c
  oddRegional := decide (breakClass c = .regional) && !x.oddRegional
  picture := x.picture.push c
  conjunct := x.conjunct.push c

/-- The context after the first character of a text. -/
def Context.first (c : Char) : Context :=
  Context.push ⟨.other, false, .none, .none⟩ c

/-- Whether a character belongs to the cluster before it. -/
def Context.joins (x : Context) (c : Char) : Bool :=
  match x.last, breakClass c with
  | .carriageReturn, .lineFeed => true
  | .control, _ | .carriageReturn, _ | .lineFeed, _ => false
  | _, .control | _, .carriageReturn | _, .lineFeed => false
  | .leading, .leading | .leading, .vowel | .leading, .openSyllable
  | .leading, .closedSyllable => true
  | .openSyllable, .vowel | .openSyllable, .trailing | .vowel, .vowel | .vowel, .trailing => true
  | .closedSyllable, .trailing | .trailing, .trailing => true
  | _, .extend | _, .joiner | _, .spacing => true
  | .prepend, _ => true
  | _, .regional => x.oddRegional
  | _, _ =>
    (decide (x.picture = .joined) && isPictograph c) ||
      (decide (x.conjunct = .linked) && decide (0x80 ≤ c.toNat) && conjunctConsonant.has c.toNat)

/-- The clusters of a text, given the cluster that is open. -/
def clustersAfter (x : Context) (cluster : List Char) : List Char → List (List Char)
  | [] => [cluster]
  | c :: rest =>
    if x.joins c then clustersAfter (x.push c) (cluster ++ [c]) rest
    else cluster :: clustersAfter (x.push c) [c] rest

/-- The text cut into its **grapheme clusters**. -/
def graphemes : List Char → List (List Char)
  | [] => []
  | c :: rest => clustersAfter (Context.first c) [c] rest

/-- Nothing is lost when the open cluster is continued. -/
theorem flatten_clustersAfter (x : Context) (cluster s : List Char) :
    (clustersAfter x cluster s).flatten = cluster ++ s := by
  induction s generalizing x cluster with
  | nil => simp [clustersAfter]
  | cons c rest ih =>
    rw [clustersAfter]
    split
    · simp [ih]
    · simp [ih]

/-- The clusters of a text make up the text. -/
theorem flatten_graphemes (s : List Char) : (graphemes s).flatten = s := by
  cases s with
  | nil => rfl
  | cons c rest => simp [graphemes, flatten_clustersAfter]

end SchemaHistory.Text

/-!
# Quoted strings in the source

A string stands between two equal delimiters. Inside it a backslash takes the next character
along, whatever that is, so an escaped delimiter does not close the string.
-/

namespace SchemaHistory.Source

/-- Whether a character **delimits** strings. -/
def isQuote (c : Char) : Bool :=
  c == '\'' || c == '"' || c == '\x60'

/-- The rest of a string after its opening delimiter, up to and with the closing one, and what
follows. A string that is not closed takes all. -/
def untilClosed (q : Char) : List Char → List Char × List Char
  | [] => ([], [])
  | '\\' :: c :: rest => ('\\' :: c :: (untilClosed q rest).1, (untilClosed q rest).2)
  | c :: rest =>
    if c = q then ([c], rest) else (c :: (untilClosed q rest).1, (untilClosed q rest).2)

/-- The text without the backslashes that escape, each of which leaves the character after it. -/
def unescape : List Char → List Char
  | [] => []
  | ['\\'] => []
  | '\\' :: c :: rest => c :: unescape rest
  | c :: rest => c :: unescape rest

/-- Nothing is lost where a string is closed. -/
theorem untilClosed_append (q : Char) (s : List Char) :
    (untilClosed q s).1 ++ (untilClosed q s).2 = s := by
  fun_induction untilClosed q s <;> simp_all

end SchemaHistory.Source

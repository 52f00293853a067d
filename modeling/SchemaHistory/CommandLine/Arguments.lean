import SchemaHistory.Settings

/-!
# Arguments

What a command line asks for. It names one command; options stand before and behind it. Some options
are common to all commands and may stand on either side: given on both, the one behind the command
counts. On one side, no option may be given twice.

A value stands in the same word as its option or is the next word, which then must not look like an
option itself. The name of a file or folder is never empty.
-/

namespace SchemaHistory.CommandLine

/-- An option **with a value**. -/
inductive Parameter
  | config
  | logLevel
  | migrations
  | output
  | moveTo
  | extension
  deriving DecidableEq

/-- An option **without a value**. -/
inductive Switch
  | dryRun
  | snapshot
  | update
  deriving DecidableEq

/-- What a command line can do. -/
inductive Verb
  | squash
  | plan
  | init
  deriving DecidableEq

/-- The command with a name. -/
def Verb.ofName? : String → Option Verb
  | "squash" => some squash
  | "plan" => some plan
  | "init" => some init
  | _ => none

/-- Whether a parameter takes a value. -/
def Parameter.accepts (p : Parameter) (value : String) : Bool :=
  match p with
  | logLevel | extension => true
  | config | migrations | output | moveTo => !value.isEmpty

/-- The parameter with a long name; `verb` is the command that the option stands behind. -/
def Parameter.ofName? (verb : Option Verb) : String → Option Parameter
  | "config" => some config
  | "log-level" => some logLevel
  | "path" => if verb.isSome then some migrations else none
  | "output" => if verb.isSome then some output else none
  | "move-to" => if verb.isSome then some moveTo else none
  | "extension" => if verb = some .init then some extension else none
  | _ => none

/-- The parameter with a short name. -/
def Parameter.ofLetter? (verb : Option Verb) (letter : Char) : Option Parameter :=
  if verb.isNone then none
  else
    match letter with
    | 'p' => some migrations
    | 'o' => some output
    | 'm' => some moveTo
    | _ => none

/-- The switch with a name. -/
def Switch.ofName? (verb : Option Verb) (name : String) : Option Switch :=
  match verb, name with
  | some .squash, "dry-run" => some dryRun
  | some .squash, "snapshot" => some snapshot
  | some .init, "update" => some update
  | _, _ => none

/-! ### Words -/

/-- A **word** of a command line by its form. -/
inductive Word
  /-- Two hyphens, behind which there are no options. -/
  | separator
  /-- An option by its long name, perhaps with a value behind an equals sign. -/
  | long (name : String) (value : Option String)
  /-- An option by its letter, perhaps with a value behind it. -/
  | short (letter : Char) (value : Option String)
  | plain (text : String)
  deriving DecidableEq

/-- A long name with its value. -/
def Word.ofLong (s : List Char) : Word :=
  let name := String.ofList (s.takeWhile (· != '='))
  match s.dropWhile (· != '=') with
  | [] => .long name none
  | _ :: value => .long name (some (String.ofList value))

/-- The value behind a letter, without the equals sign that may stand before it. -/
def letterValue? : List Char → Option String
  | [] => none
  | '=' :: value => some (String.ofList value)
  | value => some (String.ofList value)

/-- The form of a word. A single hyphen is no option. -/
def Word.ofText (text : String) : Word :=
  match text.toList with
  | ['-', '-'] => .separator
  | '-' :: '-' :: rest => .ofLong rest
  | '-' :: letter :: rest => .short letter (letterValue? rest)
  | _ => .plain text

/-! ### Options -/

/-- The options that were **given**. -/
structure Given where
  values : List (Parameter × String) := []
  switches : List Switch := []

/-- The value of a parameter, if it was given. -/
def Given.value? (g : Given) (p : Parameter) : Option String :=
  g.values.lookup p

/-- Whether a switch was given. -/
def Given.has (g : Given) (s : Switch) : Bool :=
  g.switches.contains s

/-- The options with one more value. -/
def Given.add? (g : Given) (p : Parameter) (value : String) : Option Given :=
  if (g.value? p).isSome || !p.accepts value then none
  else some { g with values := g.values ++ [(p, value)] }

/-- The options with one more switch. -/
def Given.turnOn? (g : Given) (s : Switch) : Option Given :=
  if g.has s then none else some { g with switches := g.switches ++ [s] }

/-- The options with the value of a parameter, and the words behind it. -/
def takeValue? (g : Given) (p : Parameter) (value : Option String) (rest : List String) :
    Option (Given × List String) :=
  match value, rest with
  | some v, rest => (g.add? p v).map fun g => (g, rest)
  | none, next :: rest =>
    match Word.ofText next with
    | .plain v => (g.add? p v).map fun g => (g, rest)
    | _ => none
  | none, [] => none

/-- The options with the one that a word gives, and the words behind it. Nothing is given by a word
that is no option here. -/
def takeOption? (verb : Option Verb) (g : Given) (word : Word) (rest : List String) :
    Option (Given × List String) :=
  match word with
  | .long name value =>
    match Parameter.ofName? verb name, Switch.ofName? verb name, value with
    | some p, _, value => takeValue? g p value rest
    | none, some s, none => (g.turnOn? s).map fun g => (g, rest)
    | none, _, _ => none
  | .short letter value => (Parameter.ofLetter? verb letter).bind (takeValue? g · value rest)
  | .separator => none
  | .plain _ => none

/-- Every option takes at least its own word. -/
theorem length_le_of_takeValue? {g g' : Given} {p : Parameter} {value : Option String}
    {rest rest' : List String} (h : takeValue? g p value rest = some (g', rest')) :
    rest'.length ≤ rest.length := by
  unfold takeValue? at h
  split at h
  · simp only [Option.map_eq_some_iff, Prod.mk.injEq] at h
    obtain ⟨_, _, _, rfl⟩ := h
    exact Nat.le_refl _
  · split at h
    · simp only [Option.map_eq_some_iff, Prod.mk.injEq] at h
      obtain ⟨_, _, _, rfl⟩ := h
      simp
    · simp at h
  · simp at h

theorem length_le_of_takeOption? {verb : Option Verb} {g g' : Given} {word : Word}
    {rest rest' : List String} (h : takeOption? verb g word rest = some (g', rest')) :
    rest'.length ≤ rest.length := by
  unfold takeOption? at h
  split at h
  · split at h
    · exact length_le_of_takeValue? h
    · simp only [Option.map_eq_some_iff, Prod.mk.injEq] at h
      obtain ⟨_, _, _, rfl⟩ := h
      exact Nat.le_refl _
    · simp at h
  · obtain ⟨p, _, hp⟩ := Option.bind_eq_some_iff.mp h
    exact length_le_of_takeValue? hp
  · simp at h
  · simp at h

/-- The options at the start of a command line, and the words from the first one on that cannot be
an option. -/
def options? (verb : Option Verb) (g : Given) (words : List String) :
    Option (Given × List String) :=
  match words with
  | [] => some (g, [])
  | text :: rest =>
    match Word.ofText text with
    | .plain _ => some (g, text :: rest)
    | .separator => some (g, text :: rest)
    | word =>
      match h : takeOption? verb g word rest with
      | none => none
      | some (g, rest') =>
        have : rest'.length < (text :: rest).length :=
          Nat.lt_succ_of_le (length_le_of_takeOption? h)
        options? verb g rest'
termination_by words.length
decreasing_by assumption

/-! ### Invocations -/

/-- What a **command** is told beyond what all commands are. -/
inductive Command
  | squash (dryRun snapshot : Bool)
  | plan
  | init (extension : Option String) (update : Bool)
  deriving DecidableEq

/-- What a command line **asks for**. -/
structure Invocation where
  /-- The settings file. -/
  config : String := Settings.fileName
  /-- How much is logged. -/
  logLevel : String := "info"
  migrations : Option String := none
  output : Option String := none
  moveTo : Option String := none
  command : Command
  deriving DecidableEq

/-- The command with what was given to it. -/
def Verb.command (v : Verb) (g : Given) : Command :=
  match v with
  | squash => .squash (g.has .dryRun) (g.has .snapshot)
  | plan => .plan
  | init => .init (g.value? .extension) (g.has .update)

/-- What a command asks for, given the options before and behind it. -/
def Verb.invocation (v : Verb) (before behind : Given) : Invocation where
  config := ((behind.value? .config).or (before.value? .config)).getD Settings.fileName
  logLevel := ((behind.value? .logLevel).or (before.value? .logLevel)).getD "info"
  migrations := behind.value? .migrations
  output := behind.value? .output
  moveTo := behind.value? .moveTo
  command := v.command behind

/-- What a **command line** asks for. Behind the options of a command nothing may stand but two
hyphens. -/
def Invocation.ofWords? (words : List String) : Option Invocation := do
  match ← options? none {} words with
  | (_, []) => none
  | (before, name :: rest) =>
    let verb ← Verb.ofName? name
    let (behind, rest) ← options? (some verb) {} rest
    if rest = [] ∨ rest = ["--"] then some (verb.invocation before behind) else none

end SchemaHistory.CommandLine

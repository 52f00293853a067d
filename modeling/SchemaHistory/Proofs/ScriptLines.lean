import SchemaHistory.Proofs.ClassNames
import SchemaHistory.Proofs.LogicalLines
import SchemaHistory.Script

/-!
# The logical lines of a script

What a replay gets to see of a script are its logical lines. Those of a creation script are the
imports, the heads of the class and of its forward direction, the statement that opens the table,
the statements of the table one by one, and the closing lines up to the head of the reverse
direction (`SchemaHistory.Table.lines_scriptText`). All that is asked for is that each statement is
one line by itself.

The class is named after the table, and the name of a table may be anything, even the start of a
comment. Such a comment ends with the comment that describes the forward direction, so it swallows
the brace of the class and nothing else; the lemma covers this case too.
-/

namespace SchemaHistory

open Source Text

namespace Table

/-! ### The parts of a script -/

/-- What stands before the class. -/
def preambleText : String :=
  "<?php\n\n" ++
  "use Illuminate\\Database\\Migrations\\Migration;\n" ++
  "use Illuminate\\Database\\Schema\\Blueprint;\n" ++
  "use Illuminate\\Support\\Facades\\Schema;\n\n"

/-- The head of the class. -/
def classText (t : Table) : String :=
  "class " ++ className t.name ++ " extends Migration"

/-- What stands between the head of the class and the statement that opens the table. -/
def forwardText : String :=
  "\x7b\n" ++
  "    /**\n" ++
  "     * Run the migrations.\n" ++
  "     *\n" ++
  "     * @return void\n" ++
  "     */\n" ++
  "    public function up()\n" ++
  "    \x7b\n"

/-- The statement that opens the table. -/
def createText (t : Table) : String :=
  "Schema::create('" ++ t.name ++ "', function (Blueprint $table) \x7b"

/-- What stands between the statements of the table and that of the reverse direction. -/
def reverseText : String :=
  "        \x7d);\n" ++
  "    \x7d\n\n" ++
  "    /**\n" ++
  "     * Reverse the migrations.\n" ++
  "     *\n" ++
  "     * @return void\n" ++
  "     */\n" ++
  "    public function down()\n" ++
  "    \x7b\n"

/-- The statement of the reverse direction, and the end of the script. -/
def dropText (t : Table) : String :=
  "        Schema::dropIfExists('" ++ t.name ++ "');\n" ++
  "    \x7d\n" ++
  "\x7d\n"

theorem scriptText_eq (t : Table) :
    t.scriptText = preambleText ++ t.classText ++ "\n" ++ forwardText ++ "        " ++
      t.createText ++ "\n" ++ t.body ++ "\n" ++ reverseText ++ t.dropText := by
  have hclass : " extends Migration\n" = " extends Migration" ++ "\n" := by decide
  have hopen : "        Schema::create('" = "        " ++ "Schema::create('" := by decide
  have hbrace : "', function (Blueprint $table) \x7b\n" =
      "', function (Blueprint $table) \x7b" ++ "\n" := by decide
  unfold scriptText preambleText classText forwardText createText reverseText dropText
  simp only [hclass, hopen, hbrace, String.append_assoc]

/-! ### The code of the fixed parts -/

theorem code_preambleText :
    preambleText.toList.getLast? = some '\n' ∧
      code false preambleText.toList =
        "<?php use Illuminate\\Database\\Migrations\\Migration;".toList ++ ' ' ::
          ("use Illuminate\\Database\\Schema\\Blueprint;".toList ++ ' ' ::
            ("use Illuminate\\Support\\Facades\\Schema;".toList ++ [' '])) ∧
      commentAfter false (physicalLines preambleText.toList) = false := by
  decide +kernel

/-- A comment that is open before the forward direction ends with the comment on that. -/
theorem code_forwardText (b : Bool) :
    forwardText.toList.getLast? = some '\n' ∧
      code b forwardText.toList =
        (if b then [] else ['\x7b', ' ']) ++ ("public function up() \x7b".toList ++ [' ']) ∧
      commentAfter b (physicalLines forwardText.toList) = false := by
  revert b
  decide +kernel

theorem code_reverseText :
    reverseText.toList.getLast? = some '\n' ∧
      code false reverseText.toList = "\x7d); \x7d public function down() \x7b ".toList ∧
      commentAfter false (physicalLines reverseText.toList) = false := by
  decide +kernel

/-! ### The code of the parts that depend on the table -/

/-- The code of statements, each on a physical line of its own behind an indentation. -/
theorem code_statements {g : String} (hg : ∀ c ∈ g.toList, c = ' ') {sts : List String}
    (h : ∀ st ∈ sts, IsLine st.toList) :
    code false ("\n".intercalate (sts.map (g ++ ·))).toList =
        (sts.map String.toList).flatMap (· ++ [' ']) ∧
      commentAfter false (physicalLines ("\n".intercalate (sts.map (g ++ ·))).toList) = false := by
  induction sts with
  | nil =>
    rw [List.map_nil, String.intercalate_nil]
    decide
  | cons st sts ih =>
    have hst := (h st List.mem_cons_self).code_eq hg
    cases sts with
    | nil => simpa [String.toList_append] using hst
    | cons st' sts =>
      have hrest := ih fun s hs => h s (List.mem_cons_of_mem st hs)
      have hlist : ("\n".intercalate ((st :: st' :: sts).map (g ++ ·))).toList =
          (g.toList ++ st.toList) ++
            '\n' :: ("\n".intercalate ((st' :: sts).map (g ++ ·))).toList := by
        simp [String.intercalate_cons_cons, String.toList_append]
      obtain ⟨h1, h2⟩ := code_append false (g.toList ++ st.toList)
        ("\n".intercalate ((st' :: sts).map (g ++ ·))).toList
      rw [hlist, h1, h2, hst.1, hst.2, hrest.1, hrest.2]
      simp

/-- The head of the class without comments, and whether a comment is open behind it. -/
def classCode (t : Table) : List Char × Bool :=
  strip false t.classText.toList

/-- The head of the class keeps its first word. -/
theorem classCode_eq (t : Table) : ∃ w, t.classCode.1 = "class ".toList ++ w := by
  have hline : t.classText.toList.filter (· != '\r') = "class ".toList ++
      (((className t.name).toList ++ " extends Migration".toList).filter (· != '\r')) := by
    rw [classText, String.toList_append, String.toList_append, List.append_assoc, List.filter_append]
    rfl
  rw [classCode, strip, hline]
  exact ⟨_, rfl⟩

/-- A character of the head of the class stands in the name of the class or in the fixed text. -/
theorem mem_of_mem_classCode {t : Table} {c : Char} (h : c ∈ t.classCode.1) :
    c ∈ (className t.name).toList ∨ c ∈ "class  extends Migration".toList := by
  rcases mem_of_mem_stripFrom h with hc | rfl
  · have hc : c ∈ t.classText.toList := (List.mem_filter.1 hc).1
    rw [classText, String.toList_append, String.toList_append, List.append_assoc,
      List.mem_append, List.mem_append] at hc
    rcases hc with hc | hc | hc
    · exact Or.inr ((by decide : ∀ c ∈ "class ".toList, c ∈ "class  extends Migration".toList) c hc)
    · exact Or.inl hc
    · exact Or.inr
        ((by decide : ∀ c ∈ " extends Migration".toList, c ∈ "class  extends Migration".toList) c hc)
  · exact Or.inr (by decide)

/-- The head of the class as a logical line: it ends with the brace of the class, or with that of
the forward direction if a comment has swallowed the former. -/
def classLines (t : Table) : List (List Char) :=
  if t.classCode.2 then [trimEnd t.classCode.1 ++ " public function up() \x7b".toList]
  else [trimEnd t.classCode.1 ++ " \x7b".toList, "public function up() \x7b".toList]

/-- The end of the head of the class, behind which a line ends. -/
theorem terminated_classCode {t : Table} (h : ∀ c ∈ (className t.name).toList, endsLine c = false)
    {u : List Char} (hu : ∀ c ∈ u, endsLine c = false) {e : Char} (he : endsLine e = true) :
    Terminated (trimEnd t.classCode.1 ++ (u ++ [e])) := by
  obtain ⟨w, hw⟩ := t.classCode_eq
  have hends : ∀ c ∈ t.classCode.1, endsLine c = false := by
    intro c hc
    rcases mem_of_mem_classCode hc with hc | hc
    · exact h c hc
    · exact (by decide : ∀ c ∈ "class  extends Migration".toList, endsLine c = false) c hc
  refine ⟨?_, trimEnd t.classCode.1 ++ u, e, by simp, he, ?_⟩
  · have hfirst : t.classCode.1 = 'c' :: ("lass ".toList ++ w) := hw
    rw [hfirst, trimEnd_cons (by decide)]
    intro c hc
    obtain rfl : 'c' = c := by simpa using hc
    decide
  · intro c hc
    rcases List.mem_append.1 hc with hc | hc
    · exact hends c (mem_of_mem_trimEnd hc)
    · exact hu c hc

/-- The code of a script, part by part. -/
theorem code_scriptText {t : Table} (hcreate : IsLine t.createText.toList)
    (hstatements : ∀ st ∈ t.statements, IsLine st.toList)
    (hclass : '\n' ∉ (className t.name).toList) :
    code false t.scriptText.toList =
      code false preambleText.toList ++ (trimEnd t.classCode.1 ++ ' ' ::
        (code t.classCode.2 forwardText.toList ++ (t.createText.toList ++ ' ' ::
          ((t.statements.map String.toList).flatMap (· ++ [' ']) ++
            (code false reverseText.toList ++ code false t.dropText.toList))))) := by
  have hbreak : '\n' ∉ t.classText.toList := by
    rw [classText, String.toList_append, String.toList_append, List.append_assoc,
      List.mem_append, List.mem_append]
    rintro (h | h | h)
    · exact absurd h (by decide)
    · exact hclass h
    · exact absurd h (by decide)
  obtain ⟨w, hw⟩ := t.classCode_eq
  have htrim : trim t.classCode.1 = trimEnd t.classCode.1 := by
    rw [trim, hw]
    rfl
  have hne : trim t.classCode.1 ≠ [] := by
    have hfirst : t.classCode.1 = 'c' :: ("lass ".toList ++ w) := hw
    rw [htrim, hfirst, trimEnd_cons (by decide)]
    simp
  have hstrip : strip false t.classText.toList = (t.classCode.1, t.classCode.2) := by
    rw [classCode]
  have hhead := code_line hbreak hstrip hne
  have hspaces : ∀ c ∈ "        ".toList, c = ' ' := by decide
  have hopen := hcreate.code_eq hspaces
  have hbody := code_statements (g := "            ") (by decide) hstatements
  rw [← body] at hbody
  rw [scriptText_eq]
  simp only [String.toList_append, List.append_assoc]
  have hnewline : "\n".toList = ['\n'] := rfl
  rw [hnewline, code_append_of_getLast code_preambleText.1, code_preambleText.2.2]
  simp only [List.singleton_append]
  rw [(code_append false _ _).1, hhead.1, hhead.2, htrim,
    code_append_of_getLast (code_forwardText false).1, (code_forwardText _).2.2,
    ← List.append_assoc "        ".toList, (code_append false _ _).1, hopen.1, hopen.2,
    (code_append false _ _).1, hbody.1, hbody.2, code_append_of_getLast code_reverseText.1,
    code_reverseText.2.2]
  simp only [List.append_assoc, List.singleton_append]

/-- The imports are the first logical lines. -/
theorem logical_preamble (s : List Char) :
    logical (code false preambleText.toList ++ s) =
      "<?php use Illuminate\\Database\\Migrations\\Migration;".toList ::
      "use Illuminate\\Database\\Schema\\Blueprint;".toList ::
      "use Illuminate\\Support\\Facades\\Schema;".toList :: logical (' ' :: s) := by
  have h1 : Terminated "<?php use Illuminate\\Database\\Migrations\\Migration;".toList :=
    .of_ends (by decide) (by decide) (by decide)
  have h2 : Terminated "use Illuminate\\Database\\Schema\\Blueprint;".toList :=
    .of_ends (by decide) (by decide) (by decide)
  have h3 : Terminated "use Illuminate\\Support\\Facades\\Schema;".toList :=
    .of_ends (by decide) (by decide) (by decide)
  rw [code_preambleText.2.1]
  simp only [List.append_assoc, List.cons_append, List.nil_append]
  rw [logical_first h1, logical_next h2, logical_next h3]

/-- Behind the statements come the closing lines. -/
theorem logical_reverse (s : List Char) :
    logical (' ' :: (code false reverseText.toList ++ s)) =
      "\x7d".toList :: ");".toList :: "\x7d".toList :: "public function down() \x7b".toList ::
        logical (' ' :: s) := by
  have h1 : Terminated "\x7d".toList := .of_ends (by decide) (by decide) (by decide)
  have h2 : Terminated ");".toList := .of_ends (by decide) (by decide) (by decide)
  have h3 : Terminated "public function down() \x7b".toList :=
    .of_ends (by decide) (by decide) (by decide)
  have hparts : "\x7d); \x7d public function down() \x7b ".toList ++ s = "\x7d".toList ++
      (");".toList ++ ' ' :: ("\x7d".toList ++ ' ' ::
        ("public function down() \x7b".toList ++ ' ' :: s))) := rfl
  rw [code_reverseText.2.1, hparts, logical_next h1, logical_first h2, logical_next h1,
    logical_next h3]

/-- The head of the class is followed by that of the forward direction. -/
theorem logical_class {t : Table} (h : ∀ c ∈ (className t.name).toList, endsLine c = false)
    (s : List Char) :
    logical (' ' :: (trimEnd t.classCode.1 ++ ' ' ::
      (code t.classCode.2 forwardText.toList ++ s))) = t.classLines ++ logical (' ' :: s) := by
  have h1 : Terminated (trimEnd t.classCode.1 ++ " public function up() \x7b".toList) :=
    terminated_classCode h (u := " public function up() ".toList) (by decide) (by decide)
  have h2 : Terminated (trimEnd t.classCode.1 ++ " \x7b".toList) :=
    terminated_classCode h (u := " ".toList) (by decide) (by decide)
  have h3 : Terminated "public function up() \x7b".toList :=
    .of_ends (by decide) (by decide) (by decide)
  rw [classLines, (code_forwardText _).2.1]
  have hup : " public function up() \x7b".toList = ' ' :: "public function up() \x7b".toList := rfl
  have hbrace : " \x7b".toList = [' ', '\x7b'] := rfl
  cases t.classCode.2 with
  | true =>
    have hnext := logical_next h1 (' ' :: s)
    simp only [hup, List.append_assoc, List.cons_append] at hnext
    simpa only [if_true, hup, List.append_assoc, List.cons_append, List.nil_append] using hnext
  | false =>
    have hnext := logical_next h2 (' ' :: ("public function up() \x7b".toList ++ ' ' :: s))
    rw [logical_next h3] at hnext
    simp only [hbrace, List.append_assoc, List.cons_append, List.nil_append] at hnext
    simpa only [Bool.false_eq_true, if_false, hbrace, List.append_assoc, List.cons_append,
      List.nil_append] using hnext

/-- **The logical lines of a script**, up to the head of the reverse direction. -/
theorem lines_scriptText {t : Table} (hcreate : IsLine t.createText.toList)
    (hstatements : ∀ st ∈ t.statements, IsLine st.toList)
    (hclass : ∀ c ∈ (className t.name).toList, endsLine c = false ∧ c ≠ '\n') :
    ∃ rest, lines t.scriptText.toList =
      ["<?php use Illuminate\\Database\\Migrations\\Migration;".toList,
        "use Illuminate\\Database\\Schema\\Blueprint;".toList,
        "use Illuminate\\Support\\Facades\\Schema;".toList] ++ (t.classLines ++
      t.createText.toList :: (t.statements.map String.toList ++
      (["\x7d".toList, ");".toList, "\x7d".toList, "public function down() \x7b".toList] ++
        rest))) := by
  have hbreak : '\n' ∉ (className t.name).toList := fun h => (hclass _ h).2 rfl
  have hterm : ∀ v ∈ t.statements.map String.toList, Terminated v := by
    intro v hv
    obtain ⟨st, hst, rfl⟩ := List.mem_map.1 hv
    exact (hstatements st hst).toTerminated
  refine ⟨logical (' ' :: code false t.dropText.toList), ?_⟩
  rw [lines_eq, code_scriptText hcreate hstatements hbreak, logical_preamble,
    logical_class fun c hc => (hclass c hc).1, logical_next hcreate.toTerminated,
    logical_flatMap hterm, logical_reverse]
  simp only [List.cons_append, List.nil_append]

end Table

end SchemaHistory

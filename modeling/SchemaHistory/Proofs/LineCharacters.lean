import SchemaHistory.Proofs.QuietLines

/-!
# The characters of a statement

Every text in a statement, be it a name, a parameter or a default, is cut out of the logical line
that the statement was recognised on. So its characters are characters of the line
(`SchemaHistory.Statement.Within`, `SchemaHistory.Statement.within_of_recognize`), whatever the
line looks like: readers take things away, such as quotes, blanks and escapes, and add nothing.
-/

namespace SchemaHistory

open Source Text

/-! ### Tokens -/

namespace Source

theorem text_subset_of_mem_lexemes {s : List Char} {l : Lexeme} (h : l ∈ lexemes s) :
    l.text ⊆ s := by
  induction s using lexemes.induct with
  | case1 => simp [lexemes] at h
  | case2 c s ih =>
    have happend := Lexeme.startingWith_append c s
    rw [lexemes] at h
    rcases List.mem_cons.1 h with rfl | h
    · rw [← happend]
      exact List.subset_append_left _ _
    · rw [← happend]
      exact List.Subset.trans (ih h) (List.subset_append_right _ _)

/-- Tokens are made of the characters of a text, with the blanks before them. -/
def MadeOf (s : List Char) (ts : List Token) : Prop :=
  ∀ t ∈ ts, t.gap ⊆ s ∧ t.text ⊆ s

theorem MadeOf.mono {s : List Char} {ts us : List Token} (h : MadeOf s ts) (hu : us ⊆ ts) :
    MadeOf s us := fun t ht => h t (hu ht)

theorem madeOf_tokensAfter {s gap : List Char} {ls : List Lexeme} (hgap : gap ⊆ s)
    (h : ∀ l ∈ ls, l.text ⊆ s) : MadeOf s (tokensAfter gap ls) := by
  induction ls generalizing gap with
  | nil => simp [MadeOf, tokensAfter]
  | cons l ls ih =>
    have hl := h l List.mem_cons_self
    have hls : ∀ k ∈ ls, k.text ⊆ s := fun k hk => h k (List.mem_cons_of_mem l hk)
    rw [tokensAfter]
    split
    · exact ih (List.append_subset.2 ⟨hgap, hl⟩) hls
    · intro t ht
      rcases List.mem_cons.1 ht with rfl | ht
      · exact ⟨hgap, hl⟩
      · exact ih (List.nil_subset s) hls t ht

/-- **The tokens of a text are made of its characters.** -/
theorem madeOf_tokens (s : List Char) : MadeOf s (tokens s) :=
  madeOf_tokensAfter (List.nil_subset s) fun _ => text_subset_of_mem_lexemes

theorem MadeOf.sourceText_subset {s : List Char} {ts : List Token} (h : MadeOf s ts) :
    sourceText ts ⊆ s := by
  intro c hc
  obtain ⟨t, ht, hc⟩ := List.mem_flatMap.1 hc
  rcases List.mem_append.1 hc with hc | hc
  · exact (h t ht).1 hc
  · exact (h t ht).2 hc

theorem untilCloseParen_subset (d : Nat) (ts : List Token) : (untilCloseParen d ts).1 ⊆ ts := by
  induction ts generalizing d with
  | nil => exact List.nil_subset _
  | cons t ts ih =>
    rw [untilCloseParen]
    split
    · exact List.nil_subset _
    · exact List.cons_subset_cons t (ih _)

theorem untilCloseParen_suffix (d : Nat) (ts : List Token) : (untilCloseParen d ts).2 <:+ ts := by
  induction ts generalizing d with
  | nil => exact List.nil_suffix
  | cons t ts ih =>
    rw [untilCloseParen]
    split
    · exact List.suffix_cons t ts
    · exact (ih _).trans (List.suffix_cons t ts)

theorem pieces_subset {d : Nat} {ts p : List Token} (h : p ∈ pieces d ts) : p ⊆ ts := by
  induction ts generalizing d p with
  | nil =>
    obtain rfl : p = [] := by simpa [pieces] using h
    exact List.nil_subset _
  | cons t ts ih =>
    rw [pieces] at h
    split at h
    · rcases List.mem_cons.1 h with rfl | h
      · exact List.nil_subset _
      · exact List.Subset.trans (ih h) (List.subset_cons_self t ts)
    · split at h
      · obtain rfl := List.mem_singleton.1 h
        simp
      · rename_i piece others heq
        rcases List.mem_cons.1 h with rfl | h
        · exact List.cons_subset_cons t (ih (heq ▸ List.mem_cons_self))
        · exact List.Subset.trans (ih (heq ▸ List.mem_cons_of_mem piece h))
            (List.subset_cons_self t ts)

theorem afterComma?_suffix {d : Nat} {ts us : List Token} (h : afterComma? d ts = some us) :
    us <:+ ts := by
  induction ts generalizing d with
  | nil => simp [afterComma?] at h
  | cons t ts ih =>
    rw [afterComma?] at h
    split at h
    · obtain rfl := Option.some.inj h
      exact List.suffix_cons t _
    · exact (ih h).trans (List.suffix_cons t ts)

theorem unescape_subset (s : List Char) : unescape s ⊆ s := by
  fun_induction unescape s with
  | case1 => exact List.nil_subset _
  | case2 => exact List.nil_subset _
  | case3 c rest ih =>
    exact List.Subset.trans (List.cons_subset_cons c ih) (List.subset_cons_self '\\' _)
  | case4 c rest _ _ ih => exact List.cons_subset_cons c ih

theorem content_subset (l : Lexeme) : l.content ⊆ l.text := by
  rw [Lexeme.content]
  split
  · exact List.nil_subset _
  · rename_i c inner heq
    rw [heq]
    split
    · exact List.nil_subset _
    · refine List.Subset.trans (unescape_subset _)
        (List.Subset.trans ?_ (List.subset_cons_self c inner))
      split
      · exact List.dropLast_subset inner
      · exact List.Subset.refl inner

end Source

/-! ### Calls -/

section Tokens

variable {line : List Char} {ts : List Token}

theorem toList_ofList_subset {s : List Char} (h : s ⊆ line) : (String.ofList s).toList ⊆ line := by
  rwa [String.toList_ofList]

/-- A string that is an argument by itself is the content of a token. -/
theorem Argument.string?_ofTokens {s : String} (h : (ofTokens ts).string? = some s) :
    ∃ t ∈ ts, s = String.ofList t.lexeme.content := by
  match ts with
  | [] => simp [ofTokens, string?] at h
  | [t] =>
    rw [ofTokens] at h
    split at h
    · exact ⟨t, List.mem_singleton_self t, (Option.some.inj h).symm⟩
    · exact absurd h (by simp [string?])
  | t :: u :: rest =>
    rw [ofTokens] at h
    split at h <;> exact absurd h (by simp [string?])

/-- The strings of an argument are contents of tokens, also inside an array. -/
theorem Argument.strings_ofTokens {s : String} (h : s ∈ (ofTokens ts).strings) :
    ∃ t ∈ ts, s = String.ofList t.lexeme.content := by
  cases ha : ofTokens ts with
  | raw text => simp [ha, strings] at h
  | string content =>
    have hs : s = content := by simpa [ha, strings] using h
    exact string?_ofTokens (by rw [ha, hs, string?])
  | array items =>
    simp only [ha, strings, List.mem_filterMap] at h
    obtain ⟨a, hmem, hs⟩ := h
    match ts with
    | [] => simp [ofTokens] at ha
    | [t] =>
      rw [ofTokens] at ha
      split at ha <;> exact absurd ha (by simp)
    | t :: u :: rest =>
      rw [ofTokens] at ha
      split at ha
      · obtain rfl := Argument.array.inj ha
        obtain ⟨p, -, rfl⟩ := List.mem_map.1 hmem
        obtain ⟨v, hv, rfl⟩ := string?_ofTokens hs
        have hpiece := pieces_subset (List.mem_filter.1 p.2).1
        exact ⟨v, List.mem_cons_of_mem t ((List.dropLast_subset _) (hpiece hv)), rfl⟩
      · exact absurd ha (by simp)

/-- A call is **within** a line if its texts are made of characters of the line. -/
structure Call.Within (line : List Char) (c : Call) : Prop where
  strings : ∀ s ∈ c.strings, s.toList ⊆ line
  rawArgs : c.rawArgs.toList ⊆ line
  trailingArgs : ∀ s ∈ c.trailingArgs, s.toList ⊆ line

theorem Call.within_ofTokens (name : String) (h : MadeOf line ts) :
    (ofTokens name ts).Within line where
  strings := by
    intro s hs
    obtain ⟨a, ha, hs⟩ := List.mem_flatMap.1 hs
    obtain ⟨p, hp, rfl⟩ := List.mem_map.1 ha
    have hp : p ∈ pieces 0 ts := by
      split at hp
      · exact List.dropLast_subset _ hp
      · exact hp
    obtain ⟨t, ht, rfl⟩ := Argument.strings_ofTokens hs
    have htext : t.text ⊆ line := (h t (pieces_subset hp ht)).2
    exact toList_ofList_subset (List.Subset.trans (content_subset t.lexeme) htext)
  rawArgs := toList_ofList_subset (List.Subset.trans (trim_subset _) h.sourceText_subset)
  trailingArgs := by
    intro s hs
    obtain ⟨text, htext, hs⟩ := Option.bind_eq_some_iff.1 hs
    obtain ⟨us, hus, rfl⟩ := Option.map_eq_some_iff.1 htext
    split at hs
    · exact absurd hs (by simp)
    · obtain rfl := Option.some.inj hs
      exact toList_ofList_subset
        (List.Subset.trans (trim_subset _) (h.mono (afterComma?_suffix hus).subset).sourceText_subset)

/-- The calls that follow a receiver are within the line of their tokens. -/
theorem Call.within_sequence (h : MadeOf line ts) : ∀ c ∈ sequence ts, c.Within line := by
  fun_induction sequence ts with
  | case1 link name paren rest hlink ih =>
    have hinside := untilCloseParen_subset 0 rest
    have hrest := (untilCloseParen_suffix 0 rest).subset
    have hsub : rest ⊆ link :: name :: paren :: rest := fun t ht => by simp [ht]
    intro c hc
    rcases List.mem_cons.1 hc with rfl | hc
    · exact within_ofTokens _ (h.mono (List.Subset.trans hinside hsub))
    · exact ih (h.mono (List.Subset.trans hrest hsub)) c hc
  | case2 => simp
  | case3 => simp

/-- What is chained to a receiver is **within** a line if its calls or its value are. -/
def Chained.Within (line : List Char) : Chained → Prop
  | .calls chain => ∀ c ∈ chain.calls, c.Within line
  | .assignment _ _ value => value.toList ⊆ line

theorem assignedValue_subset (h : MadeOf line ts) : (assignedValue ts).toList ⊆ line := by
  refine toList_ofList_subset fun c hc => ?_
  obtain ⟨t, ht, hc⟩ := List.mem_flatMap.1 hc
  have htext : t.text ⊆ line := (h t ((List.takeWhile_sublist _).subset ht)).2
  split at hc
  · exact htext (content_subset t.lexeme hc)
  · exact htext hc

theorem Chained.within_ofReceiver? {receiver : String} {c : Chained} (h : MadeOf line ts)
    (hc : ofReceiver? receiver ts = some c) : c.Within line := by
  rw [ofReceiver?] at hc
  split at hc
  · rename_i property value ha
    obtain rfl := Option.some.inj hc
    unfold assignment? at ha
    split at ha
    · rename_i link name equals rest
      split at ha
      · obtain ⟨-, rfl⟩ := Prod.mk.inj (Option.some.inj ha)
        exact assignedValue_subset (h.mono fun t ht => by simp [ht])
      · exact absurd ha (by simp)
    · exact absurd ha (by simp)
  · have hcalls := Call.within_sequence h
    split at hc
    · exact absurd hc (by simp)
    · rename_i call rest hsequence
      obtain rfl := Option.some.inj hc
      rw [hsequence] at hcalls
      exact hcalls

theorem findReceiver?_eq_append {p : Token → Token → Bool} {r : Token × List Token}
    (h : findReceiver? p ts = some r) : ∃ before, ts = before ++ r.1 :: r.2 := by
  induction ts with
  | nil => exact absurd h (by simp [findReceiver?])
  | cons t ts ih =>
    cases ts with
    | nil => exact absurd h (by simp [findReceiver?])
    | cons u rest =>
      rw [findReceiver?] at h
      split at h
      · obtain rfl := Option.some.inj h
        exact ⟨[], rfl⟩
      · obtain ⟨before, hbefore⟩ := ih h
        exact ⟨t :: before, by rw [hbefore, List.cons_append]⟩

theorem findReceiver?_suffix {p : Token → Token → Bool} {r : Token × List Token}
    (h : findReceiver? p ts = some r) : r.2 <:+ ts := by
  obtain ⟨before, hts⟩ := findReceiver?_eq_append h
  exact ⟨before ++ [r.1], by simp [hts]⟩

theorem Chained.within_ofVariable? {c : Chained} (hc : ofVariable? (tokens line) = some c) :
    c.Within line := by
  obtain ⟨r, hr, hc⟩ := Option.bind_eq_some_iff.1 hc
  exact within_ofReceiver? ((madeOf_tokens line).mono (findReceiver?_suffix hr).subset) hc

/-- A chain on a class is one of calls on a receiver. -/
theorem Chain.exists_of_ofClass? {name : String} {chain : Chain}
    (h : ofClass? name ts = some chain) :
    ∃ p r, findReceiver? p ts = some r ∧
      Chained.ofReceiver? (String.ofList r.1.text) r.2 = some (.calls chain) := by
  obtain ⟨r, hr, hclass⟩ := Option.bind_eq_some_iff.1 h
  split at hclass
  · rename_i chain' hcalls
    obtain rfl := Option.some.inj hclass
    exact ⟨_, r, hr, hcalls⟩
  · exact absurd hclass (by simp)

theorem Chain.within_ofClass? {name : String} {chain : Chain}
    (hc : ofClass? name (tokens line) = some chain) : ∀ c ∈ chain.calls, c.Within line := by
  obtain ⟨p, r, hr, hc⟩ := exists_of_ofClass? hc
  exact Chained.within_ofReceiver? ((madeOf_tokens line).mono (findReceiver?_suffix hr).subset) hc

end Tokens

/-! ### Raw alterations -/

namespace Alteration

theorem exists_subset_of_firstMatch? {α : Type} {f : List Char → Option α} {s : List Char} {a : α}
    (h : firstMatch? f s = some a) : ∃ u, u ⊆ s ∧ f u = some a := by
  induction s with
  | nil => exact ⟨[], List.Subset.refl _, h⟩
  | cons c s ih =>
    rw [firstMatch?] at h
    split at h
    · rename_i b hb
      exact ⟨c :: s, List.Subset.refl _, hb.trans h⟩
    · obtain ⟨u, hu, ha⟩ := ih h
      exact ⟨u, List.Subset.trans hu (List.subset_cons_self c s), ha⟩

theorem afterBlanks?_subset {s r : List Char} (h : afterBlanks? s = some r) : r ⊆ s := by
  obtain ⟨b, bs, -, -, rfl⟩ := eq_append_of_afterBlanks? h
  exact List.subset_append_right _ _

theorem afterKeywordAndBlanks?_subset {k s r : List Char}
    (h : afterKeywordAndBlanks? k s = some r) : r ⊆ s := by
  obtain ⟨u, b, bs, -, -, -, rfl⟩ := eq_append_of_afterKeywordAndBlanks? h
  exact List.Subset.trans (List.subset_append_right _ _) (List.subset_append_right u _)

theorem afterTick_subset (s : List Char) : afterTick s ⊆ s := by
  unfold afterTick
  split
  · exact List.subset_cons_self _ _
  · exact List.Subset.refl s

theorem name?_subset {p : Char → Bool} {s : List Char} {r : List Char × List Char}
    (h : name? p s = some r) : r.1 ⊆ s ∧ r.2 ⊆ s := by
  simp only [name?] at h
  split at h
  · exact absurd h (by simp)
  · rename_i c name htake
    obtain rfl := Option.some.inj h
    refine ⟨?_, ?_⟩
    · rw [← htake]
      exact List.Subset.trans (List.takeWhile_sublist p).subset (afterTick_subset s)
    · exact List.Subset.trans (afterTick_subset _)
        (List.Subset.trans (List.dropWhile_sublist p).subset (afterTick_subset s))

theorem verb?_subset {s : List Char} {r : Bool × List Char} (h : verb? s = some r) : r.2 ⊆ s := by
  unfold verb? at h
  split at h
  · rename_i rest hmodify
    obtain rfl := Option.some.inj h
    exact afterKeywordAndBlanks?_subset hmodify
  · obtain ⟨rest, hchange, rfl⟩ := Option.map_eq_some_iff.1 h
    exact afterKeywordAndBlanks?_subset hchange

theorem column?_subset {s : List Char} {r : List Char × List Char} (h : column? s = some r) :
    r.1 ⊆ s ∧ r.2 ⊆ s := by
  unfold column? at h
  split at h
  · rename_i r' hr
    obtain rfl := Option.some.inj h
    obtain ⟨s', hs', hr⟩ := Option.bind_eq_some_iff.1 hr
    have hsub := afterKeywordAndBlanks?_subset hs'
    exact ⟨List.Subset.trans (name?_subset hr).1 hsub, List.Subset.trans (name?_subset hr).2 hsub⟩
  · exact name?_subset h

theorem match?_subset {s : List Char} {m : Match} (h : match? s = some m) :
    m.column ⊆ s ∧ m.tail ⊆ s := by
  obtain ⟨s1, h1, h⟩ := Option.bind_eq_some_iff.1 h
  obtain ⟨s2, h2, h⟩ := Option.bind_eq_some_iff.1 h
  obtain ⟨r3, h3, h⟩ := Option.bind_eq_some_iff.1 h
  obtain ⟨s4, h4, h⟩ := Option.bind_eq_some_iff.1 h
  obtain ⟨r5, h5, h⟩ := Option.bind_eq_some_iff.1 h
  obtain ⟨r6, h6, h⟩ := Option.bind_eq_some_iff.1 h
  obtain rfl := Option.some.inj h
  have hsub : r5.2 ⊆ s := List.Subset.trans (verb?_subset h5) <|
    List.Subset.trans (afterBlanks?_subset h4) <| List.Subset.trans (name?_subset h3).2 <|
      List.Subset.trans (afterKeywordAndBlanks?_subset h2)
      (afterKeywordAndBlanks?_subset h1)
  exact ⟨List.Subset.trans (column?_subset h6).1 hsub,
    List.Subset.trans (List.takeWhile_sublist _).subset
      (List.Subset.trans (column?_subset h6).2 hsub)⟩

theorem trimTicks_subset (s : List Char) : trimTicks s ⊆ s := by
  intro c hc
  rw [trimTicks, List.mem_reverse] at hc
  exact (List.dropWhile_sublist _).subset
    (List.mem_reverse.1 ((List.dropWhile_sublist _).subset hc))

theorem splitNewName_subset (change : Bool) (s : List Char) :
    (∀ new ∈ (splitNewName change s).1, new ⊆ s) ∧ (splitNewName change s).2 ⊆ s := by
  rw [splitNewName]
  split
  · refine ⟨?_, ?_⟩
    · rintro new hnew
      obtain rfl := Option.some.inj hnew
      exact List.Subset.trans (trimTicks_subset _) (List.takeWhile_sublist _).subset
    · exact List.Subset.trans (List.dropWhile_sublist _).subset (List.dropWhile_sublist _).subset
  · exact ⟨by simp, List.Subset.refl s⟩

theorem splitParameters_subset (s : List Char) :
    ∀ parameters ∈ (splitParameters s).1, parameters ⊆ s := by
  intro parameters hp
  unfold splitParameters at hp
  split at hp
  · rename_i inner htrim
    simp only at hp
    split at hp
    · exact absurd hp (by simp)
    · obtain rfl := Option.some.inj hp
      have hinner : inner ⊆ s := by
        have hsub : trimStart s ⊆ s := (List.dropWhile_sublist _).subset
        rw [htrim] at hsub
        exact List.Subset.trans (List.subset_cons_self _ inner) hsub
      exact List.Subset.trans (trim_subset _)
        (List.Subset.trans (List.takeWhile_sublist _).subset hinner)
  · exact absurd hp (by simp)

/-- An alteration is **within** a line if what it gives to the column is made of characters of the
line. -/
structure Within (line : List Char) (a : Alteration) : Prop where
  column : a.column.toList ⊆ line
  renamed : ∀ new ∈ a.renamed, new.toList ⊆ line
  parameters : ∀ text ∈ a.parameters, text.toList ⊆ line

theorem within_of_parse? {line : List Char} {a : Alteration} (h : parse? line = some a) :
    a.Within line := by
  obtain ⟨m, hm, ha⟩ := Option.bind_eq_some_iff.1 h
  obtain ⟨u, hu, hm⟩ := exists_subset_of_firstMatch? hm
  obtain ⟨hcolumn, htail⟩ := match?_subset hm
  have htail : trimStart (m.tail.takeWhile fun c => !endsStatement c) ⊆ line :=
    List.Subset.trans (List.dropWhile_sublist _).subset
      (List.Subset.trans (List.takeWhile_sublist _).subset (List.Subset.trans htail hu))
  obtain ⟨hnew, hdefinition⟩ :=
    splitNewName_subset m.change (trimStart (m.tail.takeWhile fun c => !endsStatement c))
  have hafter := List.Subset.trans (List.dropWhile_sublist fun c => !endsWord c).subset hdefinition
  simp only [ofMatch?] at ha
  split at ha
  · exact absurd ha (by simp)
  · obtain rfl := Option.some.inj ha
    refine ⟨toList_ofList_subset (List.Subset.trans hcolumn hu), ?_, ?_⟩
    · rintro s hs
      obtain ⟨new, hmem, rfl⟩ := Option.map_eq_some_iff.1 hs
      exact toList_ofList_subset (List.Subset.trans (hnew new hmem) htail)
    · rintro s hs
      obtain ⟨parameters, hmem, rfl⟩ := Option.map_eq_some_iff.1 hs
      exact toList_ofList_subset
        (List.Subset.trans (splitParameters_subset _ parameters hmem)
          (List.Subset.trans hafter htail))

end Alteration

/-! ### Statements -/

namespace Statement

/-- A statement is **within** a line if its texts are made of characters of the line. -/
def Within (line : List Char) : Statement → Prop
  | alteration a => a.Within line
  | renameTable _ new => new.toList ⊆ line
  | directive _ table => table.toList ⊆ line
  | assignment _ value => value.toList ⊆ line
  | calls chain => ∀ c ∈ chain.calls, c.Within line
  | downBoundary | blockClose | query _ => True

end Statement

theorem Call.Within.stringAt? {line : List Char} {c : Call} (h : c.Within line) {i : Nat}
    {s : String} (hs : c.stringAt? i = some s) : s.toList ⊆ line := by
  obtain ⟨a, ha, hs⟩ := Option.bind_eq_some_iff.1 hs
  refine h.strings s (List.mem_flatMap.2 ⟨a, List.mem_of_getElem? ha, ?_⟩)
  cases a with
  | string content => exact List.mem_singleton.2 (Option.some.inj hs).symm
  | array items => exact absurd hs (by simp [Argument.string?])
  | raw text => exact absurd hs (by simp [Argument.string?])

theorem Call.Within.firstString? {line : List Char} {c : Call} (h : c.Within line) {s : String}
    (hs : c.firstString? = some s) : s.toList ⊆ line := by
  obtain ⟨a, ha, hs⟩ := Option.bind_eq_some_iff.1 hs
  exact h.strings s (List.mem_flatMap.2 ⟨a, List.mem_of_head? ha, List.mem_of_head? hs⟩)

namespace Statement

variable {line : List Char}

theorem within_ofSchemaChain {chain : Chain} (h : ∀ c ∈ chain.calls, c.Within line) {s : Statement}
    {l : Location} (hs : ofSchemaChain chain l = .ok s) : s.Within line := by
  have hdirective : ∀ {verb : TableVerb} {call : Call}, call.Within line →
      tableDirective verb call l = .ok s → s.Within line := by
    intro verb call hcall hs
    rw [tableDirective] at hs
    split at hs
    · rename_i table htable
      obtain rfl := Except.ok.inj hs
      exact hcall.stringAt? htable
    · exact absurd hs (by simp)
  rw [ofSchemaChain] at hs
  split at hs
  · rename_i call hcall
    have hcall : call.Within line := by
      refine h call ?_
      rw [directiveCall?] at hcall
      split at hcall
      · rename_i found hfind
        obtain rfl := Option.some.inj hcall
        exact List.mem_of_find?_eq_some hfind
      · exact List.mem_of_getLast? hcall
    unfold ofDirectiveCall at hs
    split at hs
    · split at hs
      · rename_i old new _ hnew
        obtain rfl := Except.ok.inj hs
        exact hcall.stringAt? hnew
      · exact absurd hs (by simp)
    · exact hdirective hcall hs
    · exact hdirective hcall hs
    · exact hdirective hcall hs
    · exact hdirective hcall hs
    · obtain rfl := Except.ok.inj hs
      trivial
  · obtain rfl := Except.ok.inj hs
    trivial

/-- **A statement is made of the characters of its line**, and the line has no closing brace if
the statement has any text. -/
theorem within_of_recognize {inTable : Bool} {l : Location} {s : Statement}
    (h : recognize line inTable l = .ok (some s)) :
    s.Within line ∧ (s = downBoundary ∨ s = blockClose ∨ '\x7d' ∉ line) := by
  rw [recognize] at h
  split at h
  · obtain rfl := Option.some.inj (Except.ok.inj h)
    exact ⟨trivial, Or.inl rfl⟩
  split at h
  · obtain rfl := Option.some.inj (Except.ok.inj h)
    exact ⟨trivial, Or.inr (Or.inl rfl)⟩
  rename_i hbrace
  refine ⟨?_, Or.inr (Or.inr (by simpa using hbrace))⟩
  split at h
  · rename_i a ha
    obtain rfl := Option.some.inj (Except.ok.inj h)
    exact Alteration.within_of_parse? ha
  split at h
  · rename_i chain hchain
    obtain ⟨s', hs, hsome⟩ := exists_of_map_eq_ok h
    obtain rfl := Option.some.inj hsome
    exact within_ofSchemaChain (Chain.within_ofClass? hchain) hs
  split at h
  · obtain ⟨c, hc, rfl⟩ := Option.map_eq_some_iff.1 (Except.ok.inj h)
    have hwithin := Chained.within_ofVariable? hc
    cases c with
    | calls chain => exact hwithin
    | assignment receiver property value => exact hwithin
  · exact absurd h (by simp)

end Statement

end SchemaHistory

import SchemaHistory.Proofs.LogicalLines
import SchemaHistory.Proofs.SchemaCharacters

/-!
# Schemas without line breaks

Two restrictions on the lines of sources carry over to the schema. No logical line has a line
break, because comments are removed one physical line at a time
(`SchemaHistory.Source.ne_of_mem_normalize`). And a line with a closing brace ends a block, so no
text is ever taken from it. Hence no text of a schema breaks a line or closes a block
(`SchemaHistory.Replay.unbroken_sources`).
-/

namespace SchemaHistory

open Source Text

/-- A character that neither breaks a line nor closes a block. -/
def IsUnbroken (c : Char) : Prop :=
  c ≠ '\n' ∧ c ≠ '\r' ∧ c ≠ '\x7d'

theorem isUnbroken_of_isAsciiLetter {c : Char} (h : isAsciiLetter c = true ∨ c = ' ') :
    IsUnbroken c := by
  rcases h with h | rfl
  · refine ⟨?_, ?_, ?_⟩ <;> rintro rfl <;> exact absurd h (by decide)
  · exact ⟨by decide, by decide, by decide⟩

/-- **Whatever is replayed, no text of the schema breaks a line or closes a block.** -/
theorem Replay.unbroken_sources {r : Replay} (h : r.Over IsUnbroken) (ms : List Migration) :
    (r.sources ms).1.Over IsUnbroken := by
  refine sources_induction (P := Replay.Over IsUnbroken) ?_ (fun _ => over_close) ms h
  rintro r s l ⟨source, text, inTable, l', htext, hs⟩ hr
  obtain ⟨hwithin, rfl | rfl | hbrace⟩ := Statement.within_of_recognize hs
  · exact hr
  · exact over_close hr
  · have hline : ∀ c ∈ text.toList, IsUnbroken c := by
      intro c hc
      obtain ⟨hbreak, hreturn⟩ := Source.ne_of_mem_normalize htext c hc
      exact ⟨hbreak, hreturn, fun hclose => hbrace (hclose ▸ hc)⟩
    exact over_step (fun _ => isUnbroken_of_isAsciiLetter) hline hr hwithin l

end SchemaHistory

import ScriptDelta.Proofs.Block.Standalone
import ScriptDelta.Proofs.Catalog.Lookup

/-! # The bodies of a catalog

The body of a definition is the block after its header, whichever search has found it. So a body is
a text of its own: the reader of blocks finds it again in any surroundings, all of it, and closed
unless the definition is truncated.
-/

namespace ScriptDelta.Catalog

/-- The body of a definition is a block of the text. -/
theorem exists_body {text key : String} {definition : Definition}
    (found : (ofText text).get? key = some definition) :
    ∃ place, definition.body.toList = (Block.following place).text ∧
      definition.truncated = !(Block.following place).closed := by
  obtain ⟨finding, -, -, rfl⟩ := exists_finding_of_get? found
  exact ⟨finding.place, String.toList_ofList, rfl⟩

/-- Every block that is found is a part of the text and stands alone, no closed block is a proper
beginning of another one, of whatever text, and the body of a definition is the block at its own
front. -/
theorem bodies_stand_alone (text : String) :
    (∀ offset,
      (∃ before after, text.toList = before ++ ((Block.find text.toList offset).text ++ after) ∧
        (Block.find text.toList offset).start = Text.byteSize before) ∧
      (Block.find text.toList offset).Standalone) ∧
    (∀ offset (otherText : List Char) otherOffset,
      (Block.find text.toList offset).closed = true →
      (Block.find otherText otherOffset).closed = true →
      (Block.find text.toList offset).text <+: (Block.find otherText otherOffset).text →
      (Block.find text.toList offset).text = (Block.find otherText otherOffset).text) ∧
    ∀ key definition, (ofText text).get? key = some definition →
      Block.find definition.body.toList 0 = ⟨0, definition.body.toList, !definition.truncated⟩ := by
  refine ⟨fun offset => ⟨Block.exists_slice _ _, (Block.isolated_following _).standalone⟩, ?_, ?_⟩
  · intro offset otherText otherOffset closed otherClosed start
    exact (Block.isolated_following _).text_eq (Block.isolated_following _) closed otherClosed start
  · intro key definition found
    obtain ⟨place, body, truncated⟩ := exists_body found
    rw [body, truncated, Bool.not_not]
    exact (Block.isolated_following place).standalone.find_text

/-- A slash behind the brace makes no comment of the one before it. -/
theorem bodies_stand_alone_slash :
    Block.find "a\x7b/\x7d".toList 1 = ⟨1, "\x7b/\x7d".toList, true⟩ ∧
      Block.find "b\x7b/\x7d/c".toList 1 = ⟨1, "\x7b/\x7d".toList, true⟩ := by
  have found : Block.find "a\x7b/\x7d".toList 1 = ⟨1, "\x7b/\x7d".toList, true⟩ := by decide
  have standalone := ((bodies_stand_alone "a\x7b/\x7d").1 1).2
  rw [found] at standalone
  exact ⟨found, standalone.closed rfl "b".toList "/c".toList⟩

end ScriptDelta.Catalog

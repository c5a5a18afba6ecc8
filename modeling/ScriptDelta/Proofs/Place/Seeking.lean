import ScriptDelta.Place

/-! # Seeking offsets

A place is sought by its offset. From the start of a text seeking comes to the last place that is
not past the offset, and from any place to every later place of the text by that place's offset.
-/

namespace ScriptDelta

/-- The longest beginning of a text that has at most `offset` bytes. -/
def Text.Floor (text : List Char) (offset : Nat) (before : List Char) : Prop :=
  before <+: text ∧ byteSize before ≤ offset ∧
    ∀ other, other <+: text → byteSize other ≤ offset → other <+: before

namespace Place

/-- Seeking an offset comes to the last place that is not past it. -/
theorem seek_start (text : List Char) (offset : Nat) :
    ∃ before after, text = before ++ after ∧ Text.Floor text offset before ∧
      (start text).seek offset = ⟨Text.byteSize before, after⟩ := by
  have seeking (passed : Nat) (text : List Char) (reached : passed ≤ offset) :
      ∃ before after, text = before ++ after ∧ passed + Text.byteSize before ≤ offset ∧
        (∀ other, other <+: text → passed + Text.byteSize other ≤ offset → other <+: before) ∧
          seek.go offset passed text = ⟨passed + Text.byteSize before, after⟩ := by
    induction text generalizing passed with
    | nil => exact ⟨[], [], rfl, reached, fun other start _ => start, rfl⟩
    | cons c text ih =>
      by_cases fits : passed + c.utf8Size ≤ offset
      · obtain ⟨before, after, rfl, within, longest, sought⟩ := ih _ fits
        refine ⟨c :: before, after, rfl, by simpa [Nat.add_assoc] using within, ?_, ?_⟩
        · intro other start reached
          cases other with
          | nil => exact List.nil_prefix
          | cons d other =>
            obtain ⟨rfl, start'⟩ := List.cons_prefix_cons.mp start
            refine List.cons_prefix_cons.mpr ⟨rfl, longest other start' ?_⟩
            simpa [Nat.add_assoc] using reached
        · simp [seek.go, fits, sought, Nat.add_assoc]
      · refine ⟨[], c :: text, rfl, reached, ?_, by simp [seek.go, fits]⟩
        intro other start within
        cases other with
        | nil => exact List.nil_prefix
        | cons d other =>
          obtain ⟨rfl, -⟩ := List.cons_prefix_cons.mp start
          rw [Text.byteSize_cons] at within
          omega
  obtain ⟨before, after, rfl, within, longest, sought⟩ := seeking 0 text (Nat.zero_le _)
  refine ⟨before, after, rfl, ⟨List.prefix_append .., ?_, ?_⟩, ?_⟩
  · simpa using within
  · simpa using longest
  · simpa [start, seek] using sought

/-- Seeking the offset of a later place comes to that place. -/
theorem seek_of_reaches {place later : Place} (reaches : place.Reaches later) :
    place.seek later.offset = later := by
  have seeking (offset : Nat) (passed rest : List Char) :
      seek.go (offset + Text.byteSize passed) offset (passed ++ rest) =
        ⟨offset + Text.byteSize passed, rest⟩ := by
    induction passed generalizing offset with
    | nil =>
      cases rest with
      | nil => rfl
      | cons c rest =>
        have size := c.utf8Size_pos
        have beyond : ¬ offset + c.utf8Size ≤ offset := by omega
        simp [seek.go, beyond]
    | cons c passed ih =>
      have within : offset + c.utf8Size ≤ offset + Text.byteSize (c :: passed) := by
        rw [Text.byteSize_cons]
        omega
      have next := ih (offset + c.utf8Size)
      rw [Nat.add_assoc, ← Text.byteSize_cons] at next
      simp only [List.cons_append, seek.go, within, ↓reduceIte, next]
  obtain ⟨passed, rest, offset⟩ := reaches
  obtain ⟨laterOffset, laterRest⟩ := later
  dsimp only at rest offset ⊢
  rw [seek, rest, offset, seeking]

end Place

end ScriptDelta

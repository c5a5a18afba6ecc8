import ScriptDelta.Block
import ScriptDelta.Proofs.Place.Passing

/-! # Slices of texts

A slice is cut out of a text between two byte offsets. There is one exactly if both offsets lie
between characters of the text and the first is not behind the second (`slice?_eq_some_iff`).
-/

namespace ScriptDelta.Text

/-- What comes before and after a byte offset, unless the offset lies inside a character or beyond
the end of the text. -/
def splitAt? : List Char → Nat → Option (List Char × List Char)
  | text, 0 => some ([], text)
  | [], _ + 1 => none
  | c :: text, offset + 1 =>
    if c.utf8Size ≤ offset + 1 then
      (splitAt? text (offset + 1 - c.utf8Size)).map fun (before, after) => (c :: before, after)
    else none

/-- The characters of the text between two byte offsets. -/
def slice? (text : List Char) (span : Span) : Option (List Char) :=
  if span.start ≤ span.stop then do
    let (front, _) ← splitAt? text span.stop
    let (_, part) ← splitAt? front span.start
    return part
  else none

/-- A byte offset between two characters of the text, or at one of its ends. -/
def IsBoundary (text : List Char) (offset : Nat) : Prop :=
  ∃ before after, text = before ++ after ∧ offset = byteSize before

theorem splitAt?_eq_some_iff {text before after : List Char} {offset : Nat} :
    splitAt? text offset = some (before, after) ↔
      text = before ++ after ∧ offset = byteSize before := by
  fun_induction splitAt? text offset generalizing before with
  | case1 text =>
    simp only [Option.some.injEq, Prod.mk.injEq]
    constructor
    · rintro ⟨rfl, rfl⟩
      exact ⟨rfl, rfl⟩
    · rintro ⟨rfl, none⟩
      obtain rfl := byteSize_eq_zero_iff.mp none.symm
      exact ⟨rfl, rfl⟩
  | case2 offset =>
    refine iff_of_false (by simp) ?_
    rintro ⟨split, size⟩
    obtain ⟨rfl, -⟩ := List.append_eq_nil_iff.mp split.symm
    simp at size
  | case3 c text offset fits ih =>
    simp only [Option.map_eq_some_iff, Prod.exists, Prod.mk.injEq]
    constructor
    · rintro ⟨front, back, found, rfl, rfl⟩
      obtain ⟨rfl, size⟩ := ih.mp found
      refine ⟨rfl, ?_⟩
      rw [byteSize_cons]
      omega
    · rintro ⟨split, size⟩
      cases before with
      | nil => simp at size
      | cons d before =>
        obtain ⟨rfl, rfl⟩ := List.cons.inj split
        rw [byteSize_cons] at size
        exact ⟨before, after, ih.mpr ⟨rfl, by omega⟩, rfl, rfl⟩
  | case4 c text offset beyond =>
    refine iff_of_false (by simp) ?_
    rintro ⟨split, size⟩
    cases before with
    | nil => simp at size
    | cons d before =>
      obtain ⟨rfl, -⟩ := List.cons.inj split
      rw [byteSize_cons] at size
      omega

/-- A slice is what stands in the text from the one offset to the other. -/
theorem slice?_eq_some_iff {text part : List Char} {span : Span} :
    slice? text span = some part ↔
      ∃ before after, text = before ++ (part ++ after) ∧ span.start = byteSize before ∧
        span.stop = byteSize (before ++ part) := by
  simp only [slice?, Option.ite_none_right_eq_some, bind, Option.bind_eq_some_iff, Prod.exists,
    splitAt?_eq_some_iff, pure, Option.some.injEq]
  constructor
  · rintro ⟨-, front, after, ⟨rfl, stop⟩, before, _, ⟨rfl, start⟩, rfl⟩
    exact ⟨before, after, List.append_assoc .., start, stop⟩
  · rintro ⟨before, after, rfl, start, stop⟩
    refine ⟨?_, before ++ part, after, ⟨(List.append_assoc ..).symm, stop⟩, before, part,
      ⟨rfl, start⟩, rfl⟩
    rw [start, stop, byteSize_append]
    omega

/-- The part of a text between two offsets that are in order and lie between characters. -/
structure IsSlice (text : List Char) (span : Span) (part : List Char) : Prop where
  start_le_stop : span.start ≤ span.stop
  stop_le_byteSize : span.stop ≤ byteSize text
  isBoundary_start : IsBoundary text span.start
  isBoundary_stop : IsBoundary text span.stop
  slice?_eq : slice? text span = some part

theorem isSlice_of_slice? {text part : List Char} {span : Span}
    (sliced : slice? text span = some part) : IsSlice text span part := by
  obtain ⟨before, after, rfl, start, stop⟩ := slice?_eq_some_iff.mp sliced
  refine ⟨?_, ?_, ⟨before, part ++ after, rfl, start⟩,
    ⟨before ++ part, after, (List.append_assoc ..).symm, stop⟩, sliced⟩
  · rw [start, stop, byteSize_append]
    omega
  · rw [stop]
    simp only [byteSize_append]
    omega

example : slice? "aé\x7b\x7d".toList ⟨3, 5⟩ = some "\x7b\x7d".toList := by decide

example : slice? "aé\x7b\x7d".toList ⟨2, 5⟩ = none := by decide

end ScriptDelta.Text

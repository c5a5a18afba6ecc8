import ScriptDelta.Header

/-! # Headers in parts of a text

The readers of headers count bytes but never ask how many they have counted. So the headers of
methods are found in a part of a text at the offsets that they have in the whole, less the offset of
the part (`occurrences_method?_shift`).
-/

namespace ScriptDelta

namespace Place

/-- The place in a text that has some more bytes in front. -/
def shift (place : Place) (more : Nat) : Place :=
  ⟨place.offset + more, place.rest⟩

variable (place : Place) (more : Nat)

@[simp] theorem shift_rest : (place.shift more).rest = place.rest := rfl

@[simp] theorem shift_offset : (place.shift more).offset = place.offset + more := rfl

@[simp] theorem skipWhile_shift (keep : Char → Bool) :
    (place.shift more).skipWhile keep = (place.skipWhile keep).shift more := by
  simp [skipWhile, shift, Nat.add_right_comm]

@[simp] theorem skipBlanks_shift :
    (place.shift more).skipBlanks = place.skipBlanks.shift more :=
  skipWhile_shift ..

@[simp] theorem skipBlanks?_shift :
    (place.shift more).skipBlanks? = place.skipBlanks?.map (·.shift more) := by
  simp only [skipBlanks?, shift_rest, skipBlanks_shift]
  split <;> rfl

@[simp] theorem skip?_shift (word : String) :
    (place.shift more).skip? word = (place.skip? word).map (·.shift more) := by
  simp only [skip?, shift_rest, Option.map_map]
  congr 1
  funext rest
  simp [shift, Nat.add_right_comm]

@[simp] theorem name?_shift :
    (place.shift more).name? =
      place.name?.map fun (name, later) => (name, later.shift more) := by
  simp only [name?, shift_rest, skipWhile_shift]
  split <;> rfl

theorem afterNewlines_shift (offset : Nat) (text : List Char) :
    afterNewlines (offset + more) text = (afterNewlines offset text).map (·.shift more) := by
  induction text generalizing offset with
  | nil => rfl
  | cons c text ih =>
    simp only [afterNewlines, Nat.add_right_comm offset more, ih]
    split <;> rfl

theorem lineStarts_shift : (place.shift more).lineStarts = place.lineStarts.map (·.shift more) := by
  simp only [lineStarts, shift_offset, shift_rest, afterNewlines_shift, List.map_cons]

end Place

namespace Header

/-- The reader makes the same of a text wherever the bytes are counted from. -/
def Shifts {α : Type} (read? : Place → Option (α × Place)) : Prop :=
  ∀ place more, read? (place.shift more) =
    (read? place).map fun (header, later) => (header, later.shift more)

theorem shifts_named? : Shifts named? := by
  intro place more
  simp only [named?, bind, pure, Place.name?_shift, Place.skipBlanks_shift, Place.skip?_shift,
    Place.skipWhile_shift, Place.shift_rest, Option.bind_map, Option.map_bind, Function.comp_def,
    Option.map_some]

theorem shifts_method? : Shifts method? := by
  intro place more
  simp only [method?, bind, Place.skip?_shift, Place.skipBlanks?_shift, Option.bind_map,
    Function.comp_def, shifts_named? _ more, Option.map_or, Option.map_bind]

/-- The headers of a form are found in the same places. -/
theorem occurrences_shift {α : Type} {read? : Place → Option (α × Place)} (shifts : Shifts read?)
    (place : Place) (more : Nat) :
    occurrences read? (place.shift more) =
      (occurrences read? place).map fun (start, header) => (start.shift more, header) := by
  have further (starts : List Place) (resume : Nat) :
      occurrences.go read? (resume + more) (starts.map (·.shift more)) =
        (occurrences.go read? resume starts).map
          fun (start, header) => (start.shift more, header) := by
    induction starts generalizing resume with
    | nil => rfl
    | cons start later ih =>
      have shifted := shifts start.skipBlanks more
      simp only [List.map_cons, occurrences.go, Place.shift_offset, Nat.add_lt_add_iff_right,
        Place.skipBlanks_shift]
      split
      · exact ih resume
      · cases found : read? start.skipBlanks with
        | none =>
          rw [found] at shifted
          rw [shifted, Nat.add_right_comm]
          exact ih _
        | some header =>
          rw [found] at shifted
          rw [shifted]
          exact congrArg _ (ih header.2.offset)
  rw [occurrences, occurrences, Place.lineStarts_shift]
  exact further _ _

end Header

end ScriptDelta

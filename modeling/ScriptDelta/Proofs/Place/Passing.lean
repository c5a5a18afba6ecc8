import Mathlib.Data.List.TakeWhile
import ScriptDelta.Place
import ScriptDelta.Proofs.Text.NameChar

/-! # What the readers of a place pass

A reader succeeds exactly if the text goes on with what it demands, and it stops at the place after
that. `Place.Passes` names the text between two places; stretches that are passed one after the
other are passed together, and the same stretch leads to one place only.
-/

namespace ScriptDelta

theorem Text.byteSize_eq_zero_iff {text : List Char} : byteSize text = 0 ↔ text = [] := by
  cases text with
  | nil => simp
  | cons c text =>
    have := c.utf8Size_pos
    simp only [byteSize_cons, reduceCtorEq, iff_false]
    omega

/-- A proper beginning of a text has fewer bytes. -/
theorem Text.byteSize_lt {first second : List Char} (start : first <+: second)
    (proper : first ≠ second) : byteSize first < byteSize second := by
  obtain ⟨more, rfl⟩ := start
  have occupied : byteSize more ≠ 0 := fun none => by simp [byteSize_eq_zero_iff.mp none] at proper
  rw [byteSize_append]
  omega

/-- Of two beginnings of a text the one with fewer bytes is a beginning of the other. -/
theorem Text.isPrefix_of_byteSize_le {first second text : List Char} (left : first <+: text)
    (right : second <+: text) (fewer : byteSize first ≤ byteSize second) : first <+: second := by
  rcases List.prefix_or_prefix_of_prefix left right with start | start
  · exact start
  · by_cases same : second = first
    · exact same ▸ List.prefix_refl _
    · have := byteSize_lt start same
      omega

namespace Place

/-- The text from one place to another. -/
def Passes (place : Place) (passed : List Char) (later : Place) : Prop :=
  place.rest = passed ++ later.rest ∧ later.offset = place.offset + Text.byteSize passed

namespace Passes

variable {place middle later other : Place} {first second passed : List Char}

theorem reaches (passes : place.Passes passed later) : place.Reaches later :=
  ⟨passed, passes⟩

@[simp] theorem nil_iff : place.Passes [] later ↔ later = place := by
  obtain ⟨offset, rest⟩ := place
  obtain ⟨laterOffset, laterRest⟩ := later
  simp only [Passes, List.nil_append, Text.byteSize_nil, Nat.add_zero, Place.mk.injEq]
  exact ⟨fun h => ⟨h.2, h.1.symm⟩, fun h => ⟨h.2.symm, h.1⟩⟩

/-- Two stretches are passed together exactly if they are passed one after the other. -/
theorem append_iff : place.Passes (first ++ second) later ↔
    ∃ middle, place.Passes first middle ∧ middle.Passes second later := by
  constructor
  · rintro ⟨rest, offset⟩
    refine ⟨⟨place.offset + Text.byteSize first, second ++ later.rest⟩, ⟨?_, rfl⟩, rfl, ?_⟩
    · rw [rest, List.append_assoc]
    · rw [offset, Text.byteSize_append, Nat.add_assoc]
  · rintro ⟨middle, ⟨rest, offset⟩, laterRest, laterOffset⟩
    refine ⟨by rw [rest, laterRest, List.append_assoc], ?_⟩
    rw [laterOffset, offset, Text.byteSize_append, Nat.add_assoc]

theorem trans (left : place.Passes first middle) (right : middle.Passes second later) :
    place.Passes (first ++ second) later :=
  append_iff.mpr ⟨middle, left, right⟩

theorem offset_le (passes : place.Passes passed later) : place.offset ≤ later.offset := by
  rw [passes.2]
  omega

/-- A stretch leads to one place. -/
theorem unique (left : place.Passes passed later) (right : place.Passes passed other) :
    later = other := by
  obtain ⟨rest, offset⟩ := left
  obtain ⟨otherRest, otherOffset⟩ := right
  cases later
  cases other
  simp_all

theorem cancel (whole : place.Passes (first ++ second) later)
    (left : place.Passes first middle) : middle.Passes second later := by
  obtain ⟨other, otherLeft, right⟩ := append_iff.mp whole
  exact left.unique otherLeft ▸ right

/-- Of two places further on, one is reached from the other. -/
theorem linear (left : place.Passes first middle) (right : place.Passes second later) :
    (∃ more, middle.Passes more later ∧ second = first ++ more) ∨
      ∃ more, later.Passes more middle ∧ first = second ++ more := by
  rcases List.prefix_or_prefix_of_prefix ⟨_, left.1.symm⟩ ⟨_, right.1.symm⟩ with
    ⟨more, rfl⟩ | ⟨more, rfl⟩
  · exact .inl ⟨more, right.cancel left, rfl⟩
  · exact .inr ⟨more, left.cancel right, rfl⟩

end Passes

/-- A run of characters is taken and skipped exactly if the text between has only such characters
and the text from there on begins with another one. -/
theorem takeWhile_skipWhile_iff {place later : Place} {keep : Char → Bool} {passed : List Char} :
    place.rest.takeWhile keep = passed ∧ place.skipWhile keep = later ↔
      (∀ c ∈ passed, keep c = true) ∧ place.Passes passed later ∧
        later.rest.head?.any keep = false := by
  constructor
  · rintro ⟨rfl, rfl⟩
    refine ⟨fun c => List.mem_takeWhile_imp, ⟨List.takeWhile_append_dropWhile.symm, rfl⟩, ?_⟩
    cases stopped : place.rest.dropWhile keep with
    | nil => simp [skipWhile, stopped]
    | cons c rest =>
      have first := List.head_dropWhile_not keep (l := place.rest) (by simp [stopped])
      simpa [skipWhile, stopped] using first
  · rintro ⟨kept, ⟨rest, offset⟩, stops⟩
    have taken : place.rest.takeWhile keep = passed := by
      rw [rest, Text.takeWhile_append_of_stops kept stops]
    have dropped : place.rest.dropWhile keep = later.rest := by
      rw [rest, List.dropWhile_append_of_pos kept]
      cases next : later.rest with
      | nil => rfl
      | cons c _ => simp_all
    exact ⟨taken, by rw [skipWhile, taken, dropped, ← offset]⟩

theorem skipWhile_eq_iff {place later : Place} {keep : Char → Bool} :
    place.skipWhile keep = later ↔
      ∃ passed, (∀ c ∈ passed, keep c = true) ∧ place.Passes passed later ∧
        later.rest.head?.any keep = false := by
  simp only [← takeWhile_skipWhile_iff, exists_and_right, exists_eq', true_and]

/-- Blanks are skipped up to the next other character. -/
theorem skipBlanks_eq_iff {place later : Place} :
    place.skipBlanks = later ↔
      ∃ gap, Text.AllBlank gap ∧ place.Passes gap later ∧
        later.rest.head?.any Text.isBlank = false :=
  skipWhile_eq_iff

theorem skipBlanks?_eq_some_iff {place later : Place} :
    place.skipBlanks? = some later ↔
      ∃ gap, gap ≠ [] ∧ Text.AllBlank gap ∧ place.Passes gap later ∧
        later.rest.head?.any Text.isBlank = false := by
  simp only [skipBlanks?, Option.ite_none_right_eq_some, Option.some.injEq]
  constructor
  · rintro ⟨occupied, skipped⟩
    obtain ⟨gap, blank, passes, stops⟩ := skipBlanks_eq_iff.mp skipped
    refine ⟨gap, ?_, blank, passes, stops⟩
    rintro rfl
    rw [Passes.nil_iff.mp passes, occupied] at stops
    contradiction
  · rintro ⟨gap, occupied, blank, passes, stops⟩
    refine ⟨?_, skipBlanks_eq_iff.mpr ⟨gap, blank, passes, stops⟩⟩
    cases gap with
    | nil => contradiction
    | cons c gap => simpa [passes.1] using blank c (List.mem_cons_self ..)

theorem isPrefixOf?_eq_some_iff {first text rest : List Char} :
    first.isPrefixOf? text = some rest ↔ text = first ++ rest := by
  induction first generalizing text with
  | nil =>
    change some text = some rest ↔ _
    simp
  | cons c first ih =>
    cases text with
    | nil =>
      change none = some rest ↔ _
      simp
    | cons d text =>
      change (if c == d then first.isPrefixOf? text else none) = some rest ↔ _
      simp only [Option.ite_none_right_eq_some, beq_iff_eq, ih,
        List.cons_append, List.cons.injEq]
      exact and_congr_left fun _ => eq_comm

theorem skip?_eq_some_iff {place later : Place} {word : String} :
    place.skip? word = some later ↔ place.Passes word.toList later := by
  obtain ⟨offset, rest⟩ := later
  simp only [skip?, Option.map_eq_some_iff, isPrefixOf?_eq_some_iff, Passes, Place.mk.injEq]
  constructor
  · rintro ⟨rest, split, rfl, rfl⟩
    exact ⟨split, rfl⟩
  · rintro ⟨split, rfl⟩
    exact ⟨rest, split, rfl, rfl⟩

/-- A name is read to its end. -/
theorem name?_eq_some_iff {place later : Place} {name : List Char} :
    place.name? = some (name, later) ↔
      Text.IsName name ∧ place.Passes name later ∧
        later.rest.head?.any Text.isNamePart = false := by
  have first : place.rest.head?.any Text.isNameStart = true →
      (place.rest.takeWhile Text.isNamePart).head?.any Text.isNameStart = true := by
    cases place.rest with
    | nil => simp
    | cons c rest =>
      intro start
      have start : Text.isNameStart c = true := by simpa using start
      simp [Text.isNamePart_of_isNameStart start, start]
  simp only [name?, Option.ite_none_right_eq_some, Option.some.injEq, Prod.mk.injEq,
    takeWhile_skipWhile_iff, Text.isName_iff]
  constructor
  · rintro ⟨start, parts, passes, stops⟩
    obtain ⟨taken, -⟩ := takeWhile_skipWhile_iff.mpr ⟨parts, passes, stops⟩
    exact ⟨⟨taken ▸ first start, parts⟩, passes, stops⟩
  · rintro ⟨⟨start, parts⟩, passes, stops⟩
    refine ⟨?_, parts, passes, stops⟩
    cases name with
    | nil => contradiction
    | cons c name => simpa [passes.1] using start

end Place

end ScriptDelta

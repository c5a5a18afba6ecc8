import Mathlib.Data.List.Basic
import Mathlib.Data.List.TakeWhile
import ScriptDelta.Proofs.Text.NameChar

/-! # Trimmed texts

What is left of a text without the blanks around it begins and ends with characters that are not
blank, or it is empty. There is only one such part of a text with nothing but blanks before and
after it, and trimming finds it (`trim_eq_iff`).
-/

namespace ScriptDelta.Text

/-- The text is the core with blanks around it, none of which stand at the ends of the core. -/
structure IsCore (core text : List Char) : Prop where
  around : ∃ before after, AllBlank before ∧ AllBlank after ∧ text = before ++ core ++ after
  starts : ∀ c ∈ core.head?, isBlank c = false
  ends : ∀ c ∈ core.getLast?, isBlank c = false

section

variable {text gap : List Char}

theorem trimStart_of_head? (starts : ∀ c ∈ text.head?, isBlank c = false) :
    trimStart text = text := by
  cases text with
  | nil => rfl
  | cons c text => simp [trimStart, starts c rfl]

theorem trimStart_append (blank : AllBlank gap) (text : List Char) :
    trimStart (gap ++ text) = trimStart text :=
  List.dropWhile_append_of_pos blank

/-- To trim the end is to trim the start of the reversed text. -/
theorem trimEnd_eq (text : List Char) : trimEnd text = (trimStart text.reverse).reverse := rfl

theorem trimEnd_of_getLast? (ends : ∀ c ∈ text.getLast?, isBlank c = false) :
    trimEnd text = text := by
  rw [trimEnd_eq, trimStart_of_head? (by rwa [List.head?_reverse]), List.reverse_reverse]

theorem trimEnd_append (text : List Char) (blank : AllBlank gap) :
    trimEnd (text ++ gap) = trimEnd text := by
  have reversed : AllBlank gap.reverse := fun c member => blank c (List.mem_reverse.mp member)
  rw [trimEnd_eq, List.reverse_append, trimStart_append reversed, ← trimEnd_eq]

/-- Blanks are split off in front of what is trimmed. -/
theorem exists_eq_append_trimStart (text : List Char) :
    ∃ gap, AllBlank gap ∧ text = gap ++ trimStart text ∧
      ∀ c ∈ (trimStart text).head?, isBlank c = false := by
  refine ⟨text.takeWhile isBlank, fun c => List.mem_takeWhile_imp,
    List.takeWhile_append_dropWhile.symm, fun c isFirst => ?_⟩
  have stop := List.head?_dropWhile_not isBlank text
  rwa [← trimStart, isFirst] at stop

end

variable {core text : List Char}

theorem IsCore.trim_eq (isCore : IsCore core text) : trim text = core := by
  obtain ⟨⟨before, after, blank, otherBlank, rfl⟩, starts, ends⟩ := isCore
  rw [trim, List.append_assoc, trimStart_append blank]
  by_cases empty : core = []
  · have nothing : trimStart after = [] := List.dropWhile_eq_nil_iff.mpr otherBlank
    rw [empty, List.nil_append, nothing]
    rfl
  · have kept : trimStart (core ++ after) = core ++ after := by
      apply trimStart_of_head?
      rwa [List.head?_append_of_ne_nil _ empty]
    rw [kept, trimEnd_append core otherBlank, trimEnd_of_getLast? ends]

theorem isCore_trim (text : List Char) : IsCore (trim text) text := by
  obtain ⟨before, blank, whole, starts⟩ := exists_eq_append_trimStart text
  obtain ⟨reversed, otherBlank, rest, ends⟩ :=
    exists_eq_append_trimStart (trimStart text).reverse
  have split : trimStart text = trim text ++ reversed.reverse := by
    rw [trim, trimEnd_eq, ← List.reverse_append, ← rest, List.reverse_reverse]
  refine ⟨⟨before, reversed.reverse, blank, ?_, ?_⟩, ?_, ?_⟩
  · exact fun c member => otherBlank c (List.mem_reverse.mp member)
  · rw [List.append_assoc, ← split]
    exact whole
  · intro c isFirst
    apply starts c
    rw [split, List.head?_append, isFirst]
    rfl
  · rwa [trim, trimEnd_eq, List.getLast?_reverse]

/-- Trimming finds the one core of a text. -/
theorem trim_eq_iff : trim text = core ↔ IsCore core text := by
  constructor
  · rintro rfl
    exact isCore_trim text
  · exact IsCore.trim_eq

end ScriptDelta.Text

import Mathlib.Data.List.Basic

/-! # Fields of a text

A separator cuts a text into fields that do not hold it. Put together with separators between them,
the fields are the text, and the fields of texts that are put together in this way are the fields of
all of them.
-/

namespace ScriptDelta.Text

/-- The parts of a text between the separators. -/
def fields (separator : Char) (text : String) : List String :=
  (text.toList.splitOnP (· == separator)).map String.ofList

/-- No part of a list that is split at some items holds one of them. -/
theorem of_mem_splitOnP {α : Type} {split : α → Bool} {items run : List α}
    (member : run ∈ items.splitOnP split) : ∀ item ∈ run, split item = false := by
  induction items generalizing run with
  | nil =>
    obtain rfl : run = [] := by simpa [List.splitOnP_nil] using member
    simp
  | cons item items ih =>
    rw [List.splitOnP_cons_eq_if_modifyHead] at member
    split at member
    · obtain rfl | member := List.mem_cons.mp member
      · simp
      · exact ih member
    next solid =>
      obtain ⟨first, rest, parts⟩ := List.exists_cons_of_ne_nil (List.splitOnP_ne_nil split items)
      rw [parts, List.modifyHead_cons] at member
      obtain rfl | member := List.mem_cons.mp member
      · exact List.forall_mem_cons.mpr ⟨by simpa using solid, ih (parts ▸ List.mem_cons_self ..)⟩
      · exact ih (parts ▸ List.mem_cons_of_mem _ member)

/-- Of two lists that are put together the last part of the one and the first part of the other
become one part. -/
theorem splitOnP_append {α : Type} (split : α → Bool) (front back : List α) :
    ∃ lead last first rest, front.splitOnP split = lead ++ [last] ∧
      back.splitOnP split = first :: rest ∧
      (front ++ back).splitOnP split = lead ++ (last ++ first) :: rest := by
  induction front with
  | nil =>
    obtain ⟨first, rest, parts⟩ := List.exists_cons_of_ne_nil (List.splitOnP_ne_nil split back)
    exact ⟨[], [], first, rest, List.splitOnP_nil, parts, parts⟩
  | cons item front ih =>
    obtain ⟨lead, last, first, rest, ofFront, ofBack, ofBoth⟩ := ih
    rw [List.cons_append, List.splitOnP_cons_eq_if_modifyHead, List.splitOnP_cons_eq_if_modifyHead,
      ofFront, ofBoth]
    by_cases isSplit : split item
    · exact ⟨[] :: lead, last, first, rest, by simp [isSplit], ofBack, by simp [isSplit]⟩
    · cases lead with
      | nil => exact ⟨[], item :: last, first, rest, by simp [isSplit], ofBack, by simp [isSplit]⟩
      | cons next lead =>
        exact ⟨(item :: next) :: lead, last, first, rest, by simp [isSplit], ofBack,
          by simp [isSplit]⟩

section fields

variable {separator : Char} {text : String}

/-- Of two texts that are put together the last field of the one and the first field of the other
become one field. -/
theorem fields_append_text (separator : Char) (front back : String) :
    ∃ lead last first rest, fields separator front = lead ++ [last] ∧
      fields separator back = first :: rest ∧
      fields separator (front ++ back) = lead ++ (last ++ first) :: rest := by
  obtain ⟨lead, last, first, rest, ofFront, ofBack, ofBoth⟩ :=
    splitOnP_append (· == separator) front.toList back.toList
  refine ⟨lead.map String.ofList, String.ofList last, String.ofList first, rest.map String.ofList,
    ?_, ?_, ?_⟩
  · simp [fields, ofFront]
  · simp [fields, ofBack]
  · simp [fields, String.toList_append, ofBoth]

theorem not_mem_of_mem_fields {part : String} (member : part ∈ fields separator text) :
    separator ∉ part.toList := by
  obtain ⟨run, isRun, rfl⟩ := List.mem_map.mp member
  intro inside
  rw [String.toList_ofList] at inside
  simpa using of_mem_splitOnP isRun separator inside

/-- A text without the separator is one field. -/
theorem fields_of_not_mem (absent : separator ∉ text.toList) : fields separator text = [text] := by
  have whole : text.toList.splitOnP (· == separator) = [text.toList] := by
    apply List.splitOnP_eq_singleton
    intro c member
    exact beq_eq_false_iff_ne.mpr fun same => absent (same ▸ member)
  simp [fields, whole]

variable {mark : String} (isMark : mark.toList = [separator])

include isMark

theorem fields_append (front back : String) :
    fields separator (front ++ mark ++ back) = fields separator front ++ fields separator back := by
  have split := List.splitOnP_append_cons (p := (· == separator)) front.toList back.toList
    (beq_self_eq_true separator)
  simp [fields, String.toList_append, isMark, split]

/-- A text is its fields with separators between them. -/
theorem intercalate_fields (text : String) : mark.intercalate (fields separator text) = text := by
  apply String.toList_inj.mp
  have whole : text.toList.splitOnP (· == separator) = text.toList.splitOn separator := rfl
  rw [String.toList_intercalate, isMark, fields, whole, List.map_map]
  simp [Function.comp_def]

theorem fields_intercalate {texts : List String} (nonempty : texts ≠ []) :
    fields separator (mark.intercalate texts) = texts.flatMap (fields separator) := by
  induction texts with
  | nil => contradiction
  | cons first rest ih =>
    cases rest with
    | nil => simp
    | cons second rest =>
      rw [String.intercalate_cons_cons, fields_append isMark, ih (List.cons_ne_nil _ _)]
      rfl

end fields

end ScriptDelta.Text

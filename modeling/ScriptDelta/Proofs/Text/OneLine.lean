import ScriptDelta.Proofs.Text.Words

/-! # Texts on one line

With its newlines turned into spaces a text stays as long as it is and keeps its words. No gap
breaks the line any more, so texts with the same words have the same layout once they are on one
line (`sameLayout_oneLine`).
-/

namespace ScriptDelta.Text

/-- A space in place of a newline. -/
def flatChar (c : Char) : Char :=
  if c = '\n' then ' ' else c

/-- The text with its newlines turned into spaces. -/
def oneLine (text : List Char) : List Char :=
  text.map flatChar

@[simp] theorem oneLine_nil : oneLine [] = [] := rfl

@[simp] theorem oneLine_cons (c : Char) (text : List Char) :
    oneLine (c :: text) = flatChar c :: oneLine text := rfl

theorem flatChar_of_ne {c : Char} (other : c ≠ '\n') : flatChar c = c :=
  if_neg other

theorem flatChar_of_solid {c : Char} (solid : isBlank c = false) : flatChar c = c := by
  refine flatChar_of_ne ?_
  rintro rfl
  contradiction

theorem isBlank_flatChar (c : Char) : isBlank (flatChar c) = isBlank c := by
  by_cases newline : c = '\n'
  · subst newline
    rfl
  · rw [flatChar_of_ne newline]

/-- Only a character itself becomes one that is not blank. -/
theorem flatChar_eq_iff {c d : Char} (solid : isBlank d = false) : flatChar c = d ↔ c = d := by
  constructor
  · rintro rfl
    rw [isBlank_flatChar] at solid
    exact (flatChar_of_solid solid).symm
  · rintro rfl
    exact flatChar_of_solid solid

theorem newline_not_mem_oneLine (text : List Char) : '\n' ∉ oneLine text := by
  simp only [oneLine, List.mem_map, not_exists, not_and]
  intro c _ same
  by_cases newline : c = '\n'
  · subst newline
    contradiction
  · exact newline (flatChar_of_ne newline ▸ same)

/-- The words stay as they are. -/
theorem words_oneLine (text : List Char) : words (oneLine text) = words text := by
  have runs : (oneLine text).splitOnP isBlank = text.splitOnP isBlank := by
    induction text with
    | nil => rfl
    | cons c text ih =>
      rw [oneLine_cons, List.splitOnP_cons_eq_if_modifyHead, List.splitOnP_cons_eq_if_modifyHead,
        isBlank_flatChar, ih]
      by_cases blank : isBlank c
      · simp only [blank, ↓reduceIte]
      · rw [flatChar_of_solid (by simpa using blank)]
  rw [words, runs, words]

/-- The pieces of a text have no characters that the text has not. -/
theorem mem_of_mem_splitOnP {p : Char → Bool} {text run : List Char} (member : run ∈ text.splitOnP p)
    {c : Char} (inRun : c ∈ run) : c ∈ text := by
  induction text generalizing run with
  | nil =>
    rw [List.splitOnP_nil, List.mem_singleton] at member
    simp [member] at inRun
  | cons d text ih =>
    obtain ⟨first, more, pieces⟩ := List.exists_cons_of_ne_nil (List.splitOnP_ne_nil p text)
    rw [List.splitOnP_cons_eq_if_modifyHead, pieces, List.modifyHead_cons] at member
    simp only [pieces, List.mem_cons] at ih
    split at member
    · rcases List.mem_cons.mp member with rfl | later
      · simp at inRun
      · exact .tail _ (ih (List.mem_cons.mp later) inRun)
    · rcases List.mem_cons.mp member with rfl | later
      · rcases List.mem_cons.mp inRun with rfl | inFirst
        · exact List.mem_cons_self ..
        · exact .tail _ (ih (.inl rfl) inFirst)
      · exact .tail _ (ih (.inr later) inRun)

theorem splitOnP_of_allBlank {text : List Char} (blank : AllBlank text) :
    (text.splitOnP fun c => !isBlank c) = [text] :=
  List.splitOnP_eq_singleton fun c member => by simp [blank c member]

/-- A gap comes before every word after the one that the text begins in. -/
theorem length_gapsBefore (text : List Char) :
    (gapsBefore text).length = (words (afterWord text)).length := by
  induction length : text.length using Nat.strong_induction_on generalizing text with
  | _ size ih =>
    rcases allBlank_or_exists text with blank | ⟨gap, c, rest, rfl, blank, solid⟩
    · have after : AllBlank (afterWord text) := fun c member =>
        blank c ((List.dropWhile_suffix _).subset member)
      rw [gapsBefore, splitOnP_of_allBlank blank, words_of_allBlank after]
      rfl
    · have shorter : rest.length < size := by
        rw [← length, List.length_append, List.length_cons]
        omega
      rw [gapsBefore_append_solid blank solid]
      by_cases empty : gap = []
      · subst empty
        simpa [solid] using ih _ shorter rest rfl
      · rw [if_neg empty, (firstWord_append blank empty _).2, words_append_solid blank solid,
          List.length_cons, List.length_cons, ih _ shorter rest rfl]

theorem length_gaps_of_words_eq {first second : List Char} (same : words first = words second) :
    (gaps first).length = (gaps second).length := by
  rcases allBlank_or_exists_of_words_eq same with ⟨blank, otherBlank⟩ |
    ⟨gap, other, c, rest, more, rfl, rfl, blank, otherBlank, solid, -, further⟩
  · have none {text : List Char} (blank : AllBlank text) : gaps text = [] := by
      rw [gaps, splitOnP_of_allBlank blank]
      rfl
    rw [none blank, none otherBlank]
  · rw [gaps_append_solid blank solid, gaps_append_solid otherBlank solid, length_gapsBefore,
      length_gapsBefore, further]

/-- On one line texts with the same words have the same layout. -/
theorem sameLayout_oneLine {first second : List Char} (same : words first = words second) :
    SameLayout (oneLine first) (oneLine second) := by
  have onOneLine : words (oneLine first) = words (oneLine second) := by
    rw [words_oneLine, words_oneLine, same]
  have unbroken (text : List Char) : ∀ gap ∈ gaps (oneLine text), '\n' ∉ gap := by
    intro gap member inGap
    have piece := List.mem_of_mem_tail (List.dropLast_subset _ (List.mem_of_mem_filter member))
    exact newline_not_mem_oneLine text (mem_of_mem_splitOnP piece inGap)
  refine ⟨onOneLine, List.forall₂_iff_zip.mpr ⟨length_gaps_of_words_eq onOneLine, ?_⟩⟩
  intro gap other paired
  obtain ⟨left, right⟩ := List.of_mem_zip paired
  exact iff_of_false (unbroken first gap left) (unbroken second other right)

end ScriptDelta.Text

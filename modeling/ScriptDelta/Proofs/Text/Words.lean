import ScriptDelta.Proofs.Text.Layout

/-! # Words and gaps

The gaps of a text are the runs of blanks between its words. Texts with the same words whose gaps
break the line at the same places are alike from their first words on, and texts that are alike have
the same words.
-/

namespace ScriptDelta.Text

/-- The runs of blanks between two words, in order. -/
def gaps (text : List Char) : List (List Char) :=
  (text.splitOnP fun c => !isBlank c).tail.dropLast.filter fun gap => !gap.isEmpty

example : gaps " a \n b  c ".toList = [" \n ".toList, "  ".toList] := by decide

/-- Two texts have the same words, and between the same words they break the line or not. -/
structure SameLayout (first second : List Char) : Prop where
  words : words first = words second
  newlines : List.Forall₂ (fun gap other => '\n' ∈ gap ↔ '\n' ∈ other) (gaps first) (gaps second)

/-- The characters up to the first blank. -/
abbrev firstWord (text : List Char) : List Char :=
  text.takeWhile fun c => !isBlank c

/-- The text from the first blank on. -/
abbrev afterWord (text : List Char) : List Char :=
  text.dropWhile fun c => !isBlank c

theorem splitOnP_isBlank (text : List Char) :
    ∃ runs, text.splitOnP isBlank = firstWord text :: runs ∧
      words (afterWord text) = runs.filter fun run => !run.isEmpty := by
  induction text with
  | nil => exact ⟨[], by simp [List.splitOnP_nil], by simp [words, List.splitOnP_nil]⟩
  | cons c text ih =>
    obtain ⟨runs, split, rest⟩ := ih
    rw [List.splitOnP_cons_eq_if_modifyHead]
    by_cases blank : isBlank c
    · refine ⟨text.splitOnP isBlank, by simp [blank], ?_⟩
      simp [blank, words, List.splitOnP_cons_eq_if_modifyHead]
    · exact ⟨runs, by simp [blank, split], by simpa [blank] using rest⟩

/-- A text has its first word, if it begins with one, and the words after it. -/
theorem words_eq (text : List Char) :
    words text = if firstWord text = [] then words (afterWord text)
      else firstWord text :: words (afterWord text) := by
  obtain ⟨runs, split, rest⟩ := splitOnP_isBlank text
  rw [rest, words, split, List.filter_cons]
  by_cases empty : firstWord text = [] <;> simp [empty]

theorem words_append_of_allBlank {gap : List Char} (blank : AllBlank gap) (text : List Char) :
    words (gap ++ text) = words text := by
  induction gap with
  | nil => rfl
  | cons c gap ih =>
    have here : isBlank c = true := blank c (List.mem_cons_self ..)
    rw [← ih fun d member => blank d (.tail _ member)]
    simp [words, List.splitOnP_cons_eq_if_modifyHead, here]

theorem words_of_allBlank {gap : List Char} (blank : AllBlank gap) : words gap = [] := by
  simpa [words, List.splitOnP_nil] using words_append_of_allBlank blank []

theorem firstWord_append {gap : List Char} (blank : AllBlank gap) (occupied : gap ≠ [])
    (text : List Char) :
    firstWord (gap ++ text) = [] ∧ afterWord (gap ++ text) = gap ++ text := by
  cases gap with
  | nil => contradiction
  | cons c gap => simp [blank c (List.mem_cons_self ..)]

/-- Texts that are alike have the same words. -/
theorem Alike.words_eq {exact : Bool} {first second : List Char}
    (alike : Alike exact first second) : words first = words second := by
  have parts : firstWord first = firstWord second ∧
      words (afterWord first) = words (afterWord second) := by
    induction alike with
    | @ends gap other left right =>
      have nothing {gap : List Char} (blank : AllBlank gap) :
          firstWord gap = [] ∧ words (afterWord gap) = [] := by
        by_cases empty : gap = []
        · subst empty
          exact ⟨rfl, words_of_allBlank allBlank_nil⟩
        · obtain ⟨none, rest⟩ := firstWord_append blank empty []
          rw [List.append_nil] at none rest
          exact ⟨none, by rw [rest, words_of_allBlank blank]⟩
      rw [(nothing left).1, (nothing left).2, (nothing right).1, (nothing right).2]
      exact ⟨rfl, rfl⟩
    | @next gap other first second c same solid alike ih =>
      have onWord : firstWord (c :: first) = firstWord (c :: second) ∧
          words (afterWord (c :: first)) = words (afterWord (c :: second)) := by
        simpa [solid] using ih
      by_cases empty : gap = []
      · obtain rfl := same.nil_iff.mp empty
        obtain rfl := empty
        exact onWord
      · have occupied : other ≠ [] := fun nothing => empty (same.nil_iff.mpr nothing)
        obtain ⟨none, rest⟩ := firstWord_append same.left empty (c :: first)
        obtain ⟨otherNone, otherRest⟩ := firstWord_append same.right occupied (c :: second)
        rw [none, rest, otherNone, otherRest, words_append_of_allBlank same.left,
          words_append_of_allBlank same.right, Text.words_eq, Text.words_eq (c :: second),
          onWord.1, onWord.2]
        exact ⟨rfl, rfl⟩
  rw [Text.words_eq, Text.words_eq second, parts.1, parts.2]

/-- The gaps that a word follows, with the one before the first word. -/
def gapsBefore (text : List Char) : List (List Char) :=
  (text.splitOnP fun c => !isBlank c).dropLast.filter fun gap => !gap.isEmpty

theorem splitOnP_append_solid {gap : List Char} (blank : AllBlank gap) {c : Char}
    (solid : isBlank c = false) (text : List Char) :
    (gap ++ c :: text).splitOnP (fun c => !isBlank c) =
      gap :: text.splitOnP fun c => !isBlank c := by
  induction gap with
  | nil => simp [List.splitOnP_cons_eq_if_modifyHead, solid]
  | cons d gap ih =>
    have here : isBlank d = true := blank d (List.mem_cons_self ..)
    rw [List.cons_append, List.splitOnP_cons_eq_if_modifyHead,
      ih fun e member => blank e (.tail _ member)]
    simp [here]

theorem gaps_append_solid {gap : List Char} (blank : AllBlank gap) {c : Char}
    (solid : isBlank c = false) (text : List Char) :
    gaps (gap ++ c :: text) = gapsBefore text := by
  rw [gaps, splitOnP_append_solid blank solid, List.tail_cons, gapsBefore]

theorem gapsBefore_append_solid {gap : List Char} (blank : AllBlank gap) {c : Char}
    (solid : isBlank c = false) (text : List Char) :
    gapsBefore (gap ++ c :: text) =
      if gap = [] then gapsBefore text else gap :: gapsBefore text := by
  rw [gapsBefore, splitOnP_append_solid blank solid,
    List.dropLast_cons_of_ne_nil (List.splitOnP_ne_nil _ _), List.filter_cons, ← gapsBefore]
  by_cases empty : gap = [] <;> simp [empty]

theorem words_append_solid {gap : List Char} (blank : AllBlank gap) {c : Char}
    (solid : isBlank c = false) (text : List Char) :
    words (gap ++ c :: text) = (c :: firstWord text) :: words (afterWord text) := by
  rw [words_append_of_allBlank blank, words_eq]
  simp [solid]

/-- Texts with the same words are both blank or have the same first word. -/
theorem allBlank_or_exists_of_words_eq {first second : List Char}
    (same : words first = words second) :
    (AllBlank first ∧ AllBlank second) ∨ ∃ gap other c rest more, first = gap ++ c :: rest ∧
      second = other ++ c :: more ∧ AllBlank gap ∧ AllBlank other ∧ isBlank c = false ∧
        firstWord rest = firstWord more ∧ words (afterWord rest) = words (afterWord more) := by
  rcases allBlank_or_exists first with blank | ⟨gap, c, rest, rfl, blank, solid⟩
  · rcases allBlank_or_exists second with otherBlank | ⟨other, d, more, rfl, otherBlank, solid⟩
    · exact .inl ⟨blank, otherBlank⟩
    · rw [words_of_allBlank blank, words_append_solid otherBlank solid] at same
      contradiction
  · rcases allBlank_or_exists second with
      otherBlank | ⟨other, d, more, rfl, otherBlank, otherSolid⟩
    · rw [words_of_allBlank otherBlank, words_append_solid blank solid] at same
      contradiction
    · rw [words_append_solid blank solid, words_append_solid otherBlank otherSolid] at same
      obtain ⟨heads, further⟩ := List.cons.inj same
      obtain ⟨rfl, word⟩ := List.cons.inj heads
      exact .inr ⟨gap, other, c, rest, more, rfl, rfl, blank, otherBlank, solid, word, further⟩

/-- Texts with the same words and the same line breaks between them are alike. The induction
carries what is left of the word that the texts are in. -/
theorem alike_of_firstWord_eq {first second : List Char}
    (word : firstWord first = firstWord second)
    (rest : words (afterWord first) = words (afterWord second))
    (newlines : List.Forall₂ (fun gap other => '\n' ∈ gap ↔ '\n' ∈ other) (gapsBefore first)
      (gapsBefore second)) : Alike false first second := by
  induction length : first.length using Nat.strong_induction_on generalizing first second with
  | _ size ih =>
    have same : words first = words second := by rw [words_eq, words_eq second, word, rest]
    rcases allBlank_or_exists_of_words_eq same with ⟨blank, otherBlank⟩ |
      ⟨gap, other, c, first, second, rfl, rfl, blank, otherBlank, solid, further, furtherRest⟩
    · exact .ends blank otherBlank (by simp)
    · have shorter : first.length < size := by
        rw [← length, List.length_append, List.length_cons]
        omega
      have pauses {gap : List Char} (gapBlank : AllBlank gap) (text : List Char) :
          firstWord (gap ++ c :: text) = [] ↔ gap ≠ [] := by
        constructor
        · rintro none rfl
          simp [solid] at none
        · intro occupied
          exact (firstWord_append gapBlank occupied _).1
      have nil_iff : gap = [] ↔ other = [] := by
        rw [← not_iff_not, ← Ne, ← Ne, ← pauses blank first, word, pauses otherBlank]
      rw [gapsBefore_append_solid blank solid, gapsBefore_append_solid otherBlank solid] at newlines
      by_cases empty : gap = []
      · obtain rfl := nil_iff.mp empty
        obtain rfl := empty
        simp only [↓reduceIte] at newlines
        exact (ih _ shorter further furtherRest newlines rfl).cons solid
      · have occupied : other ≠ [] := fun nothing => empty (nil_iff.mpr nothing)
        simp only [empty, occupied, ↓reduceIte, List.forall₂_cons] at newlines
        exact .next ⟨blank, otherBlank, nil_iff, newlines.1⟩ solid
          (ih _ shorter further furtherRest newlines.2 rfl)

/-- Texts of the same layout are alike from their first words on. -/
theorem SameLayout.alike {first second : List Char} (layout : SameLayout first second) :
    Alike false (first.dropWhile isBlank) (second.dropWhile isBlank) := by
  obtain ⟨same, newlines⟩ := layout
  rcases allBlank_or_exists_of_words_eq same with ⟨blank, otherBlank⟩ |
    ⟨gap, other, c, first, second, rfl, rfl, blank, otherBlank, solid, word, rest⟩
  · rw [List.dropWhile_eq_nil_iff.mpr blank, List.dropWhile_eq_nil_iff.mpr otherBlank]
    exact .nil
  · rw [gaps_append_solid blank solid, gaps_append_solid otherBlank solid] at newlines
    have alike := (alike_of_firstWord_eq word rest newlines).cons solid
    rw [List.dropWhile_append_of_pos blank, List.dropWhile_append_of_pos otherBlank]
    simpa [solid] using alike

end ScriptDelta.Text

import Mathlib.Data.List.Chain
import ScriptDelta.Proofs.Text.Words
import ScriptDelta.Text.Digest

/-! # Collapsed texts

There is one way to read a text as runs of characters that are not blank, with blanks around them,
so that no run could be longer: these runs are its words (`madeOf_iff`). Joined by single spaces the
words are read as the same words again, so a collapsed text has lost its layout and nothing else,
and to collapse it again changes nothing. It has no blanks at its ends and no two side by side
(`SingleSpaced`).
-/

namespace ScriptDelta.Text

/-- The text is made of the runs, in order, and of blanks around them. A run ends where a blank
stands or the text ends, so none of them could be longer. -/
inductive MadeOf : List (List Char) → List Char → Prop
  /-- No run is left. -/
  | blanks {gap : List Char} : AllBlank gap → MadeOf [] gap
  /-- The next run, after a gap or without one, and what follows it. -/
  | run {gap run rest : List Char} {runs : List (List Char)} : AllBlank gap → run ≠ [] →
      NoBlank run → rest.head?.all isBlank = true → MadeOf runs rest →
      MadeOf (run :: runs) (gap ++ run ++ rest)

section runs

variable {text : List Char} {runs : List (List Char)}

/-- Blanks in front belong to no run. -/
theorem MadeOf.gap {gap : List Char} (blank : AllBlank gap) (made : MadeOf runs text) :
    MadeOf runs (gap ++ text) := by
  cases made with
  | blanks further => exact .blanks (allBlank_append blank further)
  | run further occupied solid ends made =>
    rw [← List.append_assoc, ← List.append_assoc]
    exact .run (allBlank_append blank further) occupied solid ends made

theorem MadeOf.solid (made : MadeOf runs text) : ∀ run ∈ runs, run ≠ [] ∧ NoBlank run := by
  induction made with
  | blanks => simp
  | run _ occupied solid _ _ ih => exact List.forall_mem_cons.mpr ⟨⟨occupied, solid⟩, ih⟩

/-- The first word of a text that begins with a run is the run, if a blank or the end follows. -/
theorem firstWord_append_of_noBlank {run rest : List Char} (solid : NoBlank run)
    (ends : rest.head?.all isBlank = true) :
    firstWord (run ++ rest) = run ∧ afterWord (run ++ rest) = rest := by
  have stops : rest.head?.any (fun c => !isBlank c) = false := by
    cases rest <;> simp_all
  have first : firstWord (run ++ rest) = run :=
    takeWhile_append_of_stops (fun c member => by simp [solid c member]) stops
  refine ⟨first, ?_⟩
  have whole : firstWord (run ++ rest) ++ afterWord (run ++ rest) = run ++ rest :=
    List.takeWhile_append_dropWhile
  rw [first] at whole
  exact List.append_cancel_left whole

theorem words_of_madeOf (made : MadeOf runs text) : words text = runs := by
  induction made with
  | blanks blank => exact words_of_allBlank blank
  | run blank occupied solid ends _ ih =>
    obtain ⟨first, after⟩ := firstWord_append_of_noBlank solid ends
    rw [List.append_assoc, words_append_of_allBlank blank, words_eq, first, after,
      if_neg occupied, ih]

/-- A word goes on until a blank stands or the text ends. -/
theorem head?_afterWord_all (text : List Char) : (afterWord text).head?.all isBlank = true := by
  cases after : afterWord text with
  | nil => rfl
  | cons c rest =>
    have stop := List.head_dropWhile_not (fun c => !isBlank c) (l := text) (by simp [after])
    simpa [after] using stop

theorem madeOf_words (text : List Char) : MadeOf (words text) text := by
  induction length : text.length using Nat.strong_induction_on generalizing text with
  | _ size ih =>
    rcases allBlank_or_exists text with blank | ⟨gap, c, rest, rfl, blank, solid⟩
    · rw [words_of_allBlank blank]
      exact .blanks blank
    · have whole : gap ++ c :: rest = gap ++ (c :: firstWord rest) ++ afterWord rest := by
        rw [List.append_assoc, List.cons_append, List.takeWhile_append_dropWhile]
      have shorter : (afterWord rest).length < size := by
        have fewer : (afterWord rest).length ≤ rest.length := List.length_dropWhile_le ..
        rw [← length, List.length_append, List.length_cons]
        omega
      rw [words_append_solid blank solid, whole]
      refine .run blank (List.cons_ne_nil _ _) (List.forall_mem_cons.mpr ⟨solid, ?_⟩)
        (head?_afterWord_all rest) (ih _ shorter _ rfl)
      intro d member
      simpa using List.mem_takeWhile_imp member

/-- A text is made of its words and of no other runs. -/
theorem madeOf_iff : MadeOf runs text ↔ words text = runs := by
  constructor
  · exact words_of_madeOf
  · rintro rfl
    exact madeOf_words text

end runs

/-- Runs that are joined by single spaces are read as the same runs again. -/
theorem madeOf_intercalate {runs : List (List Char)}
    (solid : ∀ run ∈ runs, run ≠ [] ∧ NoBlank run) : MadeOf runs ([' '].intercalate runs) := by
  have space : AllBlank [' '] := List.forall_mem_singleton.mpr rfl
  induction runs with
  | nil => exact .blanks allBlank_nil
  | cons run runs ih =>
    obtain ⟨⟨occupied, noBlank⟩, others⟩ := List.forall_mem_cons.mp solid
    cases runs with
    | nil =>
      rw [List.intercalate_singleton]
      simpa using MadeOf.run allBlank_nil occupied noBlank rfl (.blanks allBlank_nil)
    | cons next runs =>
      rw [List.intercalate_cons_cons, List.append_assoc]
      exact .run allBlank_nil occupied noBlank rfl ((ih others).gap space)

theorem madeOf_collapse (text : List Char) : MadeOf (words text) (collapse text) :=
  madeOf_intercalate (madeOf_words text).solid

/-- To collapse a text keeps its words. -/
theorem words_collapse (text : List Char) : words (collapse text) = words text :=
  words_of_madeOf (madeOf_collapse text)

theorem collapse_eq_iff {first second : List Char} :
    collapse first = collapse second ↔ words first = words second := by
  constructor
  · intro same
    rw [← words_collapse first, same, words_collapse]
  · intro same
    rw [collapse, same, collapse]

/-- A text without blanks at its ends, in which every blank is a space and no two of them stand side
by side. -/
structure SingleSpaced (text : List Char) : Prop where
  starts : ∀ c ∈ text.head?, isBlank c = false
  ends : ∀ c ∈ text.getLast?, isBlank c = false
  spaces : ∀ c ∈ text, isBlank c = true → c = ' '
  apart : text.IsChain fun c next => isBlank c = false ∨ isBlank next = false

namespace SingleSpaced

theorem nil : SingleSpaced [] where
  starts := by simp
  ends := by simp
  spaces := by simp
  apart := .nil

theorem of_noBlank {run : List Char} (solid : NoBlank run) : SingleSpaced run where
  starts c first := solid c (List.mem_of_head? first)
  ends c last := solid c (List.mem_of_getLast? last)
  spaces c member blank := by simp [solid c member] at blank
  apart := (List.pairwise_of_forall_mem_list fun c member _ _ => .inl (solid c member)).isChain

/-- Two such texts with a space between them. -/
theorem append_space {front back : List Char} (left : SingleSpaced front)
    (right : SingleSpaced back) (frontOccupied : front ≠ []) (backOccupied : back ≠ []) :
    SingleSpaced (front ++ [' '] ++ back) where
  starts := by
    rw [List.append_assoc, List.head?_append_of_ne_nil _ frontOccupied]
    exact left.starts
  ends := by
    rw [List.getLast?_append_of_ne_nil _ backOccupied]
    exact right.ends
  spaces := by
    simp only [List.forall_mem_append, List.forall_mem_singleton, implies_true, and_true]
    exact ⟨left.spaces, right.spaces⟩
  apart := by
    rw [List.append_assoc, List.isChain_append, List.isChain_append]
    refine ⟨left.apart, ⟨.singleton _, right.apart, ?_⟩, ?_⟩
    · exact fun _ _ next isFirst => .inr (right.starts next isFirst)
    · exact fun c isLast _ _ => .inl (left.ends c isLast)

end SingleSpaced

theorem singleSpaced_intercalate {runs : List (List Char)}
    (solid : ∀ run ∈ runs, run ≠ [] ∧ NoBlank run) : SingleSpaced ([' '].intercalate runs) := by
  induction runs with
  | nil => exact .nil
  | cons run runs ih =>
    obtain ⟨⟨occupied, noBlank⟩, others⟩ := List.forall_mem_cons.mp solid
    cases runs with
    | nil =>
      rw [List.intercalate_singleton]
      exact .of_noBlank noBlank
    | cons next runs =>
      have backOccupied : [' '].intercalate (next :: runs) ≠ [] := by
        intro nothing
        have read := words_of_madeOf (madeOf_intercalate others)
        rw [nothing] at read
        contradiction
      rw [List.intercalate_cons_cons]
      exact (SingleSpaced.of_noBlank noBlank).append_space (ih others) occupied backOccupied

/-- A text can be read as maximal runs of characters that are not blank in just one way. Two texts
are normalized to the same text exactly if these runs are the same, a normalized text stays as it
is, and it has no blanks but single spaces between its runs. -/
theorem normalize_forgets_layout (first second : String) :
    (∃! runs, MadeOf runs first.toList) ∧
      (normalize first = normalize second ↔
        ∃ runs, MadeOf runs first.toList ∧ MadeOf runs second.toList) ∧
      normalize (normalize first) = normalize first ∧
      SingleSpaced (normalize first).toList := by
  refine ⟨⟨_, madeOf_words first.toList, fun runs made => (words_of_madeOf made).symm⟩, ?_, ?_, ?_⟩
  · rw [normalize, normalize, String.ofList_inj, collapse_eq_iff]
    simp only [madeOf_iff, exists_eq_left']
    exact eq_comm
  · rw [normalize, normalize, String.toList_ofList, collapse_eq_iff.mpr (words_collapse _)]
  · rw [normalize, String.toList_ofList]
    exact singleSpaced_intercalate (madeOf_words _).solid

end ScriptDelta.Text

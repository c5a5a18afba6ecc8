import Mathlib.Data.List.Forall2
import Mathlib.Data.List.TakeWhile
import ScriptDelta.Proofs.Text.NameChar

/-! # Layout

Two texts have the same layout if they have the same words and break the line between the same
words. `Alike` relates what is left of two such texts after corresponding characters: the characters
that are not blank are the same, and the gaps between them are both empty or both not, and have
newlines or not. The blanks at the end may differ, unless the relation is exact.
-/

namespace ScriptDelta.Text

/-- Two runs of blanks, both empty or both not, and both with or both without a newline. -/
structure SameGap (gap other : List Char) : Prop where
  left : AllBlank gap
  right : AllBlank other
  nil_iff : gap = [] ↔ other = []
  newline_iff : '\n' ∈ gap ↔ '\n' ∈ other

theorem SameGap.refl {gap : List Char} (blank : AllBlank gap) : SameGap gap gap :=
  ⟨blank, blank, Iff.rfl, Iff.rfl⟩

theorem SameGap.append {first second other more : List Char} (left : SameGap first second)
    (right : SameGap other more) : SameGap (first ++ other) (second ++ more) where
  left := allBlank_append left.left right.left
  right := allBlank_append left.right right.right
  nil_iff := by simp [left.nil_iff, right.nil_iff]
  newline_iff := by simp [left.newline_iff, right.newline_iff]

/-- The texts go on with the same characters, with corresponding gaps between them. -/
inductive Alike (exact : Bool) : List Char → List Char → Prop
  /-- No word is left. -/
  | ends {gap other : List Char} : AllBlank gap → AllBlank other →
      (exact = true → SameGap gap other) → Alike exact gap other
  /-- The next character, after a gap or without one. -/
  | next {gap other first second : List Char} {c : Char} : SameGap gap other →
      isBlank c = false → Alike exact first second →
      Alike exact (gap ++ c :: first) (other ++ c :: second)

theorem allBlank_nil : AllBlank [] := fun c member => by cases member

/-- A text is blank or has a first character that is not. -/
theorem allBlank_or_exists (text : List Char) :
    AllBlank text ∨ ∃ gap c rest, text = gap ++ c :: rest ∧ AllBlank gap ∧ isBlank c = false := by
  cases rest : text.dropWhile isBlank with
  | nil => exact .inl (List.dropWhile_eq_nil_iff.mp rest)
  | cons c more =>
    have first := List.head_dropWhile_not isBlank (l := text) (by simp [rest])
    refine .inr ⟨text.takeWhile isBlank, c, more, ?_, fun d => List.mem_takeWhile_imp, ?_⟩
    · rw [← rest, List.takeWhile_append_dropWhile]
    · simpa [rest] using first

namespace Alike

variable {exact : Bool} {first second : List Char}

theorem nil : Alike exact [] [] :=
  .ends allBlank_nil allBlank_nil fun _ => .refl allBlank_nil

/-- The same character in front of both texts. -/
theorem cons {c : Char} (solid : isBlank c = false) (alike : Alike exact first second) :
    Alike exact (c :: first) (c :: second) :=
  .next (.refl allBlank_nil) solid alike

/-- Corresponding gaps in front of both texts. -/
theorem gap {gap other : List Char} (same : SameGap gap other)
    (alike : Alike exact first second) : Alike exact (gap ++ first) (other ++ second) := by
  cases alike with
  | ends left right further =>
    exact .ends (allBlank_append same.left left) (allBlank_append same.right right)
      fun isExact => same.append (further isExact)
  | next more solid alike =>
    rw [← List.append_assoc, ← List.append_assoc]
    exact .next (same.append more) solid alike

/-- Texts that are exactly alike can be put in front of texts that are alike. -/
theorem append {before other : List Char} (alike : Alike true before other)
    (rest : Alike exact first second) : Alike exact (before ++ first) (other ++ second) := by
  induction alike with
  | ends _ _ same => exact rest.gap (same rfl)
  | next same solid _ ih =>
    rw [List.append_assoc, List.append_assoc]
    exact .next same solid ih

/-- Blanks in front do not matter. -/
theorem dropBlanks (alike : Alike exact first second) :
    Alike exact (first.dropWhile isBlank) (second.dropWhile isBlank) := by
  cases alike with
  | ends left right =>
    rw [List.dropWhile_eq_nil_iff.mpr left, List.dropWhile_eq_nil_iff.mpr right]
    exact .nil
  | next same solid alike =>
    rw [List.dropWhile_append_of_pos same.left, List.dropWhile_append_of_pos same.right,
      List.dropWhile_cons_of_neg (by simp [solid]), List.dropWhile_cons_of_neg (by simp [solid])]
    exact alike.cons solid

/-- Two texts that are alike are both blank or neither is. -/
theorem dropBlanks_eq_nil_iff (alike : Alike exact first second) :
    first.dropWhile isBlank = [] ↔ second.dropWhile isBlank = [] := by
  simp only [List.dropWhile_eq_nil_iff]
  cases alike with
  | ends left right => exact iff_of_true left right
  | @next gap other first second c same solid _ =>
    have occupied (gap text : List Char) : ¬ ∀ d ∈ gap ++ c :: text, isBlank d = true := by
      intro blank
      simp [blank c (by simp)] at solid
    exact iff_of_false (occupied _ _) (occupied _ _)

/-- The texts either both pause, with a blank or at their end, or go on with the same character. -/
theorem pauses_or_exists (alike : Alike exact first second) :
    (first.head?.all isBlank = true ∧ second.head?.all isBlank = true) ∨
      ∃ c rest other, first = c :: rest ∧ second = c :: other ∧ isBlank c = false ∧
        Alike exact rest other := by
  have pauses {gap : List Char} (blank : AllBlank gap) (rest : List Char) (occupied : gap ≠ []) :
      (gap ++ rest).head?.all isBlank = true := by
    cases gap with
    | nil => contradiction
    | cons c gap => simpa using blank c (List.mem_cons_self ..)
  cases alike with
  | ends left right =>
    refine .inl ⟨?_, ?_⟩
    · by_cases occupied : first = []
      · simp [occupied]
      · simpa using pauses left [] occupied
    · by_cases occupied : second = []
      · simp [occupied]
      · simpa using pauses right [] occupied
  | @next gap other first second c same solid alike =>
    by_cases occupied : gap = []
    · obtain rfl := same.nil_iff.mp occupied
      obtain rfl := occupied
      exact .inr ⟨c, first, second, rfl, rfl, solid, alike⟩
    · exact .inl ⟨pauses same.left _ occupied,
        pauses same.right _ fun nothing => occupied (same.nil_iff.mpr nothing)⟩

/-- A word that one text goes on with stands in the other, too. -/
theorem isPrefixOf? {word : List Char} (noBlank : NoBlank word)
    (alike : Alike exact first second) :
    Option.Rel (Alike exact) (word.isPrefixOf? first) (word.isPrefixOf? second) := by
  induction word generalizing first second with
  | nil => exact .some alike
  | cons d word ih =>
    have pauses {text : List Char} (pause : text.head?.all isBlank = true) :
        (d :: word).isPrefixOf? text = none := by
      cases text with
      | nil => rfl
      | cons c text =>
        have other : d ≠ c := by
          rintro rfl
          simp [noBlank d (List.mem_cons_self ..)] at pause
        change (if d == c then word.isPrefixOf? text else none) = none
        simp [other]
    rcases alike.pauses_or_exists with ⟨left, right⟩ | ⟨c, rest, other, rfl, rfl, -, alike⟩
    · rw [pauses left, pauses right]
      exact .none
    · change Option.Rel _ (if d == c then word.isPrefixOf? rest else none)
        (if d == c then word.isPrefixOf? other else none)
      split
      · exact ih (fun e member => noBlank e (.tail _ member)) alike
      · exact .none

/-- A run of characters that are not blank is the same in both texts, and they go on alike. -/
theorem takeWhile {keep : Char → Bool} (noBlank : ∀ c, keep c = true → isBlank c = false)
    (alike : Alike exact first second) :
    first.takeWhile keep = second.takeWhile keep ∧
      Alike exact (first.dropWhile keep) (second.dropWhile keep) := by
  have pauses {text : List Char} (pause : text.head?.all isBlank = true) :
      text.takeWhile keep = [] ∧ text.dropWhile keep = text := by
    cases text with
    | nil => exact ⟨rfl, rfl⟩
    | cons c text =>
      have stop : ¬ keep c = true := fun kept => by simp [noBlank c kept] at pause
      simp [stop]
  induction first generalizing second with
  | nil =>
    rcases alike.pauses_or_exists with ⟨left, right⟩ | ⟨c, rest, other, absurd, -⟩
    · rw [(pauses right).1, (pauses right).2]
      exact ⟨rfl, alike⟩
    · cases absurd
  | cons d first ih =>
    rcases alike.pauses_or_exists with ⟨left, right⟩ | ⟨c, rest, other, same, rfl, solid, further⟩
    · rw [(pauses left).1, (pauses left).2, (pauses right).1, (pauses right).2]
      exact ⟨rfl, alike⟩
    · obtain ⟨rfl, rfl⟩ := List.cons.inj same
      obtain ⟨taken, dropped⟩ := ih further
      by_cases kept : keep d = true
      · simpa [kept, taken] using dropped
      · simpa [kept] using alike

/-- The texts begin with the same name or both with none. -/
theorem head?_any {keep : Char → Bool} (noBlank : ∀ c, keep c = true → isBlank c = false)
    (alike : Alike exact first second) : first.head?.any keep = second.head?.any keep := by
  have pauses {text : List Char} (pause : text.head?.all isBlank = true) :
      text.head?.any keep = false := by
    cases text with
    | nil => rfl
    | cons c text =>
      have stop : ¬ keep c = true := fun kept => by simp [noBlank c kept] at pause
      simp [stop]
  rcases alike.pauses_or_exists with ⟨left, right⟩ | ⟨c, rest, other, rfl, rfl, -, -⟩
  · rw [pauses left, pauses right]
  · rfl

/-- What reads characters one by one and makes the same of corresponding gaps reads both texts to
the end, or it stops at corresponding characters, which are not blank. -/
theorem foldlM {σ : Type} (step : σ → Char → Option σ) (sound : σ → Prop)
    (gaps : ∀ {state gap other}, sound state → SameGap gap other →
      ∃ next, sound next ∧ gap.foldlM step state = some next ∧
        other.foldlM step state = some next)
    (chars : ∀ {state c next}, sound state → step state c = some next → sound next)
    (alike : Alike exact first second) (state : σ) (start : sound state) :
    ((∃ next, first.foldlM step state = some next) ∧
        ∃ next, second.foldlM step state = some next) ∨
      ∃ before c after other later next, first = before ++ c :: after ∧
        second = other ++ c :: later ∧ isBlank c = false ∧ before.foldlM step state = some next ∧
          other.foldlM step state = some next ∧ step next c = none ∧ Alike true before other ∧
            Alike exact after later := by
  induction alike generalizing state with
  | ends left right =>
    obtain ⟨next, -, ran, -⟩ := gaps start (.refl left)
    obtain ⟨other, -, otherRan, -⟩ := gaps start (.refl right)
    exact .inl ⟨⟨next, ran⟩, other, otherRan⟩
  | @next gap other first second c same solid alike ih =>
    obtain ⟨middle, middleSound, ran, otherRan⟩ := gaps start same
    cases stepped : step middle c with
    | none =>
      exact .inr ⟨gap, c, first, other, second, middle, rfl, rfl, solid, ran, otherRan, stepped,
        .ends same.left same.right fun _ => same, alike⟩
    | some next =>
      have further (text : List Char) :
          (gap ++ c :: text).foldlM step state = text.foldlM step next ∧
            (other ++ c :: text).foldlM step state = text.foldlM step next := by
        simp [List.foldlM_append, ran, otherRan, stepped]
      rcases ih _ (chars middleSound stepped) with
        ⟨⟨last, lastRan⟩, otherLast, otherLastRan⟩ |
          ⟨before, d, after, otherBefore, later, last, rfl, rfl, stop, lastRan, otherLastRan, stuck,
            inside, alike⟩
      · exact .inl ⟨⟨last, (further _).1.trans lastRan⟩, otherLast,
          (further _).2.trans otherLastRan⟩
      · refine .inr ⟨gap ++ c :: before, d, after, other ++ c :: otherBefore, later, last,
          by simp, by simp, stop, (further _).1.trans lastRan, (further _).2.trans otherLastRan,
          stuck, .next same solid inside, alike⟩

/-- A character that is not blank is absent from both texts, or it stands in corresponding places
first. -/
theorem not_mem_or_exists {c : Char} (solid : isBlank c = false)
    (alike : Alike exact first second) :
    (c ∉ first ∧ c ∉ second) ∨ ∃ before after other later, first = before ++ c :: after ∧
      second = other ++ c :: later ∧ c ∉ before ∧ c ∉ other ∧ Alike true before other ∧
        Alike exact after later := by
  let step (_ : Unit) (d : Char) : Option Unit := if d = c then none else some ()
  have passes {text : List Char} : text.foldlM step () = some () ↔ c ∉ text := by
    induction text with
    | nil => simp
    | cons d text ih =>
      by_cases same : d = c
      · simp [step, same]
      · have other : c ≠ d := fun equal => same equal.symm
        simpa [step, same, other] using ih
  rcases alike.foldlM step (fun _ => True)
      (fun _ same => ⟨(), trivial, passes.mpr (same.left.not_mem solid),
        passes.mpr (same.right.not_mem solid)⟩)
      (fun _ _ => trivial) () trivial with
    ⟨⟨_, ran⟩, _, otherRan⟩ |
      ⟨before, d, after, other, later, _, rfl, rfl, -, ran, otherRan, stuck, inside, alike⟩
  · exact .inl ⟨passes.mp ran, passes.mp otherRan⟩
  · have same : d = c := by simpa [step] using stuck
    obtain rfl := same
    exact .inr ⟨before, after, other, later, rfl, rfl, passes.mp ran, passes.mp otherRan, inside,
      alike⟩

end Alike

end ScriptDelta.Text

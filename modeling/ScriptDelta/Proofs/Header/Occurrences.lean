import ScriptDelta.Header
import ScriptDelta.Proofs.Place.Passing

/-! # The headers of a text in order

Headers are looked for at the starts of lines, and after a header the search goes on at the next
line start behind it. `occurrences_eq` says so as a recursion on places, without the list of line
starts. Everything found is a header at a line start, one header ends before the next begins, and
if no header of a form can begin inside another then none is passed over.
-/

namespace ScriptDelta

namespace Text

/-- A stretch of text is empty or ends with a newline. -/
def EndsLine (text : List Char) : Prop :=
  text = [] ∨ ∃ lines, text = lines ++ ['\n']

/-- What is left of such a stretch is such a stretch. -/
theorem EndsLine.of_append {first second : List Char} (ends : EndsLine (first ++ second)) :
    EndsLine second := by
  rcases List.eq_nil_or_concat second with rfl | ⟨earlier, last, rfl⟩
  · exact .inl rfl
  · rw [List.concat_eq_append] at ends ⊢
    rcases ends with empty | ⟨lines, split⟩
    · simp at empty
    · rw [← List.append_assoc] at split
      exact .inr ⟨earlier, by rw [List.append_inj_right' split rfl]⟩

end Text

namespace Place

/-- The place after the next newline. -/
def nextLine? (place : Place) : Option Place :=
  (afterNewlines place.offset place.rest).head?

theorem afterNewlines_eq (place : Place) :
    afterNewlines place.offset place.rest = place.nextLine?.elim [] lineStarts := by
  obtain ⟨offset, rest⟩ := place
  simp only [nextLine?]
  induction rest generalizing offset with
  | nil => rfl
  | cons c rest ih =>
    simp only [afterNewlines]
    split
    · rfl
    · exact ih _

theorem nextLine?_of_passes {place later : Place} {line : List Char} (absent : '\n' ∉ line)
    (passes : place.Passes (line ++ ['\n']) later) : place.nextLine? = some later := by
  obtain ⟨offset, rest⟩ := place
  obtain ⟨laterOffset, laterRest⟩ := later
  simp only [Passes] at passes
  obtain ⟨rfl, rfl⟩ := passes
  simp only [nextLine?]
  induction line generalizing offset with
  | nil => rfl
  | cons c line ih =>
    rw [List.mem_cons, not_or] at absent
    simp only [List.cons_append, afterNewlines, Ne.symm absent.1, ↓reduceIte]
    rw [ih absent.2, Text.byteSize_cons, Nat.add_assoc]

/-- The next line follows the first newline. -/
theorem nextLine?_eq_some_iff {place later : Place} :
    place.nextLine? = some later ↔
      ∃ line, '\n' ∉ line ∧ place.Passes (line ++ ['\n']) later := by
  constructor
  · intro found
    by_cases member : '\n' ∈ place.rest
    · obtain ⟨line, rest, split, absent⟩ := List.eq_append_cons_of_mem member
      have passes : place.Passes (line ++ ['\n'])
          ⟨place.offset + Text.byteSize (line ++ ['\n']), rest⟩ := ⟨by simp [split], rfl⟩
      rw [nextLine?_of_passes absent passes] at found
      exact ⟨line, absent, Option.some.inj found ▸ passes⟩
    · have nothing (offset : Nat) (rest : List Char) (absent : '\n' ∉ rest) :
          afterNewlines offset rest = [] := by
        induction rest generalizing offset with
        | nil => rfl
        | cons c rest ih =>
          rw [List.mem_cons, not_or] at absent
          simp [afterNewlines, Ne.symm absent.1, ih _ absent.2]
      rw [nextLine?, nothing _ _ member] at found
      contradiction
  · rintro ⟨line, absent, passes⟩
    exact nextLine?_of_passes absent passes

/-- A line begins at the later place, or it is the place itself. -/
def BeginsLine (place later : Place) : Prop :=
  ∃ before, Text.EndsLine before ∧ place.Passes before later

/-- After at least one newline a line begins at the next line or further on. -/
theorem beginsLine_of_nextLine {place later : Place} {lines : List Char}
    (passes : place.Passes (lines ++ ['\n']) later) :
    ∃ next, place.nextLine? = some next ∧ next.BeginsLine later := by
  have member : '\n' ∈ lines ++ ['\n'] := by simp
  obtain ⟨line, more, split, absent⟩ := List.eq_append_cons_of_mem member
  rw [split, ← List.singleton_append, ← List.append_assoc] at passes
  obtain ⟨next, first, second⟩ := Passes.append_iff.mp passes
  refine ⟨next, nextLine?_of_passes absent first, more, ?_, second⟩
  have whole : lines ++ ['\n'] = (line ++ ['\n']) ++ more := by
    rw [split, List.append_assoc, List.singleton_append]
  exact Text.EndsLine.of_append (.inr ⟨lines, whole.symm⟩)

theorem beginsLine_of_mem_lineStarts {place later : Place} (member : later ∈ place.lineStarts) :
    place.BeginsLine later := by
  have after (offset : Nat) (rest : List Char) (found : later ∈ afterNewlines offset rest) :
      ∃ lines, Passes ⟨offset, rest⟩ (lines ++ ['\n']) later := by
    induction rest generalizing offset with
    | nil => simp [afterNewlines] at found
    | cons c rest ih =>
      have next : Passes ⟨offset, c :: rest⟩ [c] ⟨offset + c.utf8Size, rest⟩ := ⟨rfl, rfl⟩
      have further (found : later ∈ afterNewlines (offset + c.utf8Size) rest) :
          ∃ lines, Passes ⟨offset, c :: rest⟩ (lines ++ ['\n']) later := by
        obtain ⟨lines, passes⟩ := ih _ found
        exact ⟨c :: lines, next.trans passes⟩
      simp only [afterNewlines] at found
      split at found
      next newline =>
        rcases List.mem_cons.mp found with rfl | found
        · exact ⟨[], newline ▸ next⟩
        · exact further found
      next => exact further found
  rcases List.mem_cons.mp member with rfl | found
  · exact ⟨[], .inl rfl, Passes.nil_iff.mpr rfl⟩
  · obtain ⟨lines, passes⟩ := after _ _ found
    exact ⟨lines ++ ['\n'], .inr ⟨lines, rfl⟩, passes⟩

end Place

namespace Header

variable {α : Type} {read? : Place → Option (α × Place)}

/-- The headers found from the next line on. -/
def onward (read? : Place → Option (α × Place)) (place : Place) : List (Place × α) :=
  place.nextLine?.elim [] (occurrences read?)

/-- What is read ends with a character that is not a newline. -/
def EndsInLine (read? : Place → Option (α × Place)) : Prop :=
  ∀ {place header stop}, read? place = some (header, stop) →
    ∃ passed last, last ≠ '\n' ∧ place.Passes (passed ++ [last]) stop

/-- Line starts before the place where the search resumes are passed over. -/
theorem go_of_passes {place later : Place} {passed : List Char} {resume : Nat}
    (passes : place.Passes passed later)
    (early : ∀ lines, lines ++ ['\n'] <+: passed →
      place.offset + Text.byteSize (lines ++ ['\n']) < resume) :
    occurrences.go read? resume (Place.afterNewlines place.offset place.rest) =
      occurrences.go read? resume (Place.afterNewlines later.offset later.rest) := by
  induction passed generalizing place with
  | nil => rw [Place.Passes.nil_iff.mp passes]
  | cons c passed ih =>
    rw [← List.singleton_append] at passes
    obtain ⟨next, first, second⟩ := Place.Passes.append_iff.mp passes
    have earlier (lines : List Char) (start : lines ++ ['\n'] <+: passed) :
        next.offset + Text.byteSize (lines ++ ['\n']) < resume := by
      have bound := early (c :: lines) (List.cons_prefix_cons.mpr ⟨rfl, start⟩)
      rw [first.2]
      simp only [List.cons_append, Text.byteSize_cons, Text.byteSize_nil] at bound ⊢
      omega
    rw [← ih second earlier, first.1]
    simp only [List.singleton_append, Place.afterNewlines]
    have offset : next.offset = place.offset + c.utf8Size := first.2
    rw [← offset]
    split
    next newline =>
      have before := early [] (List.cons_prefix_cons.mpr ⟨newline.symm, List.nil_prefix⟩)
      have passedOver : next.offset < resume := by
        subst newline
        rw [first.2]
        exact before
      simp only [occurrences.go, passedOver, ↓reduceIte]
    next => rfl

/-- The search resumes at the first line start that is not passed over. -/
theorem go_lineStarts {place : Place} {resume : Nat} (reached : resume ≤ place.offset) :
    occurrences.go read? resume place.lineStarts = occurrences read? place := by
  have notPassed : ¬ place.offset < resume := by omega
  simp only [occurrences, Place.lineStarts, occurrences.go, notPassed, ↓reduceIte,
    Nat.lt_irrefl]

theorem go_onward {place : Place} {resume : Nat} (reached : resume ≤ place.offset + 1) :
    occurrences.go read? resume (Place.afterNewlines place.offset place.rest) =
      onward read? place := by
  rw [Place.afterNewlines_eq, onward]
  cases next : place.nextLine? with
  | none => rfl
  | some later =>
    obtain ⟨line, -, passes⟩ := Place.nextLine?_eq_some_iff.mp next
    refine go_lineStarts ?_
    rw [passes.2, Text.byteSize_append]
    have : Text.byteSize ['\n'] = 1 := rfl
    omega

/-- The search as a recursion on places. -/
theorem occurrences_eq (ends : EndsInLine read?) (place : Place) :
    occurrences read? place =
      match read? place.skipBlanks with
      | some (header, stop) => (place, header) :: onward read? stop
      | none => onward read? place.skipBlanks := by
  obtain ⟨gap, blank, toWord, -⟩ := Place.skipBlanks_eq_iff.mp (Eq.refl place.skipBlanks)
  have shorter {lines passed : List Char} (start : lines <+: passed) :
      Text.byteSize lines ≤ Text.byteSize passed := by
    obtain ⟨more, rfl⟩ := start
    rw [Text.byteSize_append]
    omega
  simp only [occurrences, Place.lineStarts, occurrences.go, Nat.lt_irrefl, ↓reduceIte]
  cases read : read? place.skipBlanks with
  | none =>
    dsimp only
    rw [go_of_passes toWord, go_onward (Nat.le_refl _)]
    intro lines start
    rw [toWord.2]
    have := shorter start
    omega
  | some found =>
    obtain ⟨header, stop⟩ := found
    obtain ⟨passed, last, notNewline, passes⟩ := ends read
    dsimp only
    rw [go_of_passes (toWord.trans passes), go_onward (Nat.le_succ _)]
    intro lines start
    rw [← List.append_assoc] at start
    rcases List.prefix_concat_iff.mp start with same | start
    · exact absurd (List.cons.inj (List.append_inj_right' same rfl)).1.symm notNewline
    · have grows : Text.byteSize (gap ++ passed ++ [last]) =
          Text.byteSize (gap ++ passed) + last.utf8Size := by simp [Nat.add_assoc]
      rw [(toWord.trans passes).2, ← List.append_assoc, grows]
      have := shorter start
      have : 0 < last.utf8Size := last.utf8Size_pos
      omega

/-- Everything found is a header at the start of a line. -/
theorem read_of_mem_occurrences {place start : Place} {header : α}
    (member : (start, header) ∈ occurrences read? place) :
    place.BeginsLine start ∧ ∃ stop, read? start.skipBlanks = some (header, stop) := by
  have found (resume : Nat) (starts : List Place)
      (member : (start, header) ∈ occurrences.go read? resume starts) :
      start ∈ starts ∧ ∃ stop, read? start.skipBlanks = some (header, stop) := by
    induction starts generalizing resume with
    | nil => simp [occurrences.go] at member
    | cons first later ih =>
      simp only [occurrences.go] at member
      split at member
      · exact (ih _ member).imp_left (List.mem_cons_of_mem _)
      · split at member
        next other stop read =>
          rcases List.mem_cons.mp member with same | member
          · obtain ⟨rfl, rfl⟩ := Prod.mk.inj same
            exact ⟨List.mem_cons_self .., stop, read⟩
          · exact (ih _ member).imp_left (List.mem_cons_of_mem _)
        next => exact (ih _ member).imp_left (List.mem_cons_of_mem _)
  exact (found _ _ member).imp_left Place.beginsLine_of_mem_lineStarts

/-- Of two headers that are found, the first ends before the second begins. -/
theorem pairwise_occurrences (ends : EndsInLine read?) (place : Place) :
    (occurrences read? place).Pairwise fun earlier later =>
      ∃ stop, read? earlier.1.skipBlanks = some (earlier.2, stop) ∧
        stop.offset ≤ later.1.offset := by
  have after (resume : Nat) (starts : List Place) :
      (∀ found ∈ occurrences.go read? resume starts, resume ≤ found.1.offset) ∧
      (occurrences.go read? resume starts).Pairwise fun earlier later =>
        ∃ stop, read? earlier.1.skipBlanks = some (earlier.2, stop) ∧
          stop.offset ≤ later.1.offset := by
    induction starts generalizing resume with
    | nil => exact ⟨by simp [occurrences.go], .nil⟩
    | cons first later ih =>
      obtain ⟨gap, -, toWord, -⟩ := Place.skipBlanks_eq_iff.mp (Eq.refl first.skipBlanks)
      have wordBound := toWord.offset_le
      simp only [occurrences.go]
      split
      · exact ih resume
      next notPassed =>
        split
        next header stop read =>
          obtain ⟨passed, last, -, passes⟩ := ends read
          have stopBound := passes.offset_le
          obtain ⟨bound, sorted⟩ := ih stop.offset
          refine ⟨?_, List.pairwise_cons.mpr ⟨fun found member => ?_, sorted⟩⟩
          · intro found member
            rcases List.mem_cons.mp member with rfl | member
            · exact Nat.le_of_not_lt notPassed
            · have := bound found member
              omega
          · exact ⟨stop, read, bound found member⟩
        next =>
          obtain ⟨bound, sorted⟩ := ih (first.skipBlanks.offset + 1)
          refine ⟨fun found member => ?_, sorted⟩
          have := bound found member
          omega
  exact (after _ _).2

/-- No header that is read has a line in it at which another one begins. -/
def StandsAlone (read? : Place → Option (α × Place)) : Prop :=
  ∀ {place header stop lines later}, read? place = some (header, stop) →
    place.Passes (lines ++ ['\n']) later → later.Reaches stop → read? later.skipBlanks = none

/-- Headers that stand alone are all found. -/
theorem mem_occurrences_of_read (ends : EndsInLine read?) (alone : StandsAlone read?)
    {place start stop : Place} {header : α} (line : place.BeginsLine start)
    (read : read? start.skipBlanks = some (header, stop)) :
    ∃ found, (found, header) ∈ occurrences read? place ∧ found.skipBlanks = start.skipBlanks := by
  induction length : place.rest.length using Nat.strong_induction_on generalizing place with
  | _ size ih =>
    obtain ⟨before, endsLine, passes⟩ := line
    obtain ⟨gap, blank, toWord, solid⟩ := Place.skipBlanks_eq_iff.mp (Eq.refl place.skipBlanks)
    -- from any place before the line the search goes on to a shorter text
    have further {middle : Place} {more passed : List Char}
        (reached : place.Passes passed middle) (onLine : middle.Passes (more ++ ['\n']) start) :
        ∃ found, (found, header) ∈ onward read? middle ∧ found.skipBlanks = start.skipBlanks := by
      obtain ⟨next, isNext, line⟩ := Place.beginsLine_of_nextLine onLine
      obtain ⟨skipped, -, toNext⟩ := Place.nextLine?_eq_some_iff.mp isNext
      have shorter : next.rest.length < size := by
        rw [← length, reached.1, toNext.1]
        simp only [List.length_append, List.length_cons]
        omega
      obtain ⟨found, member, same⟩ := ih _ shorter line rfl
      exact ⟨found, by simpa [onward, isNext] using member, same⟩
    have onWord {more : List Char} (part : ∀ c ∈ more, Text.isBlank c = true)
        (behind : start.Passes more place.skipBlanks) :
        ∃ found, (found, header) ∈ occurrences read? place ∧
          found.skipBlanks = start.skipBlanks := by
      have same : start.skipBlanks = place.skipBlanks :=
        Place.skipBlanks_eq_iff.mpr ⟨more, part, behind, solid⟩
      rw [same] at read
      refine ⟨place, ?_, same.symm⟩
      rw [occurrences_eq ends]
      simp only [read]
      exact List.mem_cons_self ..
    rcases toWord.linear passes with ⟨more, ahead, rfl⟩ | ⟨more, behind, rfl⟩
    · rcases endsLine.of_append with rfl | ⟨lines, rfl⟩
      · obtain rfl := Place.Passes.nil_iff.mp ahead
        have nothing : ∀ c ∈ ([] : List Char), Text.isBlank c = true := by simp
        exact onWord nothing (Place.Passes.nil_iff.mpr rfl)
      · rw [occurrences_eq ends]
        cases other : read? place.skipBlanks with
        | none => exact further toWord ahead
        | some found =>
          obtain ⟨first, ended⟩ := found
          obtain ⟨passed, last, notNewline, through⟩ := ends other
          rcases through.linear ahead with ⟨more, beyond, split⟩ | ⟨more, inside, -⟩
          · rcases Text.EndsLine.of_append (.inr ⟨lines, split.symm⟩) with rfl | ⟨lines, rfl⟩
            · rw [List.append_nil] at split
              exact absurd (List.cons.inj (List.append_inj_right' split rfl)).1.symm notNewline
            · obtain ⟨found, member, same⟩ := further (toWord.trans through) beyond
              exact ⟨found, List.mem_cons_of_mem _ member, same⟩
          · have hidden := alone other ahead ⟨more, inside⟩
            rw [read] at hidden
            contradiction
    · exact onWord (fun c member => blank c (List.mem_append_right _ member)) behind

end Header

end ScriptDelta

import Mathlib.Data.List.DropRight
import Mathlib.Data.List.Forall2
import ScriptDelta.Proofs.Header.Layout
import ScriptDelta.Proofs.Header.Occurrences

/-! # Searches of texts that are alike

The next line after corresponding places begins with corresponding words, however many lines the gap
before them spans. So a search of either text meets the same words at the starts of lines, and what
it finds in the one corresponds to what it finds in the other.
-/

namespace ScriptDelta

open Text

/-- What comes after the first newline. -/
def Text.afterLine (text : List Char) : List Char :=
  (text.dropWhile (· != '\n')).tail

theorem Text.afterLine_append_of_mem {text : List Char} (member : '\n' ∈ text)
    (later : List Char) : afterLine (text ++ later) = afterLine text ++ later := by
  induction text with
  | nil => cases member
  | cons c text ih =>
    by_cases newline : c = '\n'
    · simp [afterLine, newline]
    · have further : '\n' ∈ text := by simpa [Ne.symm newline] using member
      simpa [afterLine, newline] using ih further

theorem Text.afterLine_append_of_not_mem {text : List Char} (absent : '\n' ∉ text)
    (later : List Char) : afterLine (text ++ later) = afterLine later := by
  rw [afterLine, List.dropWhile_append_of_pos (bne_of_not_mem absent), afterLine]

/-- In texts that are alike the next lines begin with corresponding words. -/
theorem Text.Alike.afterLine {exact : Bool} {first second : List Char}
    (alike : Alike exact first second) :
    Alike exact ((Text.afterLine first).dropWhile isBlank)
      ((Text.afterLine second).dropWhile isBlank) := by
  induction alike with
  | ends left right =>
    have nothing {gap : List Char} (blank : AllBlank gap) :
        (Text.afterLine gap).dropWhile isBlank = [] := by
      refine List.dropWhile_eq_nil_iff.mpr fun c member => blank c ?_
      exact (List.dropWhile_suffix _).subset (List.mem_of_mem_tail member)
    rw [nothing left, nothing right]
    exact .nil
  | @next gap other first second c same solid alike ih =>
    by_cases newline : '\n' ∈ gap
    · have within {gap : List Char} (blank : AllBlank gap) (member : '\n' ∈ gap)
          (text : List Char) : (Text.afterLine (gap ++ c :: text)).dropWhile isBlank = c :: text := by
        have rest : AllBlank (Text.afterLine gap) := fun d member =>
          blank d ((List.dropWhile_suffix _).subset (List.mem_of_mem_tail member))
        rw [afterLine_append_of_mem member, List.dropWhile_append_of_pos rest]
        simp [solid]
      rw [within same.left newline, within same.right (same.newline_iff.mp newline)]
      exact alike.cons solid
    · have beyond {gap : List Char} (absent : '\n' ∉ gap) (text : List Char) :
          Text.afterLine (gap ++ c :: text) = Text.afterLine text := by
        have other : '\n' ∉ gap ++ [c] := by
          have notNewline : '\n' ≠ c := by
            rintro rfl
            contradiction
          simp [absent, notNewline]
        have skipped := afterLine_append_of_not_mem other text
        rwa [List.append_assoc] at skipped
      rw [beyond newline, beyond fun member => newline (same.newline_iff.mpr member)]
      exact ih

theorem Place.rest_of_nextLine? {place later : Place} (next : place.nextLine? = some later) :
    later.rest = Text.afterLine place.rest := by
  obtain ⟨line, absent, passes⟩ := nextLine?_eq_some_iff.mp next
  rw [passes.1, List.append_assoc, afterLine_append_of_not_mem absent]
  rfl

theorem Place.afterLine_of_nextLine? {place : Place} (last : place.nextLine? = none) :
    Text.afterLine place.rest = [] := by
  by_cases member : '\n' ∈ place.rest
  · obtain ⟨line, rest, split, absent⟩ := List.eq_append_cons_of_mem member
    have passes : place.Passes (line ++ ['\n'])
        ⟨place.offset + byteSize (line ++ ['\n']), rest⟩ := ⟨by simp [split], rfl⟩
    rw [nextLine?_of_passes absent passes] at last
    contradiction
  · simpa [Text.afterLine] using afterLine_append_of_not_mem member []

namespace Header

section

variable {place middle stop : Place}

/-- The text between the places ends with an opening brace. -/
def OpensBlock (place stop : Place) : Prop :=
  ∃ passed, place.Passes (passed ++ ['\x7b']) stop

theorem OpensBlock.of_reaches (reaches : place.Reaches middle) (opens : OpensBlock middle stop) :
    OpensBlock place stop := by
  obtain ⟨before, first⟩ := reaches
  obtain ⟨passed, second⟩ := opens
  exact ⟨before ++ passed, by simpa using Place.Passes.trans first second⟩

theorem opensBlock_of_skip? (skipped : place.skip? "\x7b" = some stop) : OpensBlock place stop :=
  ⟨[], Place.skip?_eq_some_iff.mp skipped⟩

theorem opensBlock_of_parent? (read : parent? place = some stop) : OpensBlock place stop := by
  simp only [parent?, bind, Option.bind_eq_some_iff] at read
  obtain ⟨word, gap, ⟨name, after⟩, named, brace⟩ := read
  have toBrace := (after.reaches_skipWhile fun c => isNamePart c || c == '.').trans
    (Place.reaches_skipBlanks _)
  exact (opensBlock_of_skip? brace).of_reaches
    ((Place.reaches_skipBlanks? gap).trans ((Place.reaches_name? named).trans toBrace))

theorem opensBlock_of_class? {name : String} (read : class? place = some (name, stop)) :
    OpensBlock place stop := by
  simp only [class?, bind, Option.bind_eq_some_iff] at read
  obtain ⟨word, isWord, first, gap, ⟨own, after⟩, named, read⟩ := read
  have toName := (Place.reaches_skip? isWord).trans
    ((Place.reaches_skipBlanks? gap).trans (Place.reaches_name? named))
  refine .of_reaches toName ?_
  split at read
  next later found =>
    obtain ⟨-, rfl⟩ := Prod.mk.inj (Option.some.inj read)
    refine .of_reaches after.reaches_skipBlanks ?_
    rcases Option.or_eq_some_iff.mp found with base | ⟨-, derived⟩
    · exact opensBlock_of_skip? base
    · obtain ⟨parent, isWord, isParent⟩ := Option.bind_eq_some_iff.mp derived
      exact (opensBlock_of_parent? isParent).of_reaches (Place.reaches_skip? isWord)
  next =>
    simp only [Option.bind_eq_some_iff] at read
    obtain ⟨stem, -, later, isParent, made⟩ := read
    obtain ⟨-, rfl⟩ := Prod.mk.inj (Option.some.inj made)
    exact opensBlock_of_parent? isParent

theorem opensBlock_of_named? {method : Method} (read : named? place = some (method, stop)) :
    OpensBlock place stop := by
  simp only [named?, bind, Option.bind_eq_some_iff] at read
  obtain ⟨⟨name, after⟩, named, opened, isOpened, closed, isClosed, last, brace, made⟩ := read
  obtain ⟨-, rfl⟩ := Prod.mk.inj (Option.some.inj made)
  have toParameters := (Place.reaches_name? named).trans
    (after.reaches_skipBlanks.trans (Place.reaches_skip? isOpened))
  have toBrace := (opened.reaches_skipWhile (· != ')')).trans
    ((Place.reaches_skip? isClosed).trans closed.reaches_skipBlanks)
  exact (opensBlock_of_skip? brace).of_reaches (toParameters.trans toBrace)

theorem opensBlock_of_method? {method : Method} (read : method? place = some (method, stop)) :
    OpensBlock place stop := by
  rcases Option.or_eq_some_iff.mp read with marked | ⟨-, plain⟩
  · simp only [bind, Option.bind_eq_some_iff] at marked
    obtain ⟨word, isWord, first, gap, named⟩ := marked
    exact (opensBlock_of_named? named).of_reaches
      ((Place.reaches_skip? isWord).trans (Place.reaches_skipBlanks? gap))
  · exact opensBlock_of_named? plain

theorem OpensBlock.endsInLine (opens : OpensBlock place stop) :
    ∃ passed last, last ≠ '\n' ∧ place.Passes (passed ++ [last]) stop := by
  obtain ⟨passed, passes⟩ := opens
  exact ⟨passed, '\x7b', by decide, passes⟩

theorem endsInLine_class : EndsInLine class? :=
  fun read => (opensBlock_of_class? read).endsInLine

theorem endsInLine_method : EndsInLine method? :=
  fun read => (opensBlock_of_method? read).endsInLine

end

variable {α : Type} {read? : Place → Option (α × Place)} {related : α → α → Prop}

/-- Nothing is found among blanks. -/
theorem occurrences_of_blank (ends : EndsInLine read?) {place : Place}
    (blank : place.skipBlanks.rest = []) : occurrences read? place = [] := by
  rw [occurrences_eq ends]
  cases read : read? place.skipBlanks with
  | none => simp [onward, Place.nextLine?, blank, Place.afterNewlines]
  | some found =>
    obtain ⟨passed, last, -, passes⟩ := ends read
    have rest := passes.1
    simp [blank] at rest

/-- After corresponding places the search goes on at lines with corresponding words, unless there is
nothing left to find. -/
theorem onward_alike (ends : EndsInLine read?) {exact : Bool} {place other : Place}
    (alike : place.Alike exact other) :
    (onward read? place = [] ∧ onward read? other = []) ∨
      ∃ line otherLine, place.nextLine? = some line ∧ other.nextLine? = some otherLine ∧
        line.skipBlanks.Alike exact otherLine.skipBlanks := by
  have lines := Text.Alike.afterLine alike
  have blanks := lines.dropBlanks_eq_nil_iff
  simp only [List.dropWhile_idempotent] at blanks
  have nothing {place line : Place} (next : place.nextLine? = some line)
      (blank : (Text.afterLine place.rest).dropWhile isBlank = []) : onward read? place = [] := by
    rw [← Place.rest_of_nextLine? next] at blank
    simp only [onward, next, Option.elim]
    exact occurrences_of_blank ends blank
  cases next : place.nextLine? with
  | none =>
    rw [Place.afterLine_of_nextLine? next] at blanks
    cases otherNext : other.nextLine? with
    | none => exact .inl ⟨by simp [onward, next], by simp [onward, otherNext]⟩
    | some => exact .inl ⟨by simp [onward, next], nothing otherNext (blanks.mp rfl)⟩
  | some line =>
    cases otherNext : other.nextLine? with
    | none =>
      rw [Place.afterLine_of_nextLine? otherNext] at blanks
      exact .inl ⟨nothing next (blanks.mpr rfl), by simp [onward, otherNext]⟩
    | some otherLine =>
      rw [← Place.rest_of_nextLine? next, ← Place.rest_of_nextLine? otherNext] at lines
      exact .inr ⟨line, otherLine, rfl, rfl, lines⟩

/-- What a search finds in texts that begin with corresponding words corresponds. -/
theorem occurrences_alike (ends : EndsInLine read?) (respects : Respects read? related)
    {exact : Bool} {place other : Place}
    (alike : place.skipBlanks.Alike exact other.skipBlanks) :
    List.Forall₂ (fun x y => related x.2 y.2 ∧ x.1.skipBlanks.Alike exact y.1.skipBlanks)
      (occurrences read? place) (occurrences read? other) := by
  induction length : place.rest.length using Nat.strong_induction_on generalizing place other with
  | _ size ih =>
    have further {middle otherMiddle : Place} (reached : place.Reaches middle)
        (alike : middle.Alike exact otherMiddle) :
        List.Forall₂ (fun x y => related x.2 y.2 ∧ x.1.skipBlanks.Alike exact y.1.skipBlanks)
          (onward read? middle) (onward read? otherMiddle) := by
      rcases onward_alike ends alike with
        ⟨nothing, otherNothing⟩ | ⟨line, otherLine, next, otherNext, lines⟩
      · rw [nothing, otherNothing]
        exact .nil
      · obtain ⟨passed, -, passes⟩ := Place.nextLine?_eq_some_iff.mp next
        obtain ⟨before, reached⟩ := reached
        have shorter : line.rest.length < size := by
          rw [← length, reached.1, passes.1]
          simp only [List.length_append, List.length_cons]
          omega
        simp only [onward, next, otherNext, Option.elim]
        exact ih _ shorter lines rfl
    rw [occurrences_eq ends, occurrences_eq ends]
    have toWord := place.reaches_skipBlanks
    have read := respects alike
    cases isHeader : read? place.skipBlanks with
    | none =>
      cases isOther : read? other.skipBlanks with
      | none => exact further toWord alike
      | some => rw [isHeader, isOther] at read; cases read
    | some found =>
      cases isOther : read? other.skipBlanks with
      | none => rw [isHeader, isOther] at read; cases read
      | some otherFound =>
        rw [isHeader, isOther] at read
        obtain ⟨header, stop⟩ := found
        obtain ⟨passed, last, -, passes⟩ := ends isHeader
        cases read with
        | some both => exact .cons ⟨both.1, alike⟩ (further (toWord.trans passes.reaches) both.2)

end Header

end ScriptDelta

import ScriptDelta.Proofs.Header.Grammar
import ScriptDelta.Proofs.Header.Occurrences

/-! # Headers of functions stand alone

A header may run over several lines, so a line may begin inside it. What stands at the beginning of
such a line is a part of the header, and no part of a header of a function reads as a header of the
same form. Hence a search for these headers passes none over.
-/

namespace ScriptDelta.Header

open Text

variable {lines tail : List Char}

/-- A newline is not in a stretch without newlines. -/
theorem split_solid {solid rest : List Char} (absent : '\n' ∉ solid)
    (split : solid ++ rest = lines ++ '\n' :: tail) :
    ∃ more, rest = more ++ '\n' :: tail := by
  rcases List.append_eq_append_iff.mp split with ⟨more, -, rfl⟩ | ⟨more, rfl, after⟩
  · exact ⟨more, rfl⟩
  · cases more with
    | nil => exact ⟨[], after.symm⟩
    | cons c more =>
      obtain ⟨rfl, -⟩ := List.cons.inj after
      simp at absent

/-- A newline is in a gap, and blanks remain of the gap, or it comes later. -/
theorem split_gap {gap rest : List Char} (blank : AllBlank gap)
    (split : gap ++ rest = lines ++ '\n' :: tail) :
    (∃ remaining, AllBlank remaining ∧ tail = remaining ++ rest) ∨
      ∃ more, rest = more ++ '\n' :: tail := by
  rcases List.append_eq_append_iff.mp split with ⟨more, -, rfl⟩ | ⟨more, rfl, after⟩
  · exact .inr ⟨more, rfl⟩
  · cases more with
    | nil => exact .inr ⟨[], after.symm⟩
    | cons c more =>
      obtain ⟨-, rfl⟩ := List.cons.inj after
      exact .inl ⟨more, fun d member => blank d (by simp [member]), rfl⟩

theorem Assignment.split {assignment : List Char} (form : Assignment assignment)
    (split : assignment = lines ++ '\n' :: tail) :
    ∃ gap rest, AllBlank gap ∧ tail = gap ++ rest ∧
      (rest.head? = some '=' ∨ rest = ['('] ∨
        ∃ after, AllBlank after ∧ rest = "function".toList ++ (after ++ ['('])) := by
  obtain ⟨before, middle, after, beforeBlank, middleBlank, afterBlank, rfl⟩ := form
  rcases split_gap beforeBlank split with ⟨gap, blank, rfl⟩ | ⟨more, split⟩
  · exact ⟨gap, _, blank, rfl, .inl rfl⟩
  have equals : '\n' ∉ ['='] := by decide
  obtain ⟨more, split⟩ := split_solid equals split
  rcases split_gap middleBlank split with ⟨gap, blank, rfl⟩ | ⟨more, split⟩
  · exact ⟨gap, _, blank, rfl, .inr (.inr ⟨after, afterBlank, rfl⟩)⟩
  have word : '\n' ∉ "function".toList := by decide
  obtain ⟨more, split⟩ := split_solid word split
  rcases split_gap afterBlank split with ⟨gap, blank, rfl⟩ | ⟨more, split⟩
  · exact ⟨gap, _, blank, rfl, .inr (.inl rfl)⟩
  have member : '\n' ∈ ['('] := by simp [split]
  simp at member

/-- The parts of a header of an assigned function. -/
theorem Form.parts {identity : Identity} {header : List Char} (form : Form identity header)
    (assigned : identity.kind ≠ .function) :
    ∃ owner access assignment, IsName owner ∧ '\n' ∉ access ∧ Assignment assignment ∧
      header = owner ++ ('.' :: access ++ assignment) := by
  cases form with
  | function => contradiction
  | @prototype owner name assignment isOwner isName form =>
    refine ⟨owner, "prototype.".toList ++ name, assignment, isOwner, ?_, form, ?_⟩
    · rw [List.mem_append, not_or]
      exact ⟨by decide, isName.not_mem (by decide)⟩
    · simp
  | @assigned owner name assignment isOwner isName form =>
    exact ⟨owner, name, assignment, isOwner, isName.not_mem (by decide), form, rfl⟩

/-- The parts of a header of a declared function. -/
theorem Form.function_parts {identity : Identity} {header : List Char}
    (form : Form identity header) (declared : identity.kind = .function) :
    ∃ gap name space, gap ≠ [] ∧ AllBlank gap ∧ IsName name ∧ AllBlank space ∧
      header = "function".toList ++ (gap ++ (name ++ (space ++ ['(']))) := by
  cases form with
  | prototype | assigned => simp at declared
  | function occupied blank isName space => exact ⟨_, _, _, occupied, blank, isName, space, rfl⟩

/-- A header begins with a character that begins a name. -/
theorem Form.exists_start {identity : Identity} {header : List Char}
    (form : Form identity header) :
    ∃ first rest, header = first :: rest ∧ isNameStart first = true := by
  cases form with
  | function => exact ⟨_, _, rfl, by decide⟩
  | prototype owner | assigned owner =>
    obtain ⟨first, rest, rfl, start, -⟩ := owner
    exact ⟨_, _, rfl, start⟩

/-- Every header ends with the parenthesis. -/
theorem Form.exists_eq_append {identity : Identity} {header : List Char}
    (form : Form identity header) : ∃ passed, header = passed ++ ['('] := by
  have ending {assignment : List Char} (form : Assignment assignment) (first : List Char) :
      ∃ passed, first ++ assignment = passed ++ ['('] := by
    obtain ⟨before, middle, after, -, -, -, rfl⟩ := form
    exact ⟨first ++ (before ++ '=' :: (middle ++ ("function".toList ++ after))), by simp⟩
  cases form with
  | @function gap name space => exact ⟨"function".toList ++ (gap ++ (name ++ space)), by simp⟩
  | prototype _ _ form | assigned _ _ form =>
    rw [← List.append_assoc, ← List.append_assoc]
    exact ending form _

section

variable {identity other : Identity} {header otherHeader gap more otherMore : List Char}

/-- A newline in a header of a declaration is before the name or before the parenthesis. -/
theorem Form.split_function (form : Form identity header) (declared : identity.kind = .function)
    (split : header = lines ++ '\n' :: tail) :
    ∃ gap rest, AllBlank gap ∧ tail = gap ++ rest ∧
      (rest = ['('] ∨ ∃ name space, IsName name ∧ AllBlank space ∧
        rest = name ++ (space ++ ['('])) := by
  obtain ⟨nameGap, name, space, -, nameGapBlank, isName, spaceBlank, rfl⟩ :=
    form.function_parts declared
  have word : '\n' ∉ "function".toList := by decide
  obtain ⟨later, split⟩ := split_solid word split
  rcases split_gap nameGapBlank split with ⟨gap, blank, rfl⟩ | ⟨later, split⟩
  · exact ⟨gap, _, blank, rfl, .inr ⟨name, space, isName, spaceBlank, rfl⟩⟩
  obtain ⟨later, split⟩ := split_solid (isName.not_mem (by decide)) split
  rcases split_gap spaceBlank split with ⟨gap, blank, rfl⟩ | ⟨later, split⟩
  · exact ⟨gap, _, blank, rfl, .inl rfl⟩
  · have member : '\n' ∈ ['('] := by simp [split]
    simp at member

/-- A newline in a header of an assigned function is in the assignment. -/
theorem Form.split_assigned (form : Form identity header) (assigned : identity.kind ≠ .function)
    (split : header = lines ++ '\n' :: tail) :
    ∃ gap rest, AllBlank gap ∧ tail = gap ++ rest ∧
      (rest.head? = some '=' ∨ rest = ['('] ∨
        ∃ after, AllBlank after ∧ rest = "function".toList ++ (after ++ ['('])) := by
  obtain ⟨owner, access, assignment, isOwner, noNewline, assignmentForm, rfl⟩ :=
    form.parts assigned
  obtain ⟨later, split⟩ := split_solid (isOwner.not_mem (by decide)) split
  have access : '\n' ∉ '.' :: access := by simp [noNewline]
  obtain ⟨later, split⟩ := split_solid access split
  exact assignmentForm.split split

/-- A bracket or an equals sign begins no header. -/
theorem Form.ne_sign (form : Form identity header) {sign : Char}
    (notStart : isNameStart sign = false) : sign :: more ≠ header ++ otherMore := by
  obtain ⟨first, rest, rfl, start⟩ := form.exists_start
  intro same
  rw [(List.cons.inj same).1, start] at notStart
  contradiction

/-- The name of a declaration would have to be `function` and another name to follow it. -/
theorem Form.ne_name (form : Form identity header) (declared : identity.kind = .function)
    {name space : List Char} (isName : IsName name) (blank : AllBlank space) :
    name ++ (space ++ '(' :: more) ≠ header ++ otherMore := by
  obtain ⟨gap, other, otherSpace, occupied, gapBlank, isOther, -, rfl⟩ :=
    form.function_parts declared
  intro same
  simp only [List.append_assoc] at same
  have isWord : IsName "function".toList := by decide
  obtain ⟨-, rest⟩ := append_inj_of_stops (fun c => isName.parts) (fun c => isWord.parts)
    (blank.stops (by decide) _) (gapBlank.stops_of_ne_nil occupied _) same
  obtain ⟨-, names⟩ := append_inj_of_stops blank gapBlank rfl (isOther.stops _) rest
  obtain ⟨c, more, rfl, start, -⟩ := isOther
  obtain ⟨rfl, -⟩ := List.cons.inj names
  exact absurd start (by decide)

/-- The word `function` would have to be the owner of a member. -/
theorem Form.ne_word (form : Form identity header) (assigned : identity.kind ≠ .function)
    {after : List Char} (blank : AllBlank after) :
    "function".toList ++ (after ++ '(' :: more) ≠ header ++ otherMore := by
  obtain ⟨owner, access, assignment, isOwner, -, -, rfl⟩ := form.parts assigned
  intro same
  simp only [List.append_assoc, List.cons_append] at same
  have isWord : IsName "function".toList := by decide
  obtain ⟨-, rest⟩ := append_inj_of_stops (fun c => isWord.parts) (fun c => isOwner.parts)
    (blank.stops (by decide) _) rfl same
  cases after with
  | nil => simp at rest
  | cons c after =>
    obtain ⟨rfl, -⟩ := List.cons.inj rest
    exact absurd (blank _ (List.mem_cons_self ..)) (by decide)

/-- What begins after a newline and blanks in a header reads as no header of the same form. -/
theorem Form.alone (form : Form identity header) (otherForm : Form other otherHeader)
    (kinds : other.kind = identity.kind) (split : header = lines ++ '\n' :: tail)
    (blank : AllBlank gap) : tail ++ more ≠ gap ++ (otherHeader ++ otherMore) := by
  intro same
  have solid : (otherHeader ++ otherMore).head?.any isBlank = false := by
    obtain ⟨first, rest, rfl, start⟩ := otherForm.exists_start
    simpa using not_isBlank_of_isNamePart (isNamePart_of_isNameStart start)
  -- what remains after the blanks would be the other header
  have remains {remaining rest : List Char} (remainingBlank : AllBlank remaining)
      (parts : tail = remaining ++ rest) (restSolid : (rest ++ more).head?.any isBlank = false) :
      rest ++ more = otherHeader ++ otherMore := by
    rw [parts, List.append_assoc] at same
    exact (append_inj_of_stops remainingBlank blank restSolid solid same).2
  by_cases declared : identity.kind = .function
  · obtain ⟨remaining, rest, remainingBlank, parts, rfl | ⟨name, space, isName, spaceBlank, rfl⟩⟩ :=
      form.split_function declared split
    · exact otherForm.ne_sign (by decide) (remains remainingBlank parts rfl)
    · have found := remains remainingBlank parts (by rw [List.append_assoc]; exact isName.stops _)
      simp only [List.append_assoc, List.singleton_append] at found
      exact otherForm.ne_name (kinds.trans declared) isName spaceBlank found
  · obtain ⟨remaining, rest, remainingBlank, parts, sign | rfl | ⟨after, afterBlank, rfl⟩⟩ :=
      form.split_assigned declared split
    · obtain ⟨rest, rfl⟩ := List.head?_eq_some_iff.mp sign
      exact otherForm.ne_sign (by decide) (remains remainingBlank parts rfl)
    · exact otherForm.ne_sign (by decide) (remains remainingBlank parts rfl)
    · have found := remains remainingBlank parts rfl
      simp only [List.append_assoc, List.singleton_append] at found
      exact otherForm.ne_word (kinds ▸ declared) afterBlank found

end

section

variable {read? : Place → Option (Identity × Place)} {kind : Kind}

theorem endsInLine_of_reads (reads : Reads read? kind) : EndsInLine read? := by
  intro place identity stop read
  obtain ⟨-, header, form, passes⟩ := (reads _ _ _).mp read
  obtain ⟨passed, rfl⟩ := form.exists_eq_append
  exact ⟨passed, '(', by decide, passes⟩

theorem standsAlone_of_reads (reads : Reads read? kind) : StandsAlone read? := by
  intro place identity stop lines later read passes reaches
  obtain ⟨isKind, header, form, through⟩ := (reads _ _ _).mp read
  obtain ⟨tail, further⟩ := reaches
  have split : header = lines ++ '\n' :: tail := by
    have whole := (Place.Passes.trans passes further).1.symm.trans through.1
    simpa using (List.append_cancel_right whole).symm
  cases other : read? later.skipBlanks with
  | none => rfl
  | some found =>
    obtain ⟨otherIdentity, otherStop⟩ := found
    obtain ⟨otherKind, otherHeader, otherForm, otherThrough⟩ := (reads _ _ _).mp other
    obtain ⟨gap, blank, toWord, -⟩ := Place.skipBlanks_eq_iff.mp (Eq.refl later.skipBlanks)
    have same := further.1.symm.trans (toWord.trans otherThrough).1
    rw [List.append_assoc] at same
    exact absurd same (form.alone otherForm (otherKind.trans isKind.symm) split blank)

end

end ScriptDelta.Header

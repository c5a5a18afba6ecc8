import Mathlib.Data.List.Basic
import ScriptDelta.Text.Line

/-! # Cutting a text into its lines

A line with a line end holds no other, so it is cut off whole in front of any text that does not go
on with the line feed of a carriage return at its end. The lines of a text all have a line end but
for the last, which may lack one.
-/

namespace ScriptDelta.Text

/-- There is no line end in the text. -/
def Unbroken (text : List Char) : Prop :=
  ∀ c ∈ text, c ≠ '\n' ∧ c ≠ '\r'

/-- The text is one line with its line end. -/
def EndedLine (line : List Char) : Prop :=
  ∃ body stop, line = body ++ stop ∧ Unbroken body ∧
    (stop = ['\n'] ∨ stop = ['\r', '\n'] ∨ stop = ['\r'])

/-- The text with its last line ended; a text without lines has none to end. -/
def finished (text : List Char) : List Char :=
  if text.isEmpty || isEnded text then text else text ++ ['\n']

/-- Lines one after the other: all have line ends but for the last, which may lack one. -/
inductive Cut : List (List Char) → Prop where
  | nil : Cut []
  | last {line : List Char} (solid : line ≠ []) (unbroken : Unbroken line) : Cut [line]
  | cons {line : List Char} {later : List (List Char)} (ended : EndedLine line)
      (rest : Cut later) : Cut (line :: later)

theorem Unbroken.cons {c : Char} {text : List Char} (feed : c ≠ '\n') (carriage : c ≠ '\r')
    (unbroken : Unbroken text) : Unbroken (c :: text) :=
  List.forall_mem_cons.mpr ⟨⟨feed, carriage⟩, unbroken⟩

theorem EndedLine.cons {c : Char} {line : List Char} (feed : c ≠ '\n') (carriage : c ≠ '\r')
    (ended : EndedLine line) : EndedLine (c :: line) := by
  obtain ⟨body, stop, rfl, unbroken, isStop⟩ := ended
  exact ⟨c :: body, stop, rfl, unbroken.cons feed carriage, isStop⟩

theorem EndedLine.of_stop {stop : List Char}
    (isStop : stop = ['\n'] ∨ stop = ['\r', '\n'] ∨ stop = ['\r']) : EndedLine stop :=
  ⟨[], stop, rfl, by simp [Unbroken], isStop⟩

theorem EndedLine.isEnded {line : List Char} (ended : EndedLine line) : isEnded line = true := by
  obtain ⟨body, stop, rfl, -, rfl | rfl | rfl⟩ := ended <;> simp [Text.isEnded]

theorem Unbroken.isEnded {text : List Char} (unbroken : Unbroken text) :
    Text.isEnded text = false := by
  rw [Text.isEnded]
  cases isLast : text.getLast? with
  | none => rfl
  | some last =>
    have apart := unbroken last (List.mem_of_getLast? isLast)
    simp [apart.1, apart.2]

theorem isEnded_append {text : List Char} (solid : text ≠ []) (before : List Char) :
    isEnded (before ++ text) = isEnded text := by
  rw [isEnded, isEnded, List.getLast?_append_of_ne_nil before solid]

theorem finished_append {text : List Char} (solid : text ≠ []) (before : List Char) :
    finished (before ++ text) = before ++ finished text := by
  simp only [finished, isEnded_append solid]
  cases isEnded text <;> simp [solid]

section lines

variable {c : Char} {rest : List Char}

theorem lines_cons (c : Char) (rest : List Char) : lines (c :: rest) = consLine c (lines rest) :=
  rfl

theorem lines_feed : lines ('\n' :: rest) = ['\n'] :: lines rest :=
  rfl

theorem lines_both : lines ('\r' :: '\n' :: rest) = ['\r', '\n'] :: lines rest :=
  rfl

theorem lines_carriage (clear : rest.head? ≠ some '\n') :
    lines ('\r' :: rest) = ['\r'] :: lines rest := by
  rw [lines_cons, consLine.eq_def]
  split
  next same => contradiction
  next more found =>
    have whole := flatten_lines rest
    rw [found] at whole
    rw [← whole] at clear
    contradiction
  next => rfl
  next carriage => simp at carriage
  next carriage => simp at carriage

theorem lines_solid (feed : c ≠ '\n') (carriage : c ≠ '\r') {line : List Char}
    {later : List (List Char)} (cut : lines rest = line :: later) :
    lines (c :: rest) = (c :: line) :: later := by
  rw [lines_cons, cut, consLine.eq_def]
  split <;> simp_all

theorem lines_append_of_unbroken {body : List Char} (unbroken : Unbroken body)
    {line : List Char} {later : List (List Char)} (cut : lines rest = line :: later) :
    lines (body ++ rest) = (body ++ line) :: later := by
  induction body with
  | nil => exact cut
  | cons c body ih =>
    obtain ⟨⟨feed, carriage⟩, unbroken⟩ := List.forall_mem_cons.mp unbroken
    exact lines_solid feed carriage (ih unbroken)

/-- A line with a line end is cut off in front of a text that does not go on with a line feed. -/
theorem lines_append {line : List Char} (ended : EndedLine line) (clear : rest.head? ≠ some '\n') :
    lines (line ++ rest) = line :: lines rest := by
  obtain ⟨body, stop, rfl, unbroken, isStop⟩ := ended
  rw [List.append_assoc]
  apply lines_append_of_unbroken unbroken
  obtain rfl | rfl | rfl := isStop
  · exact lines_feed
  · exact lines_both
  · exact lines_carriage clear

end lines

theorem Cut.consLine {later : List (List Char)} (cut : Cut later) (c : Char) :
    Cut (consLine c later) := by
  rw [consLine.eq_def]
  split
  next => exact .cons (.of_stop (.inl rfl)) cut
  next more =>
    cases cut with
    | last _ unbroken => exact absurd rfl (unbroken '\n' (List.mem_cons_self ..)).1
    | cons _ rest => exact .cons (.of_stop (.inr (.inl rfl))) rest
  next => exact .cons (.of_stop (.inr (.inr rfl))) cut
  next feed _ carriage =>
    refine .last (by simp) ?_
    simp_all [Unbroken]
  next line more feed _ carriage =>
    have feed : c ≠ '\n' := by simpa using feed
    have carriage : c ≠ '\r' := by simpa using carriage
    cases cut with
    | last _ unbroken => exact .last (by simp) (unbroken.cons feed carriage)
    | cons ended rest => exact .cons (ended.cons feed carriage) rest

/-- All lines of a text have line ends but for the last, which may lack one. -/
theorem cut_lines (text : List Char) : Cut (lines text) := by
  induction text with
  | nil => exact .nil
  | cons c rest ih => exact ih.consLine c

/-- A line that is given a line end has one. -/
theorem Cut.endedLine {later : List (List Char)} (cut : Cut later) {line : List Char}
    (member : line ∈ later) : EndedLine (ended line) := by
  induction cut with
  | nil => contradiction
  | last solid unbroken =>
    obtain rfl := List.mem_singleton.mp member
    rw [ended, unbroken.isEnded]
    exact ⟨line, ['\n'], rfl, unbroken, .inl rfl⟩
  | cons isEnded _ ih =>
    obtain rfl | member := List.mem_cons.mp member
    · rwa [ended, if_pos isEnded.isEnded]
    · exact ih member

/-- Lines that are given line ends are the text with its last line ended. -/
theorem Cut.flatMap_ended {later : List (List Char)} (cut : Cut later) :
    later.flatMap ended = finished later.flatten := by
  induction cut with
  | nil => rfl
  | last solid unbroken => simp [ended, finished, unbroken.isEnded, solid]
  | @cons line later isEnded rest ih =>
    have kept : ended line = line := if_pos isEnded.isEnded
    rw [List.flatMap_cons, List.flatten_cons, kept, ih]
    by_cases empty : later.flatten = []
    · simp [finished, empty, isEnded.isEnded]
    · exact (finished_append empty line).symm

theorem flatMap_ended_lines (text : List Char) : (lines text).flatMap ended = finished text := by
  rw [(cut_lines text).flatMap_ended, flatten_lines]

/-- A text is known from its lines. -/
theorem lines_injective {text other : List Char} (same : lines text = lines other) :
    text = other := by
  rw [← flatten_lines text, same, flatten_lines]

end ScriptDelta.Text

import ScriptDelta.Proofs.Edit.Annotated
import ScriptDelta.Proofs.Text.Fields
import ScriptDelta.Text.Blank

/-! # Annotated diffs without the blanks at their ends

However an annotated diff is cut off, its fields between line feeds are empty or begin with a sign
(`head_of_mem_fields`): a line end within a field is a carriage return, and behind it comes the sign
of the next line. Blanks at the end may be all that is left of a line, but its sign is not cut off
if the line is not common to both texts (`exists_change_of_trimEnd`).
-/

namespace ScriptDelta

namespace Text

section trimEnd

theorem trimEnd_prefix (text : List Char) : trimEnd text <+: text := by
  rw [trimEnd, ← List.reverse_suffix, List.reverse_reverse]
  exact List.dropWhile_suffix _

/-- Nothing in front of a character that is no blank is cut off. -/
theorem trimEnd_append_cons {c : Char} (solid : isBlank c = false) (front back : List Char) :
    trimEnd (front ++ c :: back) = front ++ c :: trimEnd back := by
  rw [trimEnd, List.reverse_append, List.reverse_cons, List.append_assoc, List.singleton_append,
    List.dropWhile_append]
  split
  next empty =>
    have gone : trimEnd back = [] := by simpa [trimEnd] using empty
    simp [solid, gone]
  next => simp [trimEnd]

end trimEnd

section fields

variable {separator : Char}

/-- A field of a text that is cut off is the beginning of a field of the whole text. -/
theorem exists_field_of_prefix {front text part : String} (isFront : front.toList <+: text.toList)
    (member : part ∈ fields separator front) :
    ∃ whole ∈ fields separator text, part.toList <+: whole.toList := by
  obtain ⟨back, split⟩ := isFront
  have whole : text = front ++ String.ofList back := by
    apply String.toList_inj.mp
    rw [String.toList_append, String.toList_ofList, split]
  obtain ⟨lead, last, first, rest, ofFront, -, ofBoth⟩ :=
    fields_append_text separator front (String.ofList back)
  rw [whole, ofBoth]
  rw [ofFront] at member
  obtain inLead | isLast := List.mem_append.mp member
  · exact ⟨part, List.mem_append_left _ inLead, List.prefix_refl _⟩
  · obtain rfl := List.mem_singleton.mp isLast
    refine ⟨part ++ first, by simp, ?_⟩
    rw [String.toList_append]
    exact List.prefix_append _ _

end fields

/-- The first line of a text begins as the text does. -/
theorem exists_lines_cons (c : Char) (rest : List Char) :
    ∃ line later, lines (c :: rest) = (c :: line) :: later := by
  rw [lines_cons, consLine.eq_def]
  split <;> simp

end Text

section feeds

/-- The line feed of a line, if it has one, is its last character. -/
theorem Text.EndedLine.feed_cases {line : List Char} (ended : EndedLine line) :
    (∃ front, line = front ++ ['\n'] ∧ '\n' ∉ front) ∨ '\n' ∉ line := by
  obtain ⟨body, stop, rfl, unbroken, isStop⟩ := ended
  have absent : '\n' ∉ body := fun member => (unbroken '\n' member).1 rfl
  obtain rfl | rfl | rfl := isStop
  · exact .inl ⟨body, rfl, absent⟩
  · exact .inl ⟨body ++ ['\r'], by simp, by simp [absent]⟩
  · exact .inr (by simp [absent])

theorem Text.EndedLine.ne_nil {line : List Char} (ended : EndedLine line) : line ≠ [] := by
  rintro rfl
  simpa [Text.isEnded] using ended.isEnded

/-- Of the fields of a line and what follows it, the first is empty or begins as the line does, and
the others are fields of what follows. -/
theorem Text.EndedLine.mem_fields_cases {line rest : List Char} (ended : EndedLine line)
    {part : String} (member : part ∈ fields '\n' (String.ofList (line ++ rest))) :
    part = "" ∨ part.toList.head? = line.head? ∨ part ∈ fields '\n' (String.ofList rest) := by
  rw [String.ofList_append] at member
  obtain ⟨front, rfl, absent⟩ | absent := ended.feed_cases
  · have split : String.ofList (front ++ ['\n']) = String.ofList front ++ "\n" :=
      String.ofList_append
    have whole : fields '\n' (String.ofList front) = [String.ofList front] :=
      fields_of_not_mem (by rwa [String.toList_ofList])
    rw [split, fields_append rfl, whole, List.singleton_append, List.mem_cons] at member
    obtain rfl | inRest := member
    · cases front with
      | nil => exact .inl rfl
      | cons c front => exact .inr (.inl (by simp))
    · exact .inr (.inr inRest)
  -- A carriage return alone ends the line, and the first field goes on behind it.
  · obtain ⟨lead, last, first, others, ofLine, ofRest, ofBoth⟩ :=
      fields_append_text '\n' (String.ofList line) (String.ofList rest)
    rw [fields_of_not_mem (by rwa [String.toList_ofList]), ← List.nil_append [String.ofList line]]
      at ofLine
    obtain ⟨rfl, same⟩ := List.append_inj' ofLine rfl
    obtain rfl := List.singleton_inj.mp same
    rw [ofBoth, List.nil_append, List.mem_cons] at member
    obtain rfl | inRest := member
    · refine .inr (.inl ?_)
      rw [String.toList_append, String.toList_ofList, List.head?_append_of_ne_nil _ ended.ne_nil]
    · exact .inr (.inr (ofRest ▸ List.mem_cons_of_mem _ inRest))

/-- Between the line feeds of some lines there is nothing, or something that begins as one of the
lines does. -/
theorem Text.Cut.head_of_mem_fields {lines : List (List Char)} (cut : Cut lines) {part : String}
    (member : part ∈ fields '\n' (String.ofList lines.flatten)) :
    part = "" ∨ ∃ line ∈ lines, part.toList.head? = line.head? := by
  induction cut generalizing part with
  | nil =>
    left
    simpa [fields] using member
  | @last line solid unbroken =>
    right
    have absent : '\n' ∉ (String.ofList line).toList := by
      rw [String.toList_ofList]
      exact fun member => (unbroken '\n' member).1 rfl
    rw [List.flatten_singleton, fields_of_not_mem absent, List.mem_singleton] at member
    exact ⟨line, List.mem_singleton_self line, by rw [member, String.toList_ofList]⟩
  | @cons line later ended rest ih =>
    rw [List.flatten_cons] at member
    obtain empty | same | inRest := ended.mem_fields_cases member
    · exact .inl empty
    · exact .inr ⟨line, List.mem_cons_self .., same⟩
    · obtain empty | ⟨other, isLater, same⟩ := ih inRest
      · exact .inl empty
      · exact .inr ⟨other, List.mem_cons_of_mem _ isLater, same⟩

end feeds

namespace Edit

/-- However an annotated diff is cut off, no field of it begins but with a sign. -/
theorem head_of_mem_fields {old new front part : String}
    (isFront : front.toList <+: (annotate old new).toList)
    (member : part ∈ Text.fields '\n' front) :
    part = "" ∨ ∃ mark : Mark, part.toList.head? = some mark.sign := by
  obtain ⟨whole, isField, isPart⟩ := Text.exists_field_of_prefix isFront member
  by_cases empty : part = ""
  · exact .inl empty
  · right
    have solid : part.toList ≠ [] := by simpa using empty
    have lines :
        annotate old new = String.ofList (Text.lines (annotate old new).toList).flatten := by
      rw [Text.flatten_lines, String.ofList_toList]
    rw [lines] at isField
    obtain rfl | ⟨line, isLine, same⟩ := (Text.cut_lines _).head_of_mem_fields isField
    · exact absurd (List.prefix_nil.mp isPart) solid
    · rw [lines_annotate] at isLine
      obtain ⟨entry, -, rfl⟩ := List.mem_map.mp isLine
      obtain ⟨rest, extended⟩ := isPart
      rw [← extended, List.head?_append_of_ne_nil _ solid] at same
      exact ⟨entry.1, same⟩

/-- A line that is not common to both texts is left with its sign at least. -/
theorem exists_change_of_trimEnd {old new : String} (differ : old ≠ new) :
    ∃ line ∈ Text.lines (Text.trimEnd (annotate old new).toList),
      beginsWith ['-', '+'] line = true := by
  have notKept := mt forall_keep_iff.mp (mt String.toList_inj.mp differ)
  simp only [not_forall] at notKept
  obtain ⟨⟨mark, line⟩, member, change⟩ := notKept
  obtain ⟨before, after, split⟩ := List.append_of_mem member
  obtain ⟨solid, signs⟩ :
      Text.isBlank mark.sign = false ∧ ['-', '+'].contains mark.sign = true := by
    cases mark with
    | keep => contradiction
    | delete | insert => decide
  have ended : ∀ entry ∈ before, Text.EndedLine (Text.ended entry.2) := by
    intro entry inBefore
    have inScript : entry ∈ (lineScript old.toList new.toList).marked :=
      split ▸ List.mem_append_left _ inBefore
    exact endedLine_of_mem inScript
  have whole : (annotate old new).toList = before.flatMap signed ++
      mark.sign :: (Text.ended line ++ after.flatMap signed) := by
    rw [toList_annotate, split, List.flatMap_append, List.flatMap_cons]
    rfl
  -- The sign is no blank, so neither it nor what stands before it is cut off.
  rw [whole, Text.trimEnd_append_cons solid]
  obtain ⟨rest, later, cut⟩ := Text.exists_lines_cons mark.sign
    (Text.trimEnd (Text.ended line ++ after.flatMap signed))
  rw [lines_flatMap_signed ended (by simpa using sign_ne_feed mark), cut]
  exact ⟨mark.sign :: rest, by simp, signs⟩

end Edit

end ScriptDelta

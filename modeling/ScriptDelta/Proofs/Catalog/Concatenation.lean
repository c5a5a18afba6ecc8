import ScriptDelta.Proofs.Catalog.Recognition

/-! # The definitions of two texts in a row

Between two texts stands a newline. If the first text ends with a statement, no header runs across
the seam, so the headers of the whole are those of the parts. A block that is closed in the first
text is closed there whatever comes after, and a block of the second text does not depend on what
stands before. The functions of the whole are therefore those of the parts, and those of the second
text take precedence.
-/

namespace ScriptDelta

open Text Header

/-- The last character of the text that is not blank, if there is one, is a closing brace or a
semicolon. -/
def Text.EndsStatement (text : List Char) : Prop :=
  AllBlank text ∨ ∃ before last gap, text = before ++ last :: gap ∧
    (last = '\x7d' ∨ last = ';') ∧ AllBlank gap

/-- What stands after the last statement is blank. -/
theorem Text.EndsStatement.allBlank_of_append {first second : List Char}
    (ends : EndsStatement (first ++ second)) (brace : '\x7d' ∉ second) (semicolon : ';' ∉ second) :
    AllBlank second := by
  rcases ends with blank | ⟨before, last, gap, split, isLast, blank⟩
  · exact fun c member => blank c (List.mem_append_right _ member)
  · rcases List.append_eq_append_iff.mp split with ⟨more, -, rfl⟩ | ⟨more, -, rest⟩
    · rcases isLast with rfl | rfl <;> simp at brace semicolon
    · cases more with
      | nil =>
        obtain rfl := rest
        rcases isLast with rfl | rfl <;> simp at brace semicolon
      | cons c more =>
        obtain ⟨-, rfl⟩ := List.cons.inj rest
        exact fun d member => blank d (List.mem_append_right _ member)

theorem Text.EndsLine.append {lines : List Char} (ends : EndsLine lines) (text : List Char) :
    EndsLine (text ++ '\n' :: lines) := by
  rcases ends with rfl | ⟨earlier, rfl⟩
  · exact .inr ⟨text, rfl⟩
  · exact .inr ⟨text ++ '\n' :: earlier, by simp⟩

section

variable {identity : Identity} {first second before : List Char}

theorem EndsWithHeader.append (ends : EndsWithHeader identity before) (text : List Char) :
    EndsWithHeader identity (text ++ '\n' :: before) := by
  obtain ⟨lines, gap, header, endsLine, blank, form, rfl⟩ := ends
  exact ⟨_, gap, header, endsLine.append text, blank, form, by simp⟩

/-- If the first of two texts ends with a statement, a header that ends in the second begins
there too, unless it is only blanks before the header that begin in the first. -/
theorem EndsWithHeader.of_append (ends : EndsWithHeader identity (first ++ '\n' :: before))
    (ended : EndsStatement first) : EndsWithHeader identity before := by
  obtain ⟨lines, gap, header, endsLine, blank, form, split⟩ := ends
  have solid : header.head?.any isBlank = false := by
    obtain ⟨start, rest, rfl, isStart⟩ := form.exists_start
    simpa using not_isBlank_of_isNamePart (isNamePart_of_isNameStart isStart)
  -- the newline between the texts may be one of the blanks before the header
  have seam {part : List Char} (partBlank : AllBlank part) (same : part ++ header = '\n' :: before) :
      EndsWithHeader identity before := by
    cases part with
    | nil =>
      rw [List.nil_append] at same
      rw [same] at solid
      contradiction
    | cons c part =>
      obtain ⟨-, rfl⟩ := List.cons.inj same
      exact ⟨[], part, header, .inl rfl, fun d member => partBlank d (.tail _ member), form, rfl⟩
  rcases List.append_eq_append_iff.mp split with ⟨more, rfl, after⟩ | ⟨more, rfl, after⟩
  · cases more with
    | nil => exact seam blank after.symm
    | cons c more =>
      obtain ⟨rfl, rfl⟩ := List.cons.inj after
      have endsLine : EndsLine ((first ++ ['\n']) ++ more) := by simpa using endsLine
      exact ⟨more, gap, header, endsLine.of_append, blank, form, rfl⟩
  · rcases List.append_eq_append_iff.mp after with ⟨inner, rfl, rfl⟩ | ⟨part, rfl, tail⟩
    · -- or the header would have begun in the first text, which is then not at its end
      have clear {c : Char} (absent : c ∉ inner ++ '\n' :: before) : c ∉ inner := fun member =>
        absent (List.mem_append_left _ member)
      rw [← List.append_assoc] at ended
      have innerBlank := ended.allBlank_of_append
        (clear (form.not_mem (by decide) (by decide) (by decide)))
        (clear (form.not_mem (by decide) (by decide) (by decide)))
      cases inner with
      | nil => contradiction
      | cons c inner =>
        have isBlank := innerBlank c (List.mem_cons_self ..)
        simp [isBlank] at solid
    · exact seam (fun c member => blank c (List.mem_append_right _ member)) tail.symm

/-- If the first of two texts ends with a statement, the headers of the whole are those of the
parts. -/
theorem endsWithHeader_append_iff (ended : EndsStatement first) {before : List Char} :
    (before <+: first ++ '\n' :: second ∧ EndsWithHeader identity before) ↔
      (before <+: first ∧ EndsWithHeader identity before) ∨
        ∃ later, before = first ++ '\n' :: later ∧ later <+: second ∧
          EndsWithHeader identity later := by
  constructor
  · rintro ⟨⟨rest, whole⟩, ends⟩
    rcases List.append_eq_append_iff.mp whole with ⟨more, rfl, -⟩ | ⟨more, rfl, tail⟩
    · exact .inl ⟨List.prefix_append .., ends⟩
    · cases more with
      | nil => exact .inl ⟨by simp, ends⟩
      | cons c later =>
        obtain ⟨rfl, rfl⟩ := List.cons.inj tail
        exact .inr ⟨later, rfl, List.prefix_append .., ends.of_append ended⟩
  · rintro (⟨start, ends⟩ | ⟨later, rfl, start, ends⟩)
    · exact ⟨start.trans (List.prefix_append ..), ends⟩
    · exact ⟨by simpa using start, ends.append first⟩

/-- The last header of the second text is the last header of the whole. -/
theorem LastHeader.append_left {later : List Char} (ended : EndsStatement first)
    (last : LastHeader identity second later) :
    LastHeader identity (first ++ '\n' :: second) (first ++ '\n' :: later) := by
  obtain ⟨start, ends, latest⟩ := last
  refine ⟨by simpa using start, ends.append first, fun other otherStart otherEnds => ?_⟩
  rcases (endsWithHeader_append_iff ended).mp ⟨otherStart, otherEnds⟩ with
    ⟨inFirst, -⟩ | ⟨more, rfl, inSecond, moreEnds⟩
  · exact inFirst.trans (List.prefix_append ..)
  · simpa using latest more inSecond moreEnds

/-- The last header of the first text is the last header of the whole if the second has none. -/
theorem LastHeader.append_right (ended : EndsStatement first)
    (last : LastHeader identity first before)
    (none : ∀ later, later <+: second → ¬ EndsWithHeader identity later) :
    LastHeader identity (first ++ '\n' :: second) before := by
  obtain ⟨start, ends, latest⟩ := last
  refine ⟨start.trans (List.prefix_append ..), ends, fun other otherStart otherEnds => ?_⟩
  rcases (endsWithHeader_append_iff ended).mp ⟨otherStart, otherEnds⟩ with
    ⟨inFirst, -⟩ | ⟨more, rfl, inSecond, moreEnds⟩
  · exact latest other inFirst otherEnds
  · exact absurd moreEnds (none more inSecond)

end

/-- The definition of a header is the same with more text in front. -/
theorem Definition.ofBlock_find_append (identity : Identity) (front before after : List Char) :
    Definition.ofBlock identity
        (.find (front ++ (before ++ after)) (byteSize (front ++ before))) =
      Definition.ofBlock identity (.find (before ++ after) (byteSize before)) := by
  have same : (⟨byteSize (front ++ before), after⟩ : Place).rest =
      (⟨byteSize before, after⟩ : Place).rest := rfl
  obtain ⟨text, closed⟩ := Block.following_of_rest_eq same
  rw [← List.append_assoc, Block.find_eq_following, Block.find_eq_following]
  simp only [Definition.ofBlock, text, closed]

/-- A block that is closed in a text is the same with more text behind. -/
theorem Block.find_append_of_closed {text before : List Char} (start : before <+: text)
    (closed : (find text (byteSize before)).closed = true) (later : List Char) :
    find (text ++ later) (byteSize before) = find text (byteSize before) := by
  obtain ⟨after, rfl⟩ := start
  rw [find_eq_following] at closed ⊢
  rw [List.append_assoc, find_eq_following, following_append_of_closed closed]

namespace Catalog

/-- The definitions of a text that stand outside classes. -/
def outside (text : String) : Catalog :=
  (ofText text).filter fun definition => definition.kind != .method

/-- A definition outside classes is what the last of some headers begins. -/
theorem get?_outside_eq_some_iff {text key : String} {definition : Definition} :
    (outside text).get? key = some definition ↔
      ∃ identity before, identity.IsTopLevel ∧ key = identity.key ∧
        LastHeader identity text.toList before ∧
          definition = .ofBlock identity (.find text.toList (byteSize before)) := by
  rw [outside, Table.get?_filter, Option.filter_eq_some_iff]
  constructor
  · rintro ⟨found, kind⟩
    obtain ⟨finding, member, same, rfl⟩ := exists_finding_of_get? found
    have topLevel := finding.isTopLevel_of_mem member (bne_iff_ne.mp kind)
    obtain ⟨before, last, made⟩ := (get?_ofText_eq_some_iff topLevel).mp (same ▸ found)
    exact ⟨finding.identity, before, topLevel, same.symm, last, made⟩
  · rintro ⟨identity, before, topLevel, rfl, last, rfl⟩
    refine ⟨(get?_ofText_eq_some_iff topLevel).mpr ⟨before, last, rfl⟩, ?_⟩
    exact bne_iff_ne.mpr topLevel.kind_ne

/-- A key of a function is in the catalog exactly if the text has a header that gives it. -/
theorem contains_outside_iff {text key : String} :
    (outside text).contains key = true ↔
      ∃ identity before, identity.IsTopLevel ∧ key = identity.key ∧
        before <+: text.toList ∧ EndsWithHeader identity before := by
  rw [Table.contains, Option.isSome_iff_exists]
  constructor
  · rintro ⟨definition, found⟩
    obtain ⟨identity, before, topLevel, same, last, -⟩ := get?_outside_eq_some_iff.mp found
    exact ⟨identity, before, topLevel, same, last.1, last.2.1⟩
  · rintro ⟨identity, before, topLevel, rfl, start, ends⟩
    have present := (contains_ofText_iff topLevel).mpr ⟨before, start, ends⟩
    obtain ⟨definition, found⟩ := Option.isSome_iff_exists.mp present
    obtain ⟨other, last, made⟩ := (get?_ofText_eq_some_iff topLevel).mp found
    exact ⟨definition, get?_outside_eq_some_iff.mpr ⟨identity, other, topLevel, rfl, last, made⟩⟩

section

variable {first : String} (ended : EndsStatement first.toList) (second : String)

include ended

theorem contains_outside_append {key : String} :
    (outside (first ++ "\n" ++ second)).contains key = true ↔
      (outside first).contains key = true ∨ (outside second).contains key = true := by
  have whole : (first ++ "\n" ++ second).toList = first.toList ++ '\n' :: second.toList := by
    simp [String.toList_append]
  simp only [contains_outside_iff, whole, endsWithHeader_append_iff ended]
  constructor
  · rintro ⟨identity, before, topLevel, same, ⟨start, ends⟩ | ⟨later, -, start, ends⟩⟩
    · exact .inl ⟨identity, before, topLevel, same, start, ends⟩
    · exact .inr ⟨identity, later, topLevel, same, start, ends⟩
  · rintro (⟨identity, before, topLevel, same, start, ends⟩ |
      ⟨identity, later, topLevel, same, start, ends⟩)
    · exact ⟨identity, before, topLevel, same, .inl ⟨start, ends⟩⟩
    · exact ⟨identity, _, topLevel, same, .inr ⟨later, rfl, start, ends⟩⟩

/-- The definitions of the second text are there. -/
theorem get?_outside_append_left {key : String} {definition : Definition}
    (found : (outside second).get? key = some definition) :
    (outside (first ++ "\n" ++ second)).get? key = some definition := by
  obtain ⟨identity, later, topLevel, rfl, last, rfl⟩ := get?_outside_eq_some_iff.mp found
  obtain ⟨after, split⟩ := last.1
  refine get?_outside_eq_some_iff.mpr
    ⟨identity, first.toList ++ '\n' :: later, topLevel, rfl, ?_, ?_⟩
  · simpa [String.toList_append] using last.append_left ended
  · have front := Definition.ofBlock_find_append identity (first.toList ++ ['\n']) later after
    rw [split] at front
    simpa [String.toList_append] using front.symm

/-- The definitions of the first text are there if they are closed and not defined again. -/
theorem get?_outside_append_right {key : String} {definition : Definition}
    (found : (outside first).get? key = some definition) (closed : definition.truncated = false)
    (absent : (outside second).contains key = false) :
    (outside (first ++ "\n" ++ second)).get? key = some definition := by
  obtain ⟨identity, before, topLevel, rfl, last, rfl⟩ := get?_outside_eq_some_iff.mp found
  have none (later : List Char) (start : later <+: second.toList) :
      ¬ EndsWithHeader identity later := by
    intro ends
    have present := contains_outside_iff.mpr ⟨identity, later, topLevel, rfl, start, ends⟩
    exact Bool.false_ne_true (absent.symm.trans present)
  refine get?_outside_eq_some_iff.mpr ⟨identity, before, topLevel, rfl, ?_, ?_⟩
  · simpa [String.toList_append] using last.append_right ended none
  · have closed : (Block.find first.toList (byteSize before)).closed = true := by
      simpa [Definition.ofBlock, Definition.ofBody] using closed
    have same := Block.find_append_of_closed last.1 closed ("\n" ++ second).toList
    rw [← String.toList_append, ← String.append_assoc] at same
    rw [same]

end

/-- If a text ends with a statement, the functions outside classes of that text and another one
after it are those of the two texts. Those of the second text are exactly as there, and so are those
of the first that are closed and that the second does not define again. -/
theorem outside_append (first second : String) (ended : EndsStatement first.toList) :
    (∀ key, (outside (first ++ "\n" ++ second)).contains key = true ↔
      (outside first).contains key = true ∨ (outside second).contains key = true) ∧
    (∀ key definition, (outside second).get? key = some definition →
      (outside (first ++ "\n" ++ second)).get? key = some definition) ∧
    ∀ key definition, (outside first).get? key = some definition →
      definition.truncated = false → (outside second).contains key = false →
        (outside (first ++ "\n" ++ second)).get? key = some definition :=
  ⟨fun _ => contains_outside_append ended second,
    fun _ _ found => get?_outside_append_left ended second found,
    fun _ _ found closed absent => get?_outside_append_right ended second found closed absent⟩

/-- A function that ends its text stays what it is when an unfinished one is added. -/
theorem outside_append_unfinished :
    EndsStatement "function f() \x7b\x7d".toList ∧
      ∃ definition, (outside "function f() \x7b\x7d").get? "function:f" = some definition ∧
        definition.truncated = false ∧
        (outside "o.m = function() \x7b").contains "function:f" = false ∧
        (outside "o.m = function() \x7b").contains "assign:o.m" = true ∧
        (outside ("function f() \x7b\x7d" ++ "\n" ++ "o.m = function() \x7b")).get? "function:f" =
          some definition := by
  have ended : EndsStatement "function f() \x7b\x7d".toList :=
    .inr ⟨"function f() \x7b".toList, '\x7d', [], rfl, .inl rfl, fun c member => by cases member⟩
  have found : (outside "function f() \x7b\x7d").get? "function:f" =
      some (.ofBody ⟨.function, none, "f"⟩ "function f(...)" "\x7b\x7d" false) := by decide +kernel
  have absent : (outside "o.m = function() \x7b").contains "function:f" = false := by
    decide +kernel
  refine ⟨ended, _, found, rfl, absent, by decide +kernel, ?_⟩
  exact (outside_append _ _ ended).2.2 _ _ found rfl absent

end Catalog

end ScriptDelta

import ScriptDelta.FilePair
import ScriptDelta.Proofs.Text.Fields
import ScriptDelta.Proofs.Text.Trimming

/-! # Texts that name a pair

A text names a pair if it has exactly two colons and none of the three parts between them is blank
(`parse_eq_ok_iff`). The colons are counted first: only of a text with two of them are the parts
looked at (`parse_eq_error_iff`).
-/

namespace ScriptDelta

/-- A text has one field more than it has separators. -/
theorem Text.length_fields (separator : Char) (text : String) :
    (fields separator text).length = text.toList.count separator + 1 := by
  have pieces (run : List Char) :
      (run.splitOnP (· == separator)).length = run.count separator + 1 := by
    induction run with
    | nil => rfl
    | cons c run ih =>
      rw [List.splitOnP_cons_eq_if_modifyHead, List.count_cons]
      split <;> simp [ih]
  rw [fields, List.length_map, pieces]

namespace FilePair

/-- The text is three parts with colons between them, which have none of their own and may have
blanks around what they are. -/
def HasParts (text old new tag : String) : Prop :=
  ∃ first second third : String, text = first ++ ":" ++ second ++ ":" ++ third ∧
    (':' ∉ first.toList ∧ ':' ∉ second.toList ∧ ':' ∉ third.toList) ∧
    Text.IsCore old.toList first.toList ∧ Text.IsCore new.toList second.toList ∧
    Text.IsCore tag.toList third.toList

/-- The text names the pair: it has three parts, and none of them is blank. -/
inductive Names (oldDir newDir : Path) (text : String) : FilePair → Prop
  | parts {old new tag : String} : HasParts text old new tag → old ≠ "" → new ≠ "" → tag ≠ "" →
      Names oldDir newDir text ⟨oldDir.join ⟨old⟩, newDir.join ⟨new⟩, tag⟩

/-- The text names no pair: it has not two colons, or it has, but a part is blank. -/
inductive Malformed (text : String) : Fault → Prop
  | partCount : text.toList.count ':' ≠ 2 → Malformed text .partCount
  | emptyPart {old new tag : String} : HasParts text old new tag →
      old = "" ∨ new = "" ∨ tag = "" → Malformed text .emptyPart

section parts

variable {text first second third old new tag : String}

theorem fields_eq_iff : Text.fields ':' text = [first, second, third] ↔
    text = first ++ ":" ++ second ++ ":" ++ third ∧
      (':' ∉ first.toList ∧ ':' ∉ second.toList ∧ ':' ∉ third.toList) := by
  have isMark : ":".toList = [':'] := rfl
  constructor
  · intro split
    have joined := Text.intercalate_fields isMark text
    have clean (part : String) (member : part ∈ [first, second, third]) : ':' ∉ part.toList :=
      Text.not_mem_of_mem_fields (split ▸ member)
    rw [split] at joined
    refine ⟨?_, clean first (by simp), clean second (by simp), clean third (by simp)⟩
    rw [← joined]
    simp [String.append_assoc]
  · rintro ⟨rfl, noFirst, noSecond, noThird⟩
    rw [Text.fields_append isMark, Text.fields_append isMark, Text.fields_of_not_mem noFirst,
      Text.fields_of_not_mem noSecond, Text.fields_of_not_mem noThird]
    rfl

theorem parts_eq (text : String) :
    parts text = (Text.fields ':' text).map fun part => String.ofList (Text.trim part.toList) := by
  simp [parts, Text.fields, Function.comp_def]

/-- A part is what is left of a field without the blanks around it. -/
theorem parts_eq_iff : parts text = [old, new, tag] ↔ HasParts text old new tag := by
  have core {field part : String} :
      String.ofList (Text.trim field.toList) = part ↔ Text.IsCore part.toList field.toList := by
    rw [← Text.trim_eq_iff, ← String.toList_inj, String.toList_ofList]
  rw [parts_eq]
  constructor
  · intro split
    have three : (Text.fields ':' text).length = 3 := by
      simpa using congrArg List.length split
    obtain ⟨first, second, third, isFields⟩ := List.length_eq_three.mp three
    rw [isFields] at split
    simp only [List.map_cons, List.map_nil, List.cons.injEq, and_true, core] at split
    obtain ⟨whole, clean⟩ := fields_eq_iff.mp isFields
    exact ⟨first, second, third, whole, clean, split⟩
  · rintro ⟨first, second, third, whole, clean, isOld, isNew, isTag⟩
    rw [fields_eq_iff.mpr ⟨whole, clean⟩]
    simp only [List.map_cons, List.map_nil, core.mpr isOld, core.mpr isNew, core.mpr isTag]

theorem exists_hasParts_iff :
    (∃ old new tag, HasParts text old new tag) ↔ text.toList.count ':' = 2 := by
  have length : (parts text).length = text.toList.count ':' + 1 := by
    rw [parts_eq, List.length_map, Text.length_fields]
  simp only [← parts_eq_iff, ← List.length_eq_three, length]
  omega

end parts

section parse

variable {oldDir newDir : Path} {text : String}

theorem parse_of_hasParts {old new tag : String} (has : HasParts text old new tag) :
    parse oldDir newDir text =
      if old = "" ∨ new = "" ∨ tag = "" then .error .emptyPart
      else .ok (within oldDir newDir old new tag) := by
  rw [parse, parts_eq_iff.mpr has]
  simp [or_assoc]

theorem parse_of_count_ne (other : text.toList.count ':' ≠ 2) :
    parse oldDir newDir text = .error .partCount := by
  rw [parse]
  split
  next split => exact absurd (exists_hasParts_iff.mp ⟨_, _, _, parts_eq_iff.mp split⟩) other
  next => rfl

theorem exists_hasParts_or_count_ne (text : String) :
    (∃ old new tag, HasParts text old new tag) ∨ text.toList.count ':' ≠ 2 := by
  rw [exists_hasParts_iff]
  exact Decidable.em _

theorem parse_eq_ok_iff {pair : FilePair} :
    parse oldDir newDir text = .ok pair ↔ Names oldDir newDir text pair := by
  constructor
  · intro success
    rcases exists_hasParts_or_count_ne text with ⟨old, new, tag, has⟩ | other
    · rw [parse_of_hasParts has] at success
      split at success
      · contradiction
      next occupied =>
        obtain rfl := Except.ok.inj success
        obtain ⟨isOld, isNew, isTag⟩ := by simpa only [not_or] using occupied
        exact .parts has isOld isNew isTag
    · rw [parse_of_count_ne other] at success
      contradiction
  · rintro ⟨has, isOld, isNew, isTag⟩
    rw [parse_of_hasParts has, if_neg (by simp [isOld, isNew, isTag])]
    rfl

theorem parse_eq_error_iff {fault : Fault} :
    parse oldDir newDir text = .error fault ↔ Malformed text fault := by
  constructor
  · intro failure
    rcases exists_hasParts_or_count_ne text with ⟨old, new, tag, has⟩ | other
    · rw [parse_of_hasParts has] at failure
      split at failure
      next blank =>
        obtain rfl := Except.error.inj failure
        exact .emptyPart has blank
      · contradiction
    · rw [parse_of_count_ne other] at failure
      obtain rfl := Except.error.inj failure
      exact .partCount other
  · rintro (other | ⟨has, blank⟩)
    · exact parse_of_count_ne other
    · rw [parse_of_hasParts has, if_pos blank]

end parse

end FilePair

end ScriptDelta

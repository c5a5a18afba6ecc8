import ScriptDelta.Edit.Annotated
import ScriptDelta.Proofs.Text.Line

/-! # Reading an annotated diff back

An annotated diff is cut into the same lines as were put together: each begins with its sign and has
a line end, and no line begins with the line feed that would belong to the line before. So the signs
tell which lines are from which text, and both texts can be read back, with their last lines ended.
Two equal texts have a script that keeps all lines, and compaction leaves it alone.
-/

namespace ScriptDelta.Edit

variable {α : Type}

theorem commonStart_self [DecidableEq α] (items : List α) :
    commonStart items items = (items, [], []) := by
  induction items with
  | nil => rfl
  | cons item items ih => simp [commonStart, ih]

/-- The shortest script between a list and itself keeps everything. -/
theorem shortest_self [DecidableEq α] (items : List α) :
    shortest items items = Script.single .keep items := by
  have parts : Overlap.ofLists items items = ⟨items, [], [], []⟩ := by
    simp [Overlap.ofLists, commonStart_self, commonEnd]
  rw [shortest, parts]
  simp [Script.single]

/-- A script without runs of the mark is left as it is. -/
theorem compactMark_of_forall_ne [DecidableEq α] {mark : Mark} {script : Script α}
    (absent : ∀ hunk ∈ script, hunk.mark ≠ mark) : compactMark mark script = script := by
  have passed (steps : Nat) (before after : Script α) (absent : ∀ hunk ∈ after, hunk.mark ≠ mark) :
      compactMark.go mark steps before after = (before.map Hunk.reverse).reverse ++ after := by
    induction after generalizing steps before with
    | nil => simp [compactMark.go]
    | cons focus after ih =>
      obtain ⟨other, absent⟩ := List.forall_mem_cons.mp absent
      cases steps with
      | zero => simp [compactMark.go]
      | succ steps => simp [compactMark.go, other, ih _ _ absent]
  exact passed _ [] script absent

theorem compact_single_keep [DecidableEq α] (items : List α) :
    compact (Script.single .keep items) = Script.single .keep items := by
  have kept (mark : Mark) (other : mark ≠ .keep) : ∀ hunk ∈ Script.single .keep items,
      hunk.mark ≠ mark := by
    intro hunk member
    rw [Script.single] at member
    split at member
    · contradiction
    · obtain rfl := List.mem_singleton.mp member
      exact other.symm
  rw [compact, compactMark_of_forall_ne (kept .delete (by decide)),
    compactMark_of_forall_ne (kept .insert (by decide))]

/-- Between a text and itself all lines are kept. -/
theorem lineScript_self (text : List Char) :
    lineScript text text = Script.single .keep (Text.lines text) := by
  rw [lineScript, shortest_self, compact_single_keep]

theorem marked_single_keep (items : List α) :
    (Script.single .keep items).marked = items.map (Prod.mk .keep) := by
  cases items <;> simp [Script.single, Script.marked, Script.marked.go, Script.marked.flush]

/-- An item with a mark is from the list on one of the sides. -/
theorem mem_side_of_mem_marked {script : Script α} {mark : Mark} {item : α}
    (member : (mark, item) ∈ script.marked) :
    item ∈ script.oldSide ∨ item ∈ script.newSide := by
  by_cases inserted : mark = .insert
  · right
    rw [← Script.new_marked, List.mem_filterMap]
    exact ⟨_, member, by simp [inserted]⟩
  · left
    rw [← Script.old_marked, List.mem_filterMap]
    exact ⟨_, member, by simp [inserted]⟩

/-- A line with its sign in front and a line end. -/
def signed (marked : Mark × List Char) : List Char :=
  marked.1.sign :: Text.ended marked.2

theorem sign_ne_feed (mark : Mark) : mark.sign ≠ '\n' := by
  cases mark <;> decide

theorem sign_ne_carriage (mark : Mark) : mark.sign ≠ '\r' := by
  cases mark <;> decide

/-- Lines with signs are cut where they were put together, in front of a text that does not begin
with a line feed. -/
theorem lines_flatMap_signed {marked : List (Mark × List Char)}
    (ended : ∀ entry ∈ marked, Text.EndedLine (Text.ended entry.2)) {rest : List Char}
    (clear : rest.head? ≠ some '\n') :
    Text.lines (marked.flatMap signed ++ rest) = marked.map signed ++ Text.lines rest := by
  induction marked with
  | nil => rfl
  | cons entry later ih =>
    obtain ⟨isEnded, ended⟩ := List.forall_mem_cons.mp ended
    have line : Text.EndedLine (signed entry) :=
      isEnded.cons (sign_ne_feed entry.1) (sign_ne_carriage entry.1)
    have next : (later.flatMap signed ++ rest).head? ≠ some '\n' := by
      cases later with
      | nil => exact clear
      | cons next later => simp [signed, sign_ne_feed]
    rw [List.flatMap_cons, List.map_cons, List.append_assoc, Text.lines_append line next, ih ended,
      List.cons_append]

/-- Every line of the script between two texts is given a line end. -/
theorem endedLine_of_mem {old new : List Char} {entry : Mark × List Char}
    (member : entry ∈ (lineScript old new).marked) : Text.EndedLine (Text.ended entry.2) := by
  have between := between_lineScript old new
  obtain fromOld | fromNew := mem_side_of_mem_marked member
  · rw [between.1] at fromOld
    exact (Text.cut_lines _).endedLine fromOld
  · rw [between.2] at fromNew
    exact (Text.cut_lines _).endedLine fromNew

theorem toList_annotate (old new : String) :
    (annotate old new).toList = (lineScript old.toList new.toList).marked.flatMap signed := by
  rw [annotate, String.toList_ofList]
  rfl

/-- The lines of an annotated diff are the lines of the script with their signs. -/
theorem lines_annotate (old new : String) : Text.lines (annotate old new).toList =
    (lineScript old.toList new.toList).marked.map signed := by
  have whole : Text.lines ((lineScript old.toList new.toList).marked.flatMap signed ++ []) = _ :=
    lines_flatMap_signed (fun _ member => endedLine_of_mem member) (by simp)
  rw [List.append_nil] at whole
  rw [toList_annotate, whole]
  exact List.append_nil _

/-- The line begins with one of the signs. -/
def beginsWith (signs : List Char) (line : List Char) : Bool :=
  line.head?.any signs.contains

/-- The lines of a text that begin with one of the signs, one after the other without the sign. -/
def readBack (signs : List Char) (text : List Char) : List Char :=
  ((Text.lines text).filter (beginsWith signs)).flatMap List.tail

/-- The lines with all marks but one are read back as the items with these marks. -/
theorem readBack_annotate (old new : String) {signs : List Char} (dropped : Mark)
    (chosen : ∀ mark : Mark, signs.contains mark.sign = !decide (mark = dropped)) :
    readBack signs (annotate old new).toList =
      ((lineScript old.toList new.toList).marked.filterMap fun (mark, line) =>
        if mark = dropped then none else some line).flatMap Text.ended := by
  rw [readBack, lines_annotate]
  generalize (lineScript old.toList new.toList).marked = marked
  induction marked with
  | nil => rfl
  | cons entry rest ih =>
    have begins : beginsWith signs (signed entry) = !decide (entry.1 = dropped) := chosen entry.1
    rw [List.map_cons, List.filter_cons, List.filterMap_cons, begins]
    by_cases isDropped : entry.1 = dropped
    · simpa [isDropped] using ih
    · simpa [isDropped, signed] using ih

theorem readBack_old (old new : String) :
    readBack [' ', '-'] (annotate old new).toList = Text.finished old.toList := by
  rw [readBack_annotate old new .insert (by rintro (_ | _ | _) <;> decide),
    Script.old_marked, (between_lineScript ..).1, Text.flatMap_ended_lines]

theorem readBack_new (old new : String) :
    readBack [' ', '+'] (annotate old new).toList = Text.finished new.toList := by
  rw [readBack_annotate old new .delete (by rintro (_ | _ | _) <;> decide),
    Script.new_marked, (between_lineScript ..).2, Text.flatMap_ended_lines]

/-- A script that keeps everything has the same list on both sides. -/
theorem oldSide_eq_newSide {script : Script α}
    (kept : ∀ entry ∈ script.marked, entry.1 = .keep) : script.oldSide = script.newSide := by
  rw [← Script.old_marked, ← Script.new_marked]
  apply List.filterMap_congr
  rintro ⟨mark, item⟩ member
  obtain rfl : mark = .keep := kept _ member
  rfl

/-- The script between two texts keeps all lines exactly if the texts are equal. -/
theorem forall_keep_iff {old new : List Char} :
    (∀ entry ∈ (lineScript old new).marked, entry.1 = .keep) ↔ old = new := by
  constructor
  · intro kept
    have same := oldSide_eq_newSide kept
    rw [(between_lineScript old new).1, (between_lineScript old new).2] at same
    exact Text.lines_injective same
  · rintro rfl entry member
    rw [lineScript_self, marked_single_keep] at member
    obtain ⟨line, -, rfl⟩ := List.mem_map.mp member
    rfl

/-- An annotated diff is an edit script in both directions: cut into lines, each begins with a
space, a hyphen or a plus sign, the lines without a plus sign are the old text, those without a
hyphen are the new one, each with its last line ended, and there are only lines with a space exactly
if the texts are equal. -/
theorem annotate_reads_back (old new : String) :
    (∀ line ∈ Text.lines (annotate old new).toList, beginsWith [' ', '-', '+'] line = true) ∧
      readBack [' ', '-'] (annotate old new).toList = Text.finished old.toList ∧
      readBack [' ', '+'] (annotate old new).toList = Text.finished new.toList ∧
      ((∀ line ∈ Text.lines (annotate old new).toList, beginsWith ['-', '+'] line = false) ↔
        old = new) := by
  refine ⟨?_, readBack_old old new, readBack_new old new, ?_⟩
  · rw [lines_annotate, List.forall_mem_map]
    intro entry _
    have all (mark : Mark) : [' ', '-', '+'].contains mark.sign = true := by
      cases mark <;> decide
    exact all entry.1
  · have kept (mark : Mark) : ['-', '+'].contains mark.sign = false ↔ mark = .keep := by
      cases mark <;> decide
    rw [lines_annotate, List.forall_mem_map, ← String.toList_inj, ← forall_keep_iff]
    apply forall₂_congr
    intro entry _
    exact kept entry.1

end ScriptDelta.Edit

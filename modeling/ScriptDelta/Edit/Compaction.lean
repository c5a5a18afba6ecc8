import ScriptDelta.Edit.Overlap
import ScriptDelta.Edit.Script

/-! # Compaction of scripts

A script often has several runs of one mark where one would do. Compaction takes the runs of a mark
in turn and moves each as far up as it goes and then as far down as it goes. On the way a run joins
others of its mark and passes those of the opposite mark; an insertion passes kept items that agree
with its own last, or first, items, which changes what is shown as inserted and not what results.
Deletions do not pass kept items. None of this changes what the script starts from or arrives at
(`between_compact`).
-/

namespace ScriptDelta.Edit

variable {α : Type}

/-- The size of a script: its items, and one for each run. -/
def Script.weight (script : Script α) : Nat :=
  script.foldr (fun hunk weight => hunk.items.length + 1 + weight) 0

/-- The run from its last item to its first. -/
def Hunk.reverse (hunk : Hunk α) : Hunk α :=
  { hunk with items := hunk.items.reverse }

/-- Adds kept items in front of a script. -/
def Script.keepBefore (items : List α) : Script α → Script α
  | ⟨.keep, kept⟩ :: rest => ⟨.keep, items ++ kept⟩ :: rest
  | script => ⟨.keep, items⟩ :: script

@[simp] theorem Hunk.reverse_reverse (hunk : Hunk α) : hunk.reverse.reverse = hunk := by
  simp [Hunk.reverse]

/-- A script seen from one of its runs. The runs on either side are listed from the nearest on; on
the side before, each of them is listed from its last item on. -/
structure Cursor (α : Type) where
  before : Script α
  focus : Hunk α
  after : Script α

namespace Cursor

/-- The script that is seen. -/
def script (cursor : Cursor α) : Script α :=
  (cursor.before.map Hunk.reverse).reverse ++ cursor.focus :: cursor.after

/-- The script from the end to the beginning, seen from the same run. -/
def flip (cursor : Cursor α) : Cursor α :=
  ⟨cursor.after, cursor.focus.reverse, cursor.before⟩

variable [DecidableEq α]

/-- Moves the run in focus down as far as it goes. -/
def down (cursor : Cursor α) : Cursor α :=
  match cursor with
  | ⟨_, _, []⟩ => cursor
  | ⟨before, focus, below :: after⟩ =>
    if below.mark = focus.mark then
      down ⟨before, ⟨focus.mark, focus.items ++ below.items⟩, after⟩
    else
      match below.mark, focus.mark with
      | .keep, .insert =>
        let parts := commonStart below.items focus.items
        if parts.1.isEmpty then cursor
        else
          down ⟨Script.keepBefore parts.1.reverse before, ⟨.insert, parts.2.2 ++ parts.1⟩,
            Script.single .keep parts.2.1 ++ after⟩
      | .insert, .delete | .delete, .insert => down ⟨below.reverse :: before, focus, after⟩
      | _, _ => cursor
termination_by cursor.after.weight
decreasing_by
  · simp only [Script.weight, List.foldr_cons]
    omega
  · have apart := congrArg List.length (commonStart_append below.items focus.items).1
    have shared : 0 < (commonStart below.items focus.items).1.length :=
      List.length_pos_iff.mpr (by simpa [parts] using ‹¬parts.1.isEmpty = true›)
    simp only [List.length_append] at apart
    simp only [Script.weight, Script.single]
    split
    · simp
    · simp
      omega
  all_goals
    simp only [Script.weight, List.foldr_cons]
    omega

/-- Moves the run in focus up as far as it goes. -/
def up (cursor : Cursor α) : Cursor α :=
  cursor.flip.down.flip

end Cursor

/-- Kept items in front of a script are in front of its old side. -/
theorem oldSide_keepBefore (items : List α) (script : Script α) :
    (script.keepBefore items).oldSide = items ++ script.oldSide := by
  unfold Script.keepBefore
  split <;> simp [Hunk.oldSide]

/-- Kept items in front of a script are in front of its new side. -/
theorem newSide_keepBefore (items : List α) (script : Script α) :
    (script.keepBefore items).newSide = items ++ script.newSide := by
  unfold Script.keepBefore
  split <;> simp [Hunk.newSide]

theorem oldSide_reverse (script : Script α) :
    Script.oldSide (script.map Hunk.reverse).reverse = script.oldSide.reverse := by
  induction script with
  | nil => rfl
  | cons hunk script ih => by_cases inserted : hunk.mark = .insert <;>
      simp [ih, Hunk.oldSide, Hunk.reverse, inserted]

theorem newSide_reverse (script : Script α) :
    Script.newSide (script.map Hunk.reverse).reverse = script.newSide.reverse := by
  induction script with
  | nil => rfl
  | cons hunk script ih => by_cases deleted : hunk.mark = .delete <;>
      simp [ih, Hunk.newSide, Hunk.reverse, deleted]

namespace Cursor

/-- Moving down changes neither side of the script. -/
theorem between_down [DecidableEq α] (cursor : Cursor α) :
    cursor.down.script.Between cursor.script.oldSide cursor.script.newSide := by
  fun_induction down cursor with
  | case1 | case3 | case7 => exact ⟨rfl, rfl⟩
  | case2 before focus below after same ih =>
    refine ⟨ih.1.trans ?_, ih.2.trans ?_⟩
    · by_cases inserted : focus.mark = .insert <;> simp [script, Hunk.oldSide, same, inserted]
    · by_cases deleted : focus.mark = .delete <;> simp [script, Hunk.newSide, same, deleted]
  | case4 before focus below after _ keep insert parts _ ih =>
    obtain ⟨belowItems, focusItems⟩ := commonStart_append below.items focus.items
    have belowApart : parts.1 ++ parts.2.1 = below.items := belowItems
    have focusApart : parts.1 ++ parts.2.2 = focus.items := focusItems
    refine ⟨ih.1.trans ?_, ih.2.trans ?_⟩
    · simp [script, oldSide_reverse, Hunk.oldSide, oldSide_keepBefore, keep, insert, ← belowApart]
    · simp [script, newSide_reverse, Hunk.newSide, newSide_keepBefore, keep, insert, ← belowApart,
        ← focusApart]
  | case5 before focus below after _ mark focusMark ih
  | case6 before focus below after _ mark focusMark ih =>
    refine ⟨ih.1.trans ?_, ih.2.trans ?_⟩
    · simp [script, Hunk.oldSide, mark, focusMark]
    · simp [script, Hunk.newSide, mark, focusMark]

/-- Seen from the other end, both sides of the script are reversed. -/
theorem between_flip (cursor : Cursor α) :
    cursor.flip.script.Between cursor.script.oldSide.reverse cursor.script.newSide.reverse := by
  have turned : cursor.flip.script = (cursor.script.map Hunk.reverse).reverse := by
    simp [flip, script, List.map_reverse, Function.comp_def]
  rw [turned]
  exact ⟨oldSide_reverse _, newSide_reverse _⟩

/-- Moving up changes neither side of the script. -/
theorem between_up [DecidableEq α] (cursor : Cursor α) :
    cursor.up.script.Between cursor.script.oldSide cursor.script.newSide := by
  obtain ⟨downOld, downNew⟩ := between_down cursor.flip
  obtain ⟨flipOld, flipNew⟩ := between_flip cursor
  obtain ⟨upOld, upNew⟩ := between_flip cursor.flip.down
  rw [downOld, flipOld, List.reverse_reverse] at upOld
  rw [downNew, flipNew, List.reverse_reverse] at upNew
  exact ⟨upOld, upNew⟩

end Cursor

/-- Moves every run of a mark up and then down. The steps bound the number of runs taken; each run
of the mark is joined to another or leaves less of the script below it. -/
def compactMark [DecidableEq α] (mark : Mark) (script : Script α) : Script α :=
  go ((script.length + 1) * (script.weight + 1)) [] script
where
  go (steps : Nat) (before : Script α) (after : Script α) : Script α :=
    match steps, after with
    | _, [] => (before.map Hunk.reverse).reverse
    | 0, after => (before.map Hunk.reverse).reverse ++ after
    | steps + 1, focus :: after =>
      let cursor : Cursor α := ⟨before, focus, after⟩
      let settled := if focus.mark = mark then cursor.up.down else cursor
      go steps (settled.focus.reverse :: settled.before) settled.after

/-- Moving the runs of a mark changes neither side of a script. -/
theorem between_compactMark [DecidableEq α] (mark : Mark) (script : Script α) :
    (compactMark mark script).Between script.oldSide script.newSide := by
  have moved (steps : Nat) (before after : Script α) :
      Script.Between (compactMark.go mark steps before after)
        (Script.oldSide ((before.map Hunk.reverse).reverse ++ after))
        (Script.newSide ((before.map Hunk.reverse).reverse ++ after)) := by
    fun_induction compactMark.go mark steps before after with
    | case1 => simp [Script.Between]
    | case2 => exact ⟨rfl, rfl⟩
    | case3 before steps focus after cursor settled ih =>
      have same : settled.script.Between cursor.script.oldSide cursor.script.newSide := by
        by_cases chosen : focus.mark = mark
        · obtain ⟨upOld, upNew⟩ := cursor.between_up
          obtain ⟨downOld, downNew⟩ := cursor.up.between_down
          simpa only [settled, chosen, if_true] using
            ⟨downOld.trans upOld, downNew.trans upNew⟩
        · simp [settled, chosen, Script.Between]
      have seen : ((settled.focus.reverse :: settled.before).map Hunk.reverse).reverse ++
          settled.after = settled.script := by
        simp [Cursor.script]
      rw [seen] at ih
      exact ⟨ih.1.trans same.1, ih.2.trans same.2⟩
  exact moved _ [] script

/-- Compacts the deletions and then the insertions. -/
def compact [DecidableEq α] (script : Script α) : Script α :=
  compactMark .insert (compactMark .delete script)

/-- Compaction changes neither side of a script. -/
theorem between_compact [DecidableEq α] {script : Script α} {old new : List α}
    (between : script.Between old new) : (compact script).Between old new := by
  obtain ⟨rfl, rfl⟩ := between
  obtain ⟨deletedOld, deletedNew⟩ := between_compactMark .delete script
  obtain ⟨insertedOld, insertedNew⟩ := between_compactMark .insert (compactMark .delete script)
  exact ⟨insertedOld.trans deletedOld, insertedNew.trans deletedNew⟩

end ScriptDelta.Edit

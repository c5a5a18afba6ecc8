import ScriptDelta.Proofs.Catalog.Names
import ScriptDelta.Proofs.Comparison.Definitions
import ScriptDelta.Proofs.Edit.Trimmed
import ScriptDelta.Proofs.Report.Fences
import ScriptDelta.Report.Brief

/-! # What a change list tells

A change list with line diffs is read back as the keys of its entries and the diff of each, whatever
the bodies hold (`changes_read_back`). A key has no line feed, so its entry is one line. Every line
of a diff begins with the sign of a mark, which no back quote is; so it closes no fence, and what
looks like an entry in a body stands within the fence. Bodies of different digests are different, so
their diff has a line with another sign than a blank, which is left when blanks are cut off at the
end.
-/

namespace ScriptDelta

namespace Report

/-- What stands in a brief after the heading of the changed definitions. -/
def changes (revision : Revision) (detail : Detail) : String :=
  "\n".intercalate ((revision.changed.take detail.maxListed).flatMap (changedEntry detail) ++
    more revision.changed.length detail.maxListed ++ [""])

/-- The line diff of two bodies without the blanks at its end. -/
def bodyDiff (old new : Definition) : String :=
  String.ofList (Text.trimEnd (Edit.annotate old.body new.body).toList)

theorem intercalate_sectionOf_changed {front : List String} (solid : front ≠ [])
    {revision : Revision} (detail : Detail) (nonempty : revision.changed ≠ []) :
    "\n".intercalate (front ++
      sectionOf "Changed" revision.changed detail.maxListed (changedEntry detail)) =
    "\n".intercalate front ++ "\n## Changed\n\n" ++ changes revision detail := by
  have lines : sectionOf "Changed" revision.changed detail.maxListed (changedEntry detail) =
      ["## Changed\n"] ++ ((revision.changed.take detail.maxListed).flatMap (changedEntry detail) ++
        more revision.changed.length detail.maxListed ++ [""]) := by
    have heading : "## " ++ "Changed" ++ "\n" = "## Changed\n" := rfl
    rw [sectionOf, if_neg (by simpa using nonempty), heading]
    simp only [List.append_assoc]
  have joined : "\n## Changed\n\n" = "\n" ++ "## Changed\n" ++ "\n" := rfl
  rw [lines, String.intercalate_append_of_ne_nil solid (by simp),
    String.intercalate_append_of_ne_nil (by simp) (by simp), String.intercalate_singleton,
    ← changes, joined]
  simp only [String.append_assoc]

/-- A brief of a revision with changed definitions ends with the list of them. -/
theorem exists_brief_eq (pair : FilePair) {revision : Revision} (detail : Detail)
    (nonempty : revision.changed ≠ []) : ∃ earlier,
      brief pair revision detail = earlier ++ "\n## Changed\n\n" ++ changes revision detail := by
  rw [brief, briefLines]
  exact ⟨_, intercalate_sectionOf_changed (by simp) detail nonempty⟩

theorem closing_not_mem_fields (old new : Definition) :
    closing ∉ Text.fields '\n' (bodyDiff old new) := by
  intro member
  have isFront : (bodyDiff old new).toList <+: (Edit.annotate old.body new.body).toList := by
    rw [bodyDiff, String.toList_ofList]
    exact Text.trimEnd_prefix _
  obtain empty | ⟨mark, sign⟩ := Edit.head_of_mem_fields isFront member
  · exact absurd empty (by decide)
  · cases mark <;> exact absurd sign (by decide)

/-- The lines of an entry with a line diff are its own and those of the diff. -/
theorem fields_changedEntry (maxListed : Nat) {old : Definition} (noFeed : '\n' ∉ old.key.toList)
    (new : Definition) : (changedEntry ⟨maxListed, true⟩ (old, new)).flatMap (Text.fields '\n') =
      ["- `" ++ old.key ++ "`", "", opening] ++ Text.fields '\n' (bodyDiff old new) ++ [closing] ++
        [""] := by
  have entry : Text.fields '\n' ("- `" ++ old.key ++ "`") = ["- `" ++ old.key ++ "`"] :=
    Text.fields_of_not_mem (by simp [String.toList_append, noFeed])
  have blank : Text.fields '\n' "" = [""] := Text.fields_of_not_mem (by decide)
  have opens : Text.fields '\n' opening = [opening] := Text.fields_of_not_mem (by decide)
  have closes : Text.fields '\n' closing = [closing] := Text.fields_of_not_mem (by decide)
  have lines : changedEntry ⟨maxListed, true⟩ (old, new) =
      ["- `" ++ old.key ++ "`", "", opening, bodyDiff old new, closing, ""] := rfl
  rw [lines]
  simp [entry, blank, opens, closes]

theorem feed_not_mem_toDigits (n : Nat) : '\n' ∉ Nat.toDigits 10 n := by
  intro member
  have digit := Nat.isDigit_of_mem_toDigits (by decide) (by decide) member
  exact absurd digit (by decide)

/-- What stands behind the entries is empty, or the line for those that are left out. -/
theorem eq_of_mem_more {count limit : Nat} {line : String}
    (member : line ∈ more count limit ++ [""]) :
    line = "" ∨ line = "- … (+" ++ toString (count - limit) ++ " more)" := by
  rw [more] at member
  split at member
  · simpa [or_comm] using member
  · exact .inl (by simpa using member)

theorem items?_more (count limit : Nat) :
    items? ((more count limit ++ [""]).flatMap (Text.fields '\n')) = some [] := by
  have whole : ∀ line ∈ more count limit ++ [""], Text.fields '\n' line = [line] := by
    intro line member
    apply Text.fields_of_not_mem
    obtain rfl | rfl := eq_of_mem_more member
    · decide
    · simp [String.toList_append, feed_not_mem_toDigits]
  have plain : ∀ line ∈ more count limit ++ [""], line ≠ opening ∧ entryKey? line = none := by
    intro line member
    obtain rfl | rfl := eq_of_mem_more member
    · decide
    · simp [opening, entryKey?, ← String.toList_inj, String.toList_append]
  have same : (more count limit ++ [""]).flatMap (Text.fields '\n') = more count limit ++ [""] := by
    rw [List.flatMap_congr whole, List.flatMap_singleton']
  rw [same, ← List.append_nil (more count limit ++ [""]), items?_of_forall plain]
  rfl

/-- The entries tell their keys and line diffs, in their order. -/
theorem items?_entries (maxListed : Nat) {shown : List (Definition × Definition)}
    (noFeed : ∀ both ∈ shown, '\n' ∉ both.1.key.toList) (rest : List String) :
    items? ((shown.flatMap (changedEntry ⟨maxListed, true⟩)).flatMap (Text.fields '\n') ++ rest) =
      (items? rest).map (shown.flatMap (fun (old, new) =>
        [.entry old.key, .fence (bodyDiff old new)]) ++ ·) := by
  induction shown with
  | nil => simp
  | cons both shown ih =>
    obtain ⟨old, new⟩ := both
    obtain ⟨here, further⟩ := List.forall_mem_cons.mp noFeed
    have blank : ∀ line ∈ [""], line ≠ opening ∧ entryKey? line = none := by decide
    rw [List.flatMap_cons, List.flatMap_append, fields_changedEntry maxListed here,
      List.append_assoc, List.append_assoc _ [""], items?_entry _ (closing_not_mem_fields old new),
      items?_of_forall blank, ih further, Text.intercalate_fields rfl, Option.map_map]
    rfl

end Report

section changed

variable {oldText newText : String} {old new : Definition}
  (member : (old, new) ∈ (Revision.mk (.ofText oldText) (.ofText newText)).changed)

include member

theorem get?_of_mem_changed : (Catalog.ofText oldText).get? old.key = some old ∧
    (Catalog.ofText newText).get? old.key = some new ∧ old.digest ≠ new.digest := by
  have both := Revision.of_mem_changed _ member
  dsimp only at both
  exact both

theorem feed_not_mem_key_of_mem_changed : '\n' ∉ old.key.toList :=
  Catalog.feed_not_mem_key (get?_of_mem_changed member).1

/-- Definitions of different digests have different bodies. -/
theorem body_ne_of_mem_changed : old.body ≠ new.body := by
  obtain ⟨isOld, isNew, digests⟩ := get?_of_mem_changed member
  intro same
  apply digests
  rw [Catalog.digest_of_get? isOld, Catalog.digest_of_get? isNew, same]

/-- The line diff of a changed definition has a line that is not common to both bodies. -/
theorem exists_change_of_mem_changed : ∃ line ∈ Text.lines (Report.bodyDiff old new).toList,
    Edit.beginsWith ['-', '+'] line = true := by
  rw [Report.bodyDiff, String.toList_ofList]
  exact Edit.exists_change_of_trimEnd (body_ne_of_mem_changed member)

end changed

open Report

/-- A list of changes with line diffs is read back as the entries up to the limit, in the order of
the keys, each with the line diff of its two bodies, in which some line is not common to both. -/
theorem changes_read_back (oldText newText : String) (pair : FilePair) (maxListed : Nat) :
    let revision : Revision := ⟨.ofText oldText, .ofText newText⟩
    let detail : Detail := ⟨maxListed, true⟩
    let shown := revision.changed.take maxListed
    (revision.changed ≠ [] → ∃ earlier,
      brief pair revision detail = earlier ++ "\n## Changed\n\n" ++ changes revision detail) ∧
    items? (Text.fields '\n' (changes revision detail)) =
      some (shown.flatMap fun (old, new) => [.entry old.key, .fence (bodyDiff old new)]) ∧
    shown.map (·.1.key) = revision.comparison.changed.take maxListed ∧
    ∀ old new, (old, new) ∈ shown → revision.old.get? old.key = some old ∧
      revision.new.get? old.key = some new ∧ bodyDiff old new ≠ "" ∧
      ∃ line ∈ Text.lines (bodyDiff old new).toList, Edit.beginsWith ['-', '+'] line = true := by
  intro revision detail shown
  refine ⟨exists_brief_eq pair detail, ?_, ?_, ?_⟩
  · have noFeed : ∀ both ∈ shown, '\n' ∉ both.1.key.toList := fun both member =>
      feed_not_mem_key_of_mem_changed (List.mem_of_mem_take member)
    rw [changes, Text.fields_intercalate rfl (by simp), List.append_assoc, List.flatMap_append,
      items?_entries maxListed noFeed, items?_more, Option.map_some, List.append_nil]
  · rw [List.map_take, revision.map_key_changed]
  · intro old new member
    have isChanged := List.mem_of_mem_take member
    obtain ⟨isOld, isNew, -⟩ := get?_of_mem_changed isChanged
    obtain ⟨line, isLine, change⟩ := exists_change_of_mem_changed isChanged
    refine ⟨isOld, isNew, ?_, line, isLine, change⟩
    intro empty
    have nothing : Text.lines "".toList = [] := rfl
    rw [empty, nothing] at isLine
    exact List.not_mem_nil isLine

end ScriptDelta

import ScriptDelta.Proofs.Report.Outline

/-! # What a brief accounts for

The definitions that are added, removed and changed are as many as are counted, and a brief counts
them at its top and lists each sort in a section, up to the limit and with the number of those left
out (`briefs_account`). Its lines are read as they are put together, or cut at every line feed of
the text (`Cuts`); for the latter keys and signatures have to stand on one line, as those of texts
do (`legible_ofText`). The line diffs between the entries tell nothing, whatever the bodies hold.
-/

namespace ScriptDelta

namespace Report

/-- The mark of a body that is cut off. -/
def cutMark : String :=
  " (truncated)"

/-- The line that lists a definition, without a mark. -/
def mention (definition : Definition) : String :=
  "- `" ++ definition.key ++ "` — " ++ definition.signature

/-- The line that lists a definition. -/
def listedLine (definition : Definition) : String :=
  mention definition ++ if definition.truncated then cutMark else ""

/-- The line that lists a changed definition. -/
def changedLine (both : Definition × Definition) : String :=
  "- `" ++ both.1.key ++ "`"

/-- The first line of a brief. -/
def titleLine (pair : FilePair) : String :=
  "# " ++ pair.tag ++ ": " ++ pair.old.fileName ++ " ↔ " ++ pair.new.fileName ++ "\n"

/-- The lines of a brief after the first one. -/
def account (revision : Revision) (detail : Detail) : List String :=
  let tally := revision.tally
  [countLine "Added in new" tally.added, countLine "Removed from old" tally.removed,
    countLine "Changed" tally.changed ++ "\n"] ++
  sectionOf "Added in new" revision.added detail.maxListed listed ++
  sectionOf "Removed from old" revision.removed detail.maxListed listed ++
  sectionOf "Changed" revision.changed detail.maxListed (changedEntry detail)

theorem briefLines_eq (pair : FilePair) (revision : Revision) (detail : Detail) :
    briefLines pair revision detail = titleLine pair :: account revision detail := by
  have counts : ∀ number : Nat,
      countLine "Added in new" number = "- Added in new: **" ++ toString number ++ "**" ∧
      countLine "Removed from old" number = "- Removed from old: **" ++ toString number ++ "**" ∧
      countLine "Changed" number ++ "\n" = "- Changed: **" ++ toString number ++ "**\n" := by
    intro number
    refine ⟨rfl, rfl, ?_⟩
    have ending : "**" ++ "\n" = "**\n" := rfl
    rw [countLine, String.append_assoc, ending]
    rfl
  rw [briefLines, account, (counts _).1, (counts _).2.1, (counts _).2.2]
  rfl

/-- What the lines of a brief tell that lists some entries of each sort. -/
def outline (added removed changed : List String) (limit : Nat) : List Telling :=
  [.count "Added in new" added.length, .count "Removed from old" removed.length,
    .count "Changed" changed.length] ++ sectionTold "Added in new" added limit ++
  sectionTold "Removed from old" removed limit ++ sectionTold "Changed" changed limit

/-- Each of the three sections lists the entries of its sort. -/
theorem lists_outline (added removed changed : List String) (limit : Nat) :
    Lists (outline added removed changed limit) "Added in new" added added.length limit ∧
    Lists (outline added removed changed limit) "Removed from old" removed removed.length limit ∧
    Lists (outline added removed changed limit) "Changed" changed changed.length limit := by
  refine ⟨?_, ?_, ?_⟩
  · rw [outline, List.append_assoc]
    apply lists_of_section
    · simp [heading_not_mem_sectionTold]
    · exact head?_sectionTold_append head?_sectionTold
    · simp [count_not_mem_sectionTold]
  · rw [outline]
    apply lists_of_section
    · simp [heading_not_mem_sectionTold]
    · exact head?_sectionTold
    · simp [count_not_mem_sectionTold]
  · rw [outline, ← List.append_nil (_ ++ sectionTold "Changed" _ _)]
    apply lists_of_section
    · simp [heading_not_mem_sectionTold]
    · rfl
    · simp [count_not_mem_sectionTold]

/-- A way to cut lines further: whole lines are left as they are, a line feed at the end of a line
may make an empty line, and no part of a line diff closes the fence around it. -/
structure Cuts (cut : String → List String) (Whole : String → Prop) : Prop where
  whole : ∀ {line}, Whole line → cut line = [line]
  plain : ∀ {line : String}, '\n' ∉ line.toList → Whole line
  ended : ∀ {line : String}, '\n' ∉ line.toList →
    cut (line ++ "\n") = [line ++ "\n"] ∨ cut (line ++ "\n") = [line, ""]
  inside : ∀ old new, closing ∉ cut (bodyDiff old new)

/-- Lines may be left as they are. -/
theorem cuts_none : Cuts (fun line => [line]) (fun _ => True) where
  whole _ := rfl
  plain _ := trivial
  ended _ := .inl rfl
  inside old new := by
    intro member
    have isDiff := List.mem_singleton.mp member
    have absent := closing_not_mem_fields old new
    rw [← isDiff] at absent
    exact absent (by decide)

/-- Lines may be cut at their line feeds. -/
theorem cuts_fields : Cuts (Text.fields '\n') (fun line => '\n' ∉ line.toList) where
  whole := Text.fields_of_not_mem
  plain noFeed := noFeed
  ended {line} noFeed := by
    have isMark : "\n".toList = ['\n'] := rfl
    have parts := Text.fields_append isMark line ""
    rw [String.append_empty, Text.fields_of_not_mem noFeed] at parts
    exact .inr parts
  inside := closing_not_mem_fields

namespace Cuts

variable {cut : String → List String} {Whole : String → Prop} (cuts : Cuts cut Whole)

include cuts

theorem tells_line {line : String} {telling : Telling} (whole : Whole line)
    (told : telling? line = some telling) : Tells (cut line) [telling] := by
  rw [cuts.whole whole]
  exact .line told

theorem tells_blank : Tells (cut "") [] := by
  rw [cuts.whole (cuts.plain (by decide))]
  exact .of_ne_opening (by decide)

/-- A line that tells the same with and without a line feed at its end. -/
theorem tells_ended {line : String} {telling : Telling} (noFeed : '\n' ∉ line.toList)
    (told : ∀ tail ∈ ["", "\n"], telling? (line ++ tail) = some telling) :
    Tells (cut (line ++ "\n")) [telling] := by
  simp only [List.forall_mem_cons, String.append_empty] at told
  obtain whole | parts := cuts.ended noFeed
  · rw [whole]
    exact .line told.2.1
  · rw [parts]
    exact (Tells.line told.1).append (.of_ne_opening (by decide))

theorem tells_more (count limit : Nat) : Tells ((more count limit).flatMap cut)
    (if limit < count then [.more (count - limit)] else []) := by
  rw [more]
  split
  · rw [List.flatMap_singleton]
    apply cuts.tells_line (cuts.plain _) (telling?_more _)
    simp [String.toList_append, feed_not_mem_toDigits]
  · exact .nil

/-- A section tells its heading, its entries up to the limit, and how many more there are. -/
theorem tells_section {α : Type} {title : String} {entries : List α}
    {entryLines : α → List String} {line : α → String} (noFeed : '\n' ∉ title.toList) (limit : Nat)
    (tells : ∀ entry ∈ entries, Tells ((entryLines entry).flatMap cut) [.entry (line entry)]) :
    Tells ((sectionOf title entries limit entryLines).flatMap cut)
      (sectionTold title (entries.map line) limit) := by
  have heading : Tells (cut ("## " ++ title ++ "\n")) [.heading title] := by
    apply cuts.tells_ended (by simp [String.toList_append, noFeed])
    intro tail isTail
    apply telling?_heading noFeed
    revert tail
    decide
  have listing : Tells (((entries.take limit).flatMap entryLines).flatMap cut)
      (((entries.map line).take limit).map .entry) := by
    rw [List.flatMap_assoc, ← List.map_take, List.map_map, List.map_eq_flatMap]
    exact .flatMap fun entry member => tells entry (List.mem_of_mem_take member)
  have left := cuts.tells_more entries.length limit
  have all := heading.append (listing.append (left.append cuts.tells_blank))
  by_cases empty : entries = []
  · subst empty
    exact .nil
  · rw [sectionOf, sectionTold, if_neg (by simpa using empty), if_neg (by simpa using empty)]
    simpa [Report.listing] using all

theorem tells_listed {definition : Definition} (whole : Whole (listedLine definition)) :
    Tells ((listed definition).flatMap cut) [.entry (listedLine definition)] := by
  have own : listed definition = [listedLine definition] := rfl
  rw [own, List.flatMap_singleton]
  apply cuts.tells_line whole
  apply telling?_entry
  simp [listedLine, mention, String.toList_append]

/-- The line diff of a changed definition tells nothing more. -/
theorem tells_changedEntry (detail : Detail) {both : Definition × Definition}
    (whole : Whole (changedLine both)) :
    Tells ((changedEntry detail both).flatMap cut) [.entry (changedLine both)] := by
  obtain ⟨old, new⟩ := both
  have entry : Tells (cut (changedLine (old, new))) [.entry (changedLine (old, new))] := by
    apply cuts.tells_line whole
    apply telling?_entry
    simp [changedLine, String.toList_append]
  have opens : cut opening = [opening] := cuts.whole (cuts.plain (by decide))
  have closes : cut closing = [closing] := cuts.whole (cuts.plain (by decide))
  have shown : Tells ((if detail.bodyDiff then fenced old new else []).flatMap cut) [] := by
    split
    · have lines : fenced old new = ["", opening, bodyDiff old new, closing, ""] := rfl
      have fence := Tells.fence (cuts.inside old new)
      have all := cuts.tells_blank.append (fence.append cuts.tells_blank)
      rw [lines]
      simpa [opens, closes] using all
    · exact .nil
  have own : changedEntry detail (old, new) =
      changedLine (old, new) :: if detail.bodyDiff then fenced old new else [] := rfl
  rw [own, List.flatMap_cons]
  exact entry.append shown

theorem tells_count {title : String} (noFeed : '\n' ∉ title.toList) (noColon : ':' ∉ title.toList)
    (apart : title.toList.head? ≠ some '\x60' ∧ title.toList.head? ≠ some '…') (number : Nat) :
    Tells (cut (countLine title number)) [.count title number] ∧
      Tells (cut (countLine title number ++ "\n")) [.count title number] := by
  have whole := feed_not_mem_countLine noFeed number
  have told : ∀ tail ∈ ["", "\n"],
      telling? (countLine title number ++ tail) = some (.count title number) := by
    intro tail isTail
    apply telling?_countLine noFeed noColon apart
    revert tail
    decide
  have plain := told "" (List.mem_cons_self ..)
  rw [String.append_empty] at plain
  exact ⟨cuts.tells_line (cuts.plain whole) plain, cuts.tells_ended whole told⟩

/-- The lines after the title tell the outline of the brief, however they are cut. -/
theorem tells_account {revision : Revision} (detail : Detail)
    (added : ∀ definition ∈ revision.added, Whole (listedLine definition))
    (removed : ∀ definition ∈ revision.removed, Whole (listedLine definition))
    (changed : ∀ both ∈ revision.changed, Whole (changedLine both)) :
    Tells ((account revision detail).flatMap cut)
      (outline (revision.added.map listedLine) (revision.removed.map listedLine)
        (revision.changed.map changedLine) detail.maxListed) := by
  let tally := revision.tally
  have first : Tells (cut (countLine "Added in new" tally.added))
      [.count "Added in new" tally.added] :=
    (cuts.tells_count (by decide) (by decide) (by decide) _).1
  have second : Tells (cut (countLine "Removed from old" tally.removed))
      [.count "Removed from old" tally.removed] :=
    (cuts.tells_count (by decide) (by decide) (by decide) _).1
  have third : Tells (cut (countLine "Changed" tally.changed ++ "\n"))
      [.count "Changed" tally.changed] :=
    (cuts.tells_count (by decide) (by decide) (by decide) _).2
  have inNew : Tells ((sectionOf "Added in new" revision.added detail.maxListed listed).flatMap cut)
      (sectionTold "Added in new" (revision.added.map listedLine) detail.maxListed) :=
    cuts.tells_section (by decide) _ fun _ member => cuts.tells_listed (added _ member)
  have fromOld : Tells
      ((sectionOf "Removed from old" revision.removed detail.maxListed listed).flatMap cut)
      (sectionTold "Removed from old" (revision.removed.map listedLine) detail.maxListed) :=
    cuts.tells_section (by decide) _ fun _ member => cuts.tells_listed (removed _ member)
  have inBoth : Tells
      ((sectionOf "Changed" revision.changed detail.maxListed (changedEntry detail)).flatMap cut)
      (sectionTold "Changed" (revision.changed.map changedLine) detail.maxListed) :=
    cuts.tells_section (by decide) _ fun _ member => cuts.tells_changedEntry _ (changed _ member)
  have all := (first.append (second.append third)).append (inNew.append (fromOld.append inBoth))
  simpa [account, outline, revision.accounted.length_added, revision.accounted.length_removed,
    revision.accounted.length_changed] using all

end Cuts

theorem brief_eq (pair : FilePair) (revision : Revision) (detail : Detail) :
    brief pair revision detail = "# " ++ pair.tag ++ ": " ++ pair.old.fileName ++ " ↔ " ++
      pair.new.fileName ++ "\n\n" ++ "\n".intercalate (account revision detail) := by
  have split : briefLines pair revision detail = [titleLine pair] ++ account revision detail :=
    briefLines_eq pair revision detail
  have feeds : "\n\n" = "\n" ++ "\n" := rfl
  rw [brief, split, String.intercalate_append_of_ne_nil (by simp) (by simp [account]),
    String.intercalate_singleton, titleLine, feeds]
  simp only [String.append_assoc]

/-- The first line of a brief tells nothing. -/
theorem tells_titleLine (pair : FilePair) : Tells [titleLine pair] [] := by
  have plain : titleLine pair ≠ opening := by
    intro same
    simpa [titleLine, opening, String.toList_append] using congrArg String.toList same
  have start : ∃ rest, visible (titleLine pair) = '#' :: ' ' :: rest :=
    ⟨_, by simp [visible, titleLine, String.toList_append]; rfl⟩
  obtain ⟨rest, shown⟩ := start
  have silent : telling? (titleLine pair) = none := by simp [telling?, shown]
  simpa [silent] using Tells.of_ne_opening plain

/-- The definitions of a catalog are listed on lines of their own, and no line looks marked without
a mark. -/
structure Legible (catalog : Catalog) : Prop where
  oneLine : catalog.OneLine
  unmarked : ∀ key definition, catalog.get? key = some definition →
    ¬ cutMark.toList <:+ (mention definition).toList

/-- No signature ends like the mark. -/
theorem not_cutMark_suffix (front : List Char) (identity : Identity) :
    ¬ cutMark.toList <:+ front ++ identity.signature.toList := by
  obtain ⟨kind, container, name⟩ := identity
  rw [← List.reverse_prefix]
  cases kind <;> simp [Identity.signature, cutMark, String.toList_append]

theorem legible_ofText (text : String) : Legible (.ofText text) where
  oneLine := Catalog.oneLine_ofText text
  unmarked key definition found := by
    obtain ⟨finding, -, -, rfl⟩ := Catalog.exists_finding_of_get? found
    rw [mention, String.toList_append]
    exact not_cutMark_suffix _ finding.identity

section legible

variable {catalog : Catalog} (legible : Legible catalog)

include legible

theorem Legible.cutMark_suffix_iff {definition : Definition}
    (found : catalog.get? definition.key = some definition) :
    cutMark.toList <:+ (listedLine definition).toList ↔ definition.truncated = true := by
  have unmarked := legible.unmarked _ _ found
  rw [listedLine, String.toList_append]
  cases definition.truncated <;> simp [unmarked]

theorem Legible.feed_not_mem_listedLine {definition : Definition}
    (found : catalog.get? definition.key = some definition) :
    '\n' ∉ (listedLine definition).toList := by
  obtain ⟨inKey, inSignature⟩ := legible.oneLine _ _ found
  have inMark : '\n' ∉ (if definition.truncated then cutMark else "").toList := by
    split <;> decide
  simp [listedLine, mention, String.toList_append, inKey, inSignature, inMark]

theorem Legible.feed_not_mem_changedLine {both : Definition × Definition}
    (found : catalog.get? both.1.key = some both.1) : '\n' ∉ (changedLine both).toList := by
  have inKey := (legible.oneLine _ _ found).1
  simp [changedLine, String.toList_append, inKey]

end legible

end Report

open Report

/-- A brief accounts for every key that is classified. The definitions that are added, removed and
changed are as many as are counted, and every brief counts them at its top and lists the first of
them in a section each, up to the limit and with the number of those left out. This is told by the
lines of the brief, and for catalogs of texts by the text after the title as well. -/
theorem briefs_account (revision : Revision) :
    revision.Accounted ∧
    (∀ pair detail, ∃ told rest,
      outline? (briefLines pair revision detail) = some told ∧
      brief pair revision detail = "# " ++ pair.tag ++ ": " ++ pair.old.fileName ++ " ↔ " ++
        pair.new.fileName ++ "\n\n" ++ rest ∧
      (Legible revision.old → Legible revision.new →
        outline? (Text.fields '\n' rest) = some told) ∧
      Lists told "Added in new" (revision.added.map listedLine) revision.tally.added
        detail.maxListed ∧
      Lists told "Removed from old" (revision.removed.map listedLine) revision.tally.removed
        detail.maxListed ∧
      Lists told "Changed" (revision.changed.map changedLine) revision.tally.changed
        detail.maxListed) ∧
    (Legible revision.old → Legible revision.new →
      ∀ definition, definition ∈ revision.added ∨ definition ∈ revision.removed →
        (cutMark.toList <:+ (listedLine definition).toList ↔ definition.truncated = true)) ∧
    ∀ text, Legible (.ofText text) := by
  have accounted := revision.accounted
  have isNew {definition : Definition} (member : definition ∈ revision.added) :=
    ((accounted.mem_added_iff definition).mp member).1
  have isOld {definition : Definition} (member : definition ∈ revision.removed) :=
    ((accounted.mem_removed_iff definition).mp member).1
  have isBoth {both : Definition × Definition} (member : both ∈ revision.changed) :=
    ((accounted.mem_changed_iff both.1 both.2).mp member).1
  refine ⟨accounted, ?_, ?_, legible_ofText⟩
  · intro pair detail
    have lists := lists_outline (revision.added.map listedLine) (revision.removed.map listedLine)
      (revision.changed.map changedLine) detail.maxListed
    simp only [List.length_map, accounted.length_added, accounted.length_removed,
      accounted.length_changed] at lists
    refine ⟨_, "\n".intercalate (account revision detail), ?_, brief_eq pair revision detail, ?_,
      lists⟩
    · have body : Tells ((account revision detail).flatMap fun line => [line]) _ :=
        cuts_none.tells_account detail (by simp) (by simp) (by simp)
      rw [List.flatMap_singleton'] at body
      rw [briefLines_eq, ← List.singleton_append, ((tells_titleLine pair).append body).outline_eq,
        List.nil_append]
    · intro oldLegible newLegible
      have body := cuts_fields.tells_account detail
        (fun _ member => newLegible.feed_not_mem_listedLine (isNew member))
        (fun _ member => oldLegible.feed_not_mem_listedLine (isOld member))
        (fun _ member => oldLegible.feed_not_mem_changedLine (isBoth member))
      rw [Text.fields_intercalate rfl (by simp [account]), body.outline_eq]
  · intro oldLegible newLegible definition member
    obtain member | member := member
    · exact newLegible.cutMark_suffix_iff (isNew member)
    · exact oldLegible.cutMark_suffix_iff (isOld member)

end ScriptDelta

import ScriptDelta.Proofs.Comparison.Definitions
import ScriptDelta.Proofs.Json.Reading
import ScriptDelta.Report.Patch

/-! # What a patch holds

A patch is read back as the data that it was made of (`patch_reads_back`). A definition comes back
as everything but its body (`Record.ofJson?_document`), where a member that is left out stands for
a definition without a container, or for one that is not truncated. The definitions under the keys
of a list come back in the order of the keys (`Content.tells`).
-/

namespace ScriptDelta

namespace Json

/-- The value of the first member with the given name. -/
def member? (json : Json) (name : String) : Option Json :=
  match json with
  | .object members => (members.find? fun member => member.1 = name).map (·.2)
  | _ => none

/-- The text that a value is. -/
def text? : Json → Option String
  | .text value => some value
  | _ => none

/-- The number that a value is. -/
def number? : Json → Option Nat
  | .number value => some value
  | _ => none

/-- The flag that a value is. -/
def flag? : Json → Option Bool
  | .flag value => some value
  | _ => none

/-- The items of the array that a value is. -/
def items? : Json → Option (List Json)
  | .array items => some items
  | _ => none

end Json

/-- The kind with the given name in reports. -/
def Kind.ofLabel? (label : String) : Option Kind :=
  [Kind.function, .prototype, .assigned, .method].find? fun kind => kind.label = label

/-- The tally in a report. -/
def Tally.ofJson? (json : Json) : Option Tally := do
  let added ← (← json.member? "added").number?
  let removed ← (← json.member? "removed").number?
  let changed ← (← json.member? "changed").number?
  let unchanged ← (← json.member? "unchanged").number?
  return ⟨added, removed, changed, unchanged⟩

namespace Report

/-- A definition without its body. -/
structure Record extends Identity where
  signature : String
  digest : String
  truncated : Bool
deriving DecidableEq

/-- What a report says of a definition. -/
def Record.of (definition : Definition) : Record :=
  ⟨definition.toIdentity, definition.signature, definition.digest, definition.truncated⟩

/-- The definition that a report speaks of. -/
def Record.ofJson? (json : Json) : Option Record := do
  let kind ← Kind.ofLabel? (← (← json.member? "kind").text?)
  let container ←
    match json.member? "container" with
    | none => some none
    | some value => value.text?.map some
  let name ← (← json.member? "name").text?
  let signature ← (← json.member? "sig").text?
  let digest ← (← json.member? "hash").text?
  let truncated ←
    match json.member? "truncated" with
    | none => some false
    | some value => value.flag?
  return ⟨⟨kind, container, name⟩, signature, digest, truncated⟩

/-- What a patch says. -/
structure Content where
  old : String
  new : String
  tag : String
  tally : Tally
  added : List (String × Record)
  removed : List (String × Record)
  changed : List (String × Record × Record)
deriving DecidableEq

namespace Content

/-- A definition with its key in front. -/
def entry? (json : Json) : Option (String × Record) := do
  return (← (← json.member? "key").text?, ← Record.ofJson? json)

/-- Both versions of a definition with its key in front. -/
def change? (json : Json) : Option (String × Record × Record) := do
  return (← (← json.member? "key").text?, ← Record.ofJson? (← json.member? "old"),
    ← Record.ofJson? (← json.member? "new"))

/-- What the patch says that a document is. -/
def ofJson? (json : Json) : Option Content := do
  let pair ← json.member? "pair"
  let old ← (← pair.member? "old").text?
  let new ← (← pair.member? "new").text?
  let tag ← (← pair.member? "tag").text?
  let tally ← Tally.ofJson? (← json.member? "counts")
  let added ← (← (← json.member? "added").items?).mapM entry?
  let removed ← (← (← json.member? "removed").items?).mapM entry?
  let changed ← (← (← json.member? "changed").items?).mapM change?
  return ⟨old, new, tag, tally, added, removed, changed⟩

/-- What the patch of a pair has to say. -/
def of (pair : FilePair) (revision : Revision) : Content where
  old := pair.old.text
  new := pair.new.text
  tag := pair.tag
  tally := revision.tally
  added := revision.added.map fun definition => (definition.key, .of definition)
  removed := revision.removed.map fun definition => (definition.key, .of definition)
  changed := revision.changed.map fun (old, new) => (old.key, .of old, .of new)

/-- A patch says of each key in a list, in the order of the keys, what the catalogs have under
it. -/
structure Tells (content : Content) (revision : Revision) : Prop where
  added_keys : content.added.map Prod.fst = revision.comparison.added
  removed_keys : content.removed.map Prod.fst = revision.comparison.removed
  changed_keys : content.changed.map Prod.fst = revision.comparison.changed
  sorted_added : revision.comparison.added.Pairwise (· < ·)
  sorted_removed : revision.comparison.removed.Pairwise (· < ·)
  sorted_changed : revision.comparison.changed.Pairwise (· < ·)
  added : ∀ entry ∈ content.added, ∃ definition,
    revision.new.get? entry.1 = some definition ∧ entry.2 = .of definition
  removed : ∀ entry ∈ content.removed, ∃ definition,
    revision.old.get? entry.1 = some definition ∧ entry.2 = .of definition
  changed : ∀ entry ∈ content.changed, ∃ old new,
    revision.old.get? entry.1 = some old ∧ revision.new.get? entry.1 = some new ∧
      entry.2 = (.of old, .of new)

end Content

section reading

@[simp] theorem Json.member?_nil (name : String) : (Json.object []).member? name = none :=
  rfl

@[simp] theorem Json.member?_cons (first name : String) (value : Json)
    (rest : List (String × Json)) :
    (Json.object ((first, value) :: rest)).member? name =
      if first = name then some value else (Json.object rest).member? name := by
  by_cases here : first = name <;> simp [Json.member?, here]

@[simp] theorem Kind.ofLabel?_label (kind : Kind) : Kind.ofLabel? kind.label = some kind := by
  cases kind <;> rfl

theorem Tally.ofJson?_document (tally : Tally) : Tally.ofJson? tally.document = some tally := by
  simp [Tally.ofJson?, Tally.document, Json.number?]

/-- A definition is read back from its members. -/
theorem Record.ofJson?_document (definition : Definition) :
    Record.ofJson? definition.document = some (.of definition) := by
  obtain ⟨⟨kind, container, name⟩, signature, digest, truncated, body⟩ := definition
  cases container <;> cases truncated <;>
    simp [Record.ofJson?, Definition.document, Definition.members, Json.text?, Json.flag?,
      Record.of]

/-- A key in front is no part of a definition. -/
theorem Record.ofJson?_key (key : Json) (members : List (String × Json)) :
    Record.ofJson? (.object (("key", key) :: members)) = Record.ofJson? (.object members) := by
  simp [Record.ofJson?]

theorem Content.entry?_keyedDocument (definition : Definition) :
    Content.entry? definition.keyedDocument = some (definition.key, .of definition) := by
  have record := Record.ofJson?_document definition
  rw [Definition.document] at record
  simp [Content.entry?, Definition.keyedDocument, Record.ofJson?_key, record, Json.text?]

theorem Content.change?_change (old new : Definition) :
    Content.change? (change old new) = some (old.key, .of old, .of new) := by
  simp [Content.change?, change, Json.text?, Record.ofJson?_document]

/-- A list is read back one item after the other. -/
theorem mapM_map_eq_some {α β γ : Type} {read? : β → Option γ} {write : α → β} {value : α → γ}
    (back : ∀ item, read? (write item) = some (value item)) (items : List α) :
    (items.map write).mapM read? = some (items.map value) := by
  induction items with
  | nil => rfl
  | cons item items ih => simp [back, ih]

/-- A patch is read back as what it has to say. -/
theorem Content.ofJson?_patch (pair : FilePair) (revision : Revision) :
    Content.ofJson? (patch pair revision) = some (.of pair revision) := by
  have added := mapM_map_eq_some Content.entry?_keyedDocument revision.added
  have removed := mapM_map_eq_some Content.entry?_keyedDocument revision.removed
  have changed :=
    mapM_map_eq_some (fun both => Content.change?_change both.1 both.2) revision.changed
  simp [Content.ofJson?, patch, FilePair.document, Tally.ofJson?_document, Json.text?, Json.items?,
    added, removed, changed, Content.of]

end reading

section distinct

theorem distinct_members (definition : Definition) :
    (definition.members.map Prod.fst).Nodup ∧ "key" ∉ definition.members.map Prod.fst ∧
      ∀ member ∈ definition.members, member.2.Distinct := by
  obtain ⟨⟨kind, container, name⟩, signature, digest, truncated, body⟩ := definition
  cases container <;> cases truncated <;>
    simp [Definition.members, Json.Distinct.text, Json.Distinct.flag]

theorem distinct_document (definition : Definition) : definition.document.Distinct := by
  obtain ⟨names, -, inner⟩ := distinct_members definition
  exact .object names inner

theorem distinct_keyedDocument (definition : Definition) : definition.keyedDocument.Distinct := by
  obtain ⟨names, noKey, inner⟩ := distinct_members definition
  apply Json.Distinct.object
  · exact List.nodup_cons.mpr ⟨noKey, names⟩
  · exact List.forall_mem_cons.mpr ⟨.text _, inner⟩

theorem distinct_change (old new : Definition) : (change old new).Distinct := by
  apply Json.Distinct.object
  · simp
  · simp [Json.Distinct.text, distinct_document]

theorem distinct_tally (tally : Tally) : tally.document.Distinct := by
  apply Json.Distinct.object
  · simp
  · simp [Json.Distinct.number]

theorem distinct_pair (pair : FilePair) : pair.document.Distinct := by
  apply Json.Distinct.object
  · simp
  · simp [Json.Distinct.text]

theorem distinct_map {α : Type} {write : α → Json} (distinct : ∀ item, (write item).Distinct)
    (items : List α) : (Json.array (items.map write)).Distinct := by
  apply Json.Distinct.array
  simp [distinct]

/-- No object in a patch has two members of one name. -/
theorem distinct_patch (pair : FilePair) (revision : Revision) :
    (patch pair revision).Distinct := by
  apply Json.Distinct.object
  · simp
  · have changed := distinct_map (fun both => distinct_change both.1 both.2) revision.changed
    simp [distinct_pair, distinct_tally, distinct_map distinct_keyedDocument, changed]

end distinct

/-- A patch says of each key in a list what the catalogs have under it. -/
theorem Content.tells (pair : FilePair) (revision : Revision) :
    (Content.of pair revision).Tells revision where
  added_keys := by
    rw [← revision.map_key_added, Content.of, List.map_map]
    rfl
  removed_keys := by
    rw [← revision.map_key_removed, Content.of, List.map_map]
    rfl
  changed_keys := by
    rw [← revision.map_key_changed, Content.of, List.map_map]
    rfl
  sorted_added := revision.classifies.sorted_added
  sorted_removed := revision.classifies.sorted_removed
  sorted_changed := revision.classifies.sorted_changed
  added := by
    intro entry isEntry
    obtain ⟨definition, member, rfl⟩ := List.mem_map.mp isEntry
    exact ⟨definition, Catalog.get?_of_mem_filterMap member, rfl⟩
  removed := by
    intro entry isEntry
    obtain ⟨definition, member, rfl⟩ := List.mem_map.mp isEntry
    exact ⟨definition, Catalog.get?_of_mem_filterMap member, rfl⟩
  changed := by
    intro entry isEntry
    obtain ⟨⟨old, new⟩, member, rfl⟩ := List.mem_map.mp isEntry
    obtain ⟨isOld, isNew, -⟩ := revision.of_mem_changed member
    exact ⟨old, new, isOld, isNew, rfl⟩

end Report

open Report

/-- A patch is one document in JSON without two members of one name in an object, and it is read
back as the data of the pair and the revision; so patches are different if these data are. -/
theorem patch_reads_back (pair : FilePair) (revision : Revision) :
    (∃ document, Json.read? (patch pair revision).pretty = some document ∧ document.Distinct ∧
      Content.ofJson? document = some (.of pair revision)) ∧
    (Content.of pair revision).Tells revision ∧
    ∀ other otherRevision, (patch other otherRevision).pretty = (patch pair revision).pretty →
      Content.of other otherRevision = Content.of pair revision := by
  have back (pair : FilePair) (revision : Revision) :
      Json.read? (patch pair revision).pretty = some (patch pair revision) :=
    Json.read?_write (.indented 0) (patch pair revision)
  refine ⟨⟨_, back pair revision, distinct_patch pair revision, ?_⟩, ?_, ?_⟩
  · exact Content.ofJson?_patch pair revision
  · exact Content.tells pair revision
  · intro other otherRevision same
    have sameDocument := back other otherRevision
    rw [same, back pair revision] at sameDocument
    have sameContent := congrArg Content.ofJson? (Option.some.inj sameDocument)
    rw [Content.ofJson?_patch, Content.ofJson?_patch] at sameContent
    exact (Option.some.inj sameContent).symm

end ScriptDelta

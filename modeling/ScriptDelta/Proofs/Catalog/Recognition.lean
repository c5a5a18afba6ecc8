import ScriptDelta.Proofs.Catalog.LastHeader
import ScriptDelta.Proofs.Catalog.Lookup

/-! # The definitions that a text has

A catalog has a key of a function exactly if a header that gives the key begins at the start of some
line, and what it has under the key is the definition of the last such header in the text, with the
block that follows the parenthesis of that header.
-/

namespace ScriptDelta

open Text Header

namespace Identity

/-- The identities of functions outside classes. -/
def IsTopLevel (identity : Identity) : Prop :=
  match identity.kind, identity.container with
  | .function, none | .prototype, some _ | .assigned, some _ => True
  | _, _ => False

/-- A period after a text without periods is the first one. -/
theorem eq_of_append_period {owner name otherOwner otherName : List Char}
    (noOwner : '.' ∉ owner) (noName : '.' ∉ name)
    (same : owner ++ '.' :: name = otherOwner ++ '.' :: otherName) :
    owner = otherOwner ∧ name = otherName := by
  rcases List.append_eq_append_iff.mp same with ⟨more, rfl, after⟩ | ⟨more, rfl, after⟩
  · cases more with
    | nil => simpa using after
    | cons c more =>
      obtain ⟨-, rfl⟩ := List.cons.inj after
      simp at noName
  · cases more with
    | nil => simpa using after.symm
    | cons c more =>
      obtain ⟨rfl, -⟩ := List.cons.inj after
      simp at noOwner

theorem eq_of_member_key_eq {kind : Kind} {owner name : List Char} (isOwner : IsName owner)
    (isName : IsName name) {otherOwner otherName : String}
    (same : key ⟨kind, some (String.ofList owner), String.ofList name⟩ =
      key ⟨kind, some otherOwner, otherName⟩) :
    String.ofList owner = otherOwner ∧ String.ofList name = otherName := by
  have texts := congrArg String.toList same
  simp only [key, String.toList_append, String.toList_ofList, List.append_assoc,
    List.append_right_inj] at texts
  have texts : owner ++ '.' :: name = otherOwner.toList ++ '.' :: otherName.toList := texts
  obtain ⟨owners, names⟩ := eq_of_append_period (isOwner.not_mem (by decide))
    (isName.not_mem (by decide)) texts
  rw [owners, names, String.ofList_toList, String.ofList_toList]
  exact ⟨rfl, rfl⟩

/-- The key of a header belongs to no other identity of its sort. -/
theorem eq_of_key_eq {identity other : Identity} {header : List Char}
    (form : Form identity header) (topLevel : other.IsTopLevel)
    (same : identity.key = other.key) : identity = other := by
  have kinds := kind_eq_of_key_eq same
  obtain ⟨kind, container, name⟩ := other
  cases form with
  | function =>
    obtain rfl : Kind.function = kind := kinds
    cases container with
    | some => contradiction
    | none =>
      have texts := congrArg String.toList same
      simp only [key, String.toList_append, List.append_right_inj] at texts
      rw [String.toList_injective texts]
  | prototype isOwner isName | assigned isOwner isName =>
    obtain rfl := kinds
    cases container with
    | none => contradiction
    | some container =>
      obtain ⟨rfl, rfl⟩ := eq_of_member_key_eq isOwner isName same
      rfl

end Identity

theorem Header.Form.isTopLevel {identity : Identity} {header : List Char}
    (form : Form identity header) : identity.IsTopLevel := by
  cases form <;> trivial

namespace Finding

/-- The findings of one kind. -/
def ofKind (text : List Char) : Kind → List Finding
  | .function => functions text
  | .prototype => prototypes text
  | .assigned => assigned text
  | .method => methods text

/-- A search for functions takes the headers of its kind. -/
theorem exists_reads {kind : Kind} (topLevel : kind ≠ .method) (text : List Char) :
    ∃ read?, Reads read? kind ∧ ofKind text kind = search read? text := by
  cases kind with
  | function => exact ⟨function?, reads_function, rfl⟩
  | prototype => exact ⟨prototype?, reads_prototype, rfl⟩
  | assigned => exact ⟨assigned?, reads_assigned, rfl⟩
  | method => contradiction

theorem kind_of_mem_ofKind {text : List Char} {kind : Kind} {finding : Finding}
    (member : finding ∈ ofKind text kind) : finding.identity.kind = kind := by
  by_cases topLevel : kind = .method
  · subst topLevel
    simp only [ofKind, methods, List.mem_flatMap] at member
    obtain ⟨⟨place, name⟩, -, member⟩ := member
    simp only [ofClass, List.mem_filterMap] at member
    obtain ⟨⟨start, method⟩, -, made⟩ := member
    split at made
    · obtain rfl := Option.some.inj made
      rfl
    · contradiction
  · obtain ⟨read?, reads, own⟩ := exists_reads topLevel text
    rw [own, mem_search_iff] at member
    obtain ⟨-, stop, read⟩ := read_of_mem_occurrences member
    exact ((reads _ _ _).mp read).1

/-- A key tells the search that its findings come from. -/
theorem filter_key_all (text : List Char) (identity : Identity) :
    (all text).filter (fun finding => finding.key = identity.key) =
      (ofKind text identity.kind).filter fun finding => finding.key = identity.key := by
  have others (kind : Kind) (other : kind ≠ identity.kind) :
      (ofKind text kind).filter (fun finding => finding.key = identity.key) = [] := by
    refine List.filter_eq_nil_iff.mpr fun finding member same => other ?_
    rw [← kind_of_mem_ofKind member]
    exact Identity.kind_eq_of_key_eq (of_decide_eq_true same)
  have parts : all text = ofKind text .function ++ ofKind text .prototype ++
      ofKind text .assigned ++ ofKind text .method := rfl
  rw [parts, List.filter_append, List.filter_append, List.filter_append]
  cases own : identity.kind <;> simp [others, own]

/-- What is found in a text is found by the search for its kind. -/
theorem mem_ofKind {text : List Char} {finding : Finding} (member : finding ∈ all text) :
    finding ∈ ofKind text finding.identity.kind := by
  have own : finding ∈ (all text).filter fun other => other.key = finding.identity.key :=
    List.mem_filter.mpr ⟨member, decide_eq_true rfl⟩
  rw [filter_key_all] at own
  exact (List.mem_filter.mp own).1

/-- What is found outside classes is named by a header. -/
theorem isTopLevel_of_mem {text : List Char} {finding : Finding} (member : finding ∈ all text)
    (kind : finding.identity.kind ≠ .method) : finding.identity.IsTopLevel := by
  have own := mem_ofKind member
  obtain ⟨read?, reads, search⟩ := exists_reads kind text
  rw [search, mem_search_iff] at own
  obtain ⟨-, stop, read⟩ := read_of_mem_occurrences own
  obtain ⟨-, header, form, -⟩ := (reads _ _ _).mp read
  exact form.isTopLevel

end Finding

/-- Among everything found, the last finding of a key is the last of the search for its kind. -/
theorem Finding.find?_key_all {read? : Place → Option (Identity × Place)} {text : List Char}
    {identity : Identity} (topLevel : identity.IsTopLevel) (reads : Reads read? identity.kind)
    (own : ofKind text identity.kind = search read? text) :
    ((all text).reverse.find? fun finding => finding.key = identity.key) =
      (search read? text).reverse.find? fun finding => finding.identity = identity := by
  rw [← List.head?_filter, ← List.head?_filter, List.filter_reverse, List.filter_reverse,
    filter_key_all, own]
  congr 2
  refine List.filter_congr fun finding member => ?_
  rw [decide_eq_decide]
  refine ⟨fun same => ?_, fun same => congrArg Identity.key same⟩
  obtain ⟨-, stop, read⟩ := read_of_mem_occurrences (mem_search_iff.mp member)
  obtain ⟨-, header, form, -⟩ := (reads _ _ _).mp read
  exact Identity.eq_of_key_eq form topLevel same

theorem Identity.IsTopLevel.kind_ne {identity : Identity} (topLevel : identity.IsTopLevel) :
    identity.kind ≠ .method := by
  intro kind
  simp [IsTopLevel, kind] at topLevel

/-- The block is the one that the first opening brace after `before` opens; without such a brace it
is empty and not closed. -/
structure Block.OpensAfter (block : Block) (before after : List Char) : Prop where
  absent : '\x7b' ∉ after → block.text = [] ∧ block.closed = false
  opened : ∀ skipped rest, after = skipped ++ '\x7b' :: rest → '\x7b' ∉ skipped →
    block.start = byteSize (before ++ skipped) ∧ '\x7b' ∈ block.text.head? ∧
      block.text <+: '\x7b' :: rest

theorem Block.find_opensAfter (before after : List Char) :
    (Block.find (before ++ after) (byteSize before)).OpensAfter before after := by
  rw [find_eq_following]
  constructor
  · intro absent
    rw [following_of_not_mem absent]
    exact ⟨rfl, rfl⟩
  · rintro skipped rest rfl absent
    rw [following_append absent, byteSize_append]
    rcases Reader.run_or_closes ⟨.code, 0⟩ ('\x7b' :: rest) with
      ⟨next, ran⟩ | ⟨body, later, split, closes⟩
    · rw [following_of_run ran]
      exact ⟨rfl, rfl, List.prefix_refl _⟩
    · rw [following_of_closes split closes]
      refine ⟨rfl, ?_, split ▸ List.prefix_append ..⟩
      obtain ⟨inside, last, next, rfl, -, -⟩ := closes
      cases inside with
      | nil => simpa using (List.cons.inj split).1.symm
      | cons c inside => simpa using (List.cons.inj split).1.symm

namespace Catalog

/-- A catalog has the key of a function outside classes exactly if the text has a header. -/
theorem contains_ofText_iff {text : String} {identity : Identity}
    (topLevel : identity.IsTopLevel) :
    (ofText text).contains identity.key = true ↔
      ∃ before, before <+: text.toList ∧ EndsWithHeader identity before := by
  obtain ⟨read?, reads, own⟩ := Finding.exists_reads topLevel.kind_ne text.toList
  rw [Table.contains, ofText, get?_ofFindings, Option.isSome_map,
    Finding.find?_key_all topLevel reads own]
  constructor
  · intro found
    obtain ⟨finding, found⟩ := Option.isSome_iff_exists.mp found
    obtain ⟨before, last, -⟩ := lastHeader_of_find? reads rfl found
    exact ⟨before, last.1, last.2.1⟩
  · rintro ⟨before, ⟨rest, whole⟩, ends⟩
    have passes : (Place.start text.toList).Passes before ⟨byteSize before, rest⟩ :=
      ⟨whole.symm, by simp [Place.start]⟩
    obtain ⟨start, member, -⟩ := mem_of_endsWithHeader reads rfl passes ends
    have member : ⟨start, identity⟩ ∈ Finding.search read? text.toList :=
      Finding.mem_search_iff.mpr member
    rw [List.find?_isSome]
    exact ⟨_, List.mem_reverse.mpr member, by simp⟩

/-- Under the key of a function outside classes a catalog has the definition of the last header. -/
theorem get?_ofText_eq_some_iff {text : String} {identity : Identity}
    (topLevel : identity.IsTopLevel) {definition : Definition} :
    (ofText text).get? identity.key = some definition ↔
      ∃ before, LastHeader identity text.toList before ∧
        definition = .ofBlock identity (.find text.toList (byteSize before)) := by
  obtain ⟨read?, reads, own⟩ := Finding.exists_reads topLevel.kind_ne text.toList
  have forward {definition : Definition}
      (found : (ofText text).get? identity.key = some definition) :
      ∃ before, LastHeader identity text.toList before ∧
        definition = .ofBlock identity (.find text.toList (byteSize before)) := by
    rw [ofText, get?_ofFindings, Finding.find?_key_all topLevel reads own] at found
    obtain ⟨finding, isLast, rfl⟩ := Option.map_eq_some_iff.mp found
    exact lastHeader_of_find? reads rfl isLast
  refine ⟨forward, ?_⟩
  rintro ⟨before, last, rfl⟩
  have present := (contains_ofText_iff topLevel).mpr ⟨before, last.1, last.2.1⟩
  obtain ⟨definition, found⟩ := Option.isSome_iff_exists.mp present
  obtain ⟨other, otherLast, rfl⟩ := forward found
  rw [found, last.unique otherLast]

/-- A catalog of the text has the key exactly if the text has a header of the identity, and under it
the definition that the last such header begins. -/
structure Recognizes (text key : String) (identity : Identity) : Prop where
  contains_iff : (ofText text).contains key = true ↔
    ∃ before, before <+: text.toList ∧ EndsWithHeader identity before
  get?_eq_some_iff : ∀ definition, (ofText text).get? key = some definition ↔
    ∃ before after body, text.toList = before ++ after ∧ LastHeader identity text.toList before ∧
      body = Block.find text.toList (byteSize before) ∧ body.OpensAfter before after ∧
        definition =
          { toIdentity := identity
            signature := identity.signature
            digest := contentDigest (String.ofList body.text)
            truncated := !body.closed
            body := String.ofList body.text }

theorem recognizes_key (text : String) {identity : Identity} (topLevel : identity.IsTopLevel) :
    Recognizes text identity.key identity := by
  refine ⟨contains_ofText_iff topLevel, fun definition => ?_⟩
  rw [get?_ofText_eq_some_iff topLevel]
  constructor
  · rintro ⟨before, last, rfl⟩
    obtain ⟨after, whole⟩ := last.1
    have opens := Block.find_opensAfter before after
    rw [whole] at opens
    exact ⟨before, after, _, whole.symm, last, rfl, opens, rfl⟩
  · rintro ⟨before, after, body, -, last, rfl, -, rfl⟩
    exact ⟨before, last, rfl⟩

/-- Whatever the text, the functions outside classes that its catalog has are those whose headers
begin at the start of some line, and of headers with one key the last one counts. -/
theorem recognizes_functions (text : String) :
    (∀ name, Recognizes text ("function:" ++ name) ⟨.function, none, name⟩) ∧
      (∀ container name, Recognizes text ("proto:" ++ container ++ "." ++ name)
        ⟨.prototype, some container, name⟩) ∧
      ∀ object name, Recognizes text ("assign:" ++ object ++ "." ++ name)
        ⟨.assigned, some object, name⟩ := by
  refine ⟨fun name => ?_, fun container name => ?_, fun object name => ?_⟩
  · have topLevel : (⟨.function, none, name⟩ : Identity).IsTopLevel := trivial
    exact recognizes_key text topLevel
  · have topLevel : (⟨.prototype, some container, name⟩ : Identity).IsTopLevel := trivial
    exact recognizes_key text topLevel
  · have topLevel : (⟨.assigned, some object, name⟩ : Identity).IsTopLevel := trivial
    exact recognizes_key text topLevel

end Catalog

end ScriptDelta

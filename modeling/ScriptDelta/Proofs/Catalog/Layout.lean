import ScriptDelta.Comparison
import ScriptDelta.Proofs.Block.Layout
import ScriptDelta.Proofs.Catalog.Lookup
import ScriptDelta.Proofs.Header.Alignment
import ScriptDelta.Proofs.Header.Separation
import ScriptDelta.Proofs.Place.Seeking

/-! # Catalogs and layout

In texts of the same layout the four searches find corresponding headers with corresponding blocks,
the one for methods also where a method goes on beyond its class. So their catalogs have the same
keys, the definitions under a key differ in the layout of their bodies at most, and a comparison
finds no change.
-/

namespace ScriptDelta

open Text Header

/-- Two findings with the same identity whose blocks have the same words. -/
structure Finding.Matches (finding other : Finding) : Prop where
  identity : finding.identity = other.identity
  words : words finding.block.text = words other.block.text
  closed : finding.block.closed = other.block.closed

/-- Two definitions that differ in the layout of their bodies at most. -/
structure Definition.Matches (definition other : Definition) : Prop where
  kind : definition.kind = other.kind
  container : definition.container = other.container
  name : definition.name = other.name
  signature : definition.signature = other.signature
  digest : definition.digest = other.digest
  truncated : definition.truncated = other.truncated

theorem Finding.Matches.definition {finding other : Finding} (same : finding.Matches other) :
    finding.definition.Matches other.definition := by
  obtain ⟨place, identity⟩ := finding
  obtain ⟨otherPlace, otherIdentity⟩ := other
  obtain ⟨rfl, words, closed⟩ := same
  refine ⟨rfl, rfl, rfl, rfl, ?_, congrArg not closed⟩
  simp only [Finding.definition, Definition.ofBlock, Definition.ofBody, contentDigest,
    Text.normalize, collapse, String.toList_ofList, words]

section

variable {α β γ : Type} {related : α → β → Prop}

theorem forall₂_mem {rows : List α} {others : List β} (rel : List.Forall₂ related rows others) :
    List.Forall₂ (fun a b => a ∈ rows ∧ b ∈ others ∧ related a b) rows others := by
  induction rel with
  | nil => exact .nil
  | cons first _ ih =>
    refine .cons ⟨List.mem_cons_self .., List.mem_cons_self .., first⟩ (ih.imp ?_)
    rintro a b ⟨left, right, rest⟩
    exact ⟨.tail _ left, .tail _ right, rest⟩

theorem rel_find? {rows : List α} {others : List β} (rel : List.Forall₂ related rows others)
    {keep : α → Bool} {keepOther : β → Bool}
    (same : ∀ a b, related a b → keep a = keepOther b) :
    Option.Rel related (rows.find? keep) (others.find? keepOther) := by
  induction rel with
  | nil => exact .none
  | @cons a b rows others first rest ih =>
    rw [List.find?_cons, List.find?_cons, same a b first]
    cases keepOther b with
    | true => exact .some first
    | false => exact ih

end

namespace Finding

theorem matches_of_alike {place other : Place} (identity : Identity)
    (alike : place.skipBlanks.Alike false other.skipBlanks) :
    Matches ⟨place, identity⟩ ⟨other, identity⟩ :=
  ⟨rfl, (Block.following_alike alike).1, (Block.following_alike alike).2.1⟩

/-- A search for functions finds the same in both texts. -/
theorem search_matches {read? : Place → Option (Identity × Place)} (ends : EndsInLine read?)
    (respects : Respects read? Eq) {first second : List Char}
    (alike : Alike false (first.dropWhile isBlank) (second.dropWhile isBlank)) :
    List.Forall₂ Matches (search read? first) (search read? second) := by
  have starts : (Place.start first).skipBlanks.Alike false (Place.start second).skipBlanks := alike
  rw [search, search, List.forall₂_map_left_iff, List.forall₂_map_right_iff]
  refine (occurrences_alike ends respects starts).imp ?_
  rintro ⟨place, identity⟩ ⟨other, _⟩ ⟨rfl, alike⟩
  exact matches_of_alike identity alike

/-- Inside the braces of a class the search keeps to its places in the whole text. -/
theorem seek_of_mem {place : Place} {later : List Char} (ends : Block.EndsBefore place later)
    {start : Place} {method : Method}
    (member : (start, method) ∈ occurrences method?
      ⟨(Block.following place).interior.start, (Block.following place).inner⟩) :
    place.seek start.offset = ⟨start.offset, start.rest ++ later⟩ := by
  obtain ⟨front, passes⟩ := ends
  obtain ⟨⟨before, -, inside⟩, -⟩ := read_of_mem_occurrences member
  have whole : place.Passes (front ++ before) ⟨start.offset, start.rest ++ later⟩ := by
    refine passes.trans ⟨?_, inside.2⟩
    rw [← List.append_assoc]
    exact congrArg (· ++ later) inside.1
  exact Place.seek_of_reaches whole.reaches

theorem dropBlanks_append (text later : List Char) :
    (text ++ later).dropWhile isBlank = (text.dropWhile isBlank ++ later).dropWhile isBlank := by
  rw [List.dropWhile_append, List.dropWhile_append, List.dropWhile_idempotent]

/-- Corresponding classes have corresponding methods. -/
theorem ofClass_matches {place other : Place} (name : String)
    (alike : place.skipBlanks.Alike false other.skipBlanks) :
    List.Forall₂ Matches (ofClass place name) (ofClass other name) := by
  rcases (Block.following_alike alike).2.2 with
    ⟨empty, otherEmpty⟩ | ⟨exact, later, otherLater, ends, otherEnds, inner, further⟩
  · have none {place : Place} (empty : (Block.following place).inner = []) :
        ofClass place name = [] := by
      have blank : (Place.mk (Block.following place).interior.start
          (Block.following place).inner).skipBlanks.rest = [] := by
        simp [empty, Place.skipBlanks, Place.skipWhile]
      simp [ofClass, occurrences_of_blank endsInLine_method blank]
    rw [none empty, none otherEmpty]
    exact .nil
  · have starts : (Place.mk (Block.following place).interior.start
        (Block.following place).inner).skipBlanks.Alike exact
          (Place.mk (Block.following other).interior.start
            (Block.following other).inner).skipBlanks := inner.dropBlanks
    have found := forall₂_mem (occurrences_alike endsInLine_method respects_method starts)
    refine List.rel_filterMap ?_ found
    rintro ⟨start, method⟩ ⟨otherStart, otherMethod⟩ ⟨member, otherMember, same, alike⟩
    dsimp only at same alike ⊢
    rw [seek_of_mem ends member, seek_of_mem otherEnds otherMember, same.name, same.isDefinition]
    split
    · have onward := (further alike).dropBlanks
      simp only [Place.skipBlanks, Place.skipWhile, ← dropBlanks_append] at onward
      exact .some (matches_of_alike _ onward)
    · exact .none

theorem all_matches {first second : List Char}
    (alike : Alike false (first.dropWhile isBlank) (second.dropWhile isBlank)) :
    List.Forall₂ Matches (all first) (all second) := by
  have starts : (Place.start first).skipBlanks.Alike false (Place.start second).skipBlanks := alike
  have classes : List.Forall₂ Matches (methods first) (methods second) := by
    refine List.rel_flatMap (occurrences_alike endsInLine_class respects_class starts) ?_
    rintro ⟨place, name⟩ ⟨other, _⟩ ⟨rfl, alike⟩
    exact ofClass_matches name alike
  have declared := search_matches (endsInLine_of_reads reads_function) respects_function alike
  have members := search_matches (endsInLine_of_reads reads_prototype) respects_prototype alike
  have properties := search_matches (endsInLine_of_reads reads_assigned) respects_assigned alike
  exact List.rel_append (List.rel_append (List.rel_append declared members) properties) classes

end Finding

/-- Tables that contain the same keys list the same keys. -/
theorem Table.keys_eq {α κ : Type} [LT κ] [LE κ] [Std.IsLinearOrder κ] [Std.LawfulOrderLT κ]
    [DecidableEq κ] {key : α → κ} {table other : Table key}
    (same : ∀ k, table.contains k = other.contains k) : table.keys = other.keys := by
  let row (table : Table key) : Table (id : κ → κ) := ⟨table.keys, table.sorted_keys⟩
  have rows : row table = row other := by
    refine ext_get? fun k => Option.ext fun found => ?_
    rw [get?_eq_some_iff, get?_eq_some_iff]
    simp only [row, mem_keys_iff, same]
  exact congrArg Table.rows rows

namespace Catalog

variable {first second : String}

/-- Under every key the catalogs of two texts of the same layout have matching definitions. -/
theorem get?_matches (layout : SameLayout first.toList second.toList) (key : String) :
    Option.Rel Definition.Matches ((ofText first).get? key) ((ofText second).get? key) := by
  rw [ofText, ofText, get?_ofFindings, get?_ofFindings]
  have findings := List.rel_reverse (Finding.all_matches layout.alike)
  refine rel_map (rel_find? findings ?_) fun _ _ same => same.definition
  intro finding other same
  rw [Finding.key, Finding.key, same.identity]

theorem contains_eq (layout : SameLayout first.toList second.toList) (key : String) :
    (ofText first).contains key = (ofText second).contains key :=
  rel_isSome (get?_matches layout key)

/-- A change of layout that keeps words apart and lines broken where they were leaves no trace: the
catalogs have the same keys, the definitions differ in the layout of their bodies at most, and the
comparison lists no key as added, removed or changed. -/
theorem ofText_of_sameLayout (first second : String)
    (layout : SameLayout first.toList second.toList) :
    (ofText first).keys = (ofText second).keys ∧
      (∀ key, Option.Rel Definition.Matches ((ofText first).get? key)
        ((ofText second).get? key)) ∧
      (Revision.mk (ofText first) (ofText second)).comparison.added = [] ∧
      (Revision.mk (ofText first) (ofText second)).comparison.removed = [] ∧
      (Revision.mk (ofText first) (ofText second)).comparison.changed = [] := by
  have unchanged (key : String) :
      (Revision.mk (ofText first) (ofText second)).agree? key ≠ some false := by
    have same := get?_matches layout key
    simp only [Revision.agree?]
    generalize (ofText first).get? key = old at same ⊢
    generalize (ofText second).get? key = new at same ⊢
    cases same with
    | none => simp
    | some same => simp [same.digest]
  refine ⟨Table.keys_eq (contains_eq layout), get?_matches layout, ?_⟩
  simp only [Revision.comparison, List.filter_eq_nil_iff]
  refine ⟨fun key member => ?_, fun key member => ?_, fun key _ => ?_⟩
  · simpa [contains_eq layout] using Table.mem_keys_iff.mp member
  · simpa [contains_eq layout] using Table.mem_keys_iff.mp member
  · simpa using unchanged key

/-- A method is moved to a line of its own indentation and its blanks are doubled. -/
theorem ofText_of_sameLayout_reindented :
    SameLayout "class A \x7b\nm(x) \x7b return x; \x7d\n\x7d".toList
        "\n  class  A \x7b\r\n\tm(x) \x7b  return x; \x7d\n\x7d\n".toList ∧
      (ofText "class A \x7b\nm(x) \x7b return x; \x7d\n\x7d").keys = ["class:A.m"] ∧
      (ofText "\n  class  A \x7b\r\n\tm(x) \x7b  return x; \x7d\n\x7d\n").keys =
        ["class:A.m"] := by
  have layout : SameLayout "class A \x7b\nm(x) \x7b return x; \x7d\n\x7d".toList
      "\n  class  A \x7b\r\n\tm(x) \x7b  return x; \x7d\n\x7d\n".toList :=
    ⟨by decide, by decide⟩
  have keys : (ofText "class A \x7b\nm(x) \x7b return x; \x7d\n\x7d").keys = ["class:A.m"] := by
    decide +kernel
  exact ⟨layout, keys, (ofText_of_sameLayout _ _ layout).1 ▸ keys⟩

end Catalog

end ScriptDelta

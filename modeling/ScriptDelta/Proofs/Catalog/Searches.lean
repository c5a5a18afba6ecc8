import Mathlib.Data.List.Perm.Basic
import ScriptDelta.Proofs.Catalog.Names

/-! # The four searches are independent

A key tells the identity that it belongs to. In general it does not: a class `a.b` with a method `c`
has the key of a class `a` with a method `b.c`. But no name that a header is read with has a period
(`Finding.identity_eq_of_key_eq`). So definitions of different kinds never share a key, and the
searches of a text may file what they find in any order.
-/

namespace ScriptDelta

open Text

/-- An identity without periods in its names is known from its key, if it is known whether there is
something that it belongs to. -/
theorem Identity.Named.eq_of_key_eq {identity other : Identity} (named : identity.Named)
    (owned : identity.container.isSome = other.container.isSome)
    (same : identity.key = other.key) : identity = other := by
  have kinds := kind_eq_of_key_eq same
  have noPeriod {text : String} (wordy : Wordy text) : '.' ∉ text.toList :=
    wordy.not_mem (by decide)
  obtain ⟨kind, container, name⟩ := identity
  obtain ⟨otherKind, otherContainer, otherName⟩ := other
  obtain rfl : kind = otherKind := kinds
  have texts := congrArg String.toList same
  cases container with
  | none =>
    obtain rfl : otherContainer = none := by simpa using owned.symm
    simp only [key, String.toList_append, List.append_right_inj] at texts
    rw [String.toList_injective texts]
  | some container =>
    obtain ⟨otherContainer, rfl⟩ := Option.isSome_iff_exists.mp owned.symm
    simp only [key, String.toList_append, List.append_assoc, List.append_right_inj] at texts
    have texts : container.toList ++ '.' :: name.toList =
      otherContainer.toList ++ '.' :: otherName.toList := texts
    have noName : '.' ∉ name.toList := noPeriod named.name
    obtain ⟨containers, names⟩ := eq_of_append_period
      (noPeriod (named.container container rfl)) noName texts
    rw [String.toList_injective containers, String.toList_injective names]

example : Identity.key ⟨.method, some "a.b", "c"⟩ = Identity.key ⟨.method, some "a", "b.c"⟩ := by
  decide

namespace Finding

/-- Only free functions belong to nothing. -/
theorem isSome_container {text : List Char} {finding : Finding} (member : finding ∈ all text) :
    finding.identity.container.isSome = decide (finding.identity.kind ≠ .function) := by
  by_cases isMethod : finding.identity.kind = .method
  · have own := mem_ofKind member
    rw [isMethod] at own
    obtain ⟨⟨place, container⟩, -, own⟩ := List.mem_flatMap.mp own
    obtain ⟨⟨start, method⟩, -, made⟩ := List.mem_filterMap.mp own
    simp only [Option.ite_none_right_eq_some, Option.some.injEq] at made
    obtain ⟨-, rfl⟩ := made
    rfl
  · have topLevel := isTopLevel_of_mem member isMethod
    obtain ⟨place, ⟨kind, container, name⟩⟩ := finding
    cases kind <;> cases container <;> trivial

/-- What is found in two texts has the same key only if its headers name the same. -/
theorem identity_eq_of_key_eq {text other : List Char} {finding further : Finding}
    (member : finding ∈ all text) (memberOther : further ∈ all other)
    (same : finding.key = further.key) : finding.identity = further.identity := by
  apply (named_of_mem member).eq_of_key_eq _ same
  rw [isSome_container member, isSome_container memberOther, Identity.kind_eq_of_key_eq same]

end Finding

namespace Catalog

/-- The catalog with some findings filed in it, one after the other. -/
def file (catalog : Catalog) (findings : List Finding) : Catalog :=
  findings.foldl (fun catalog finding => catalog.insert finding.definition) catalog

/-- The catalog after a search of the text for definitions of one kind. -/
def search (text : String) (catalog : Catalog) (kind : Kind) : Catalog :=
  catalog.file (Finding.ofKind text.toList kind)

theorem file_append (catalog : Catalog) (findings more : List Finding) :
    catalog.file (findings ++ more) = (catalog.file findings).file more :=
  List.foldl_append ..

/-- A lookup finds the definition of the last finding with the key, or what was there before. -/
theorem get?_file (catalog : Catalog) (findings : List Finding) (k : String) :
    (catalog.file findings).get? k =
      ((findings.reverse.find? fun finding => finding.key = k).map Finding.definition).or
        (catalog.get? k) := by
  induction findings using List.reverseRecOn with
  | nil => rfl
  | append_singleton findings finding ih =>
    have written : catalog.file (findings ++ [finding]) =
        (catalog.file findings).insert finding.definition := file_append ..
    have ownKey : finding.definition.key = finding.key := rfl
    rw [written, Table.get?_insert, ih, ownKey, List.reverse_append, List.reverse_singleton,
      List.singleton_append, List.find?_cons]
    by_cases same : finding.key = k <;> simp [same]

/-- Searches for different kinds file nothing under the same key. -/
theorem search_comm (text : String) (catalog : Catalog) (kind other : Kind) :
    search text (search text catalog kind) other =
      search text (search text catalog other) kind := by
  by_cases sameKind : kind = other
  · rw [sameKind]
  apply Table.ext_get?
  intro k
  simp only [search, get?_file]
  cases found : (Finding.ofKind text.toList kind).reverse.find? fun finding => finding.key = k with
  | none => simp
  | some finding =>
    cases foundOther : (Finding.ofKind text.toList other).reverse.find? fun finding =>
      finding.key = k with
    | none => simp
    | some further =>
      have isKind := Finding.kind_of_mem_ofKind
        (List.mem_reverse.mp (List.mem_of_find?_eq_some found))
      have isOther := Finding.kind_of_mem_ofKind
        (List.mem_reverse.mp (List.mem_of_find?_eq_some foundOther))
      have key : finding.key = k := by simpa using List.find?_some found
      have keyOther : further.key = k := by simpa using List.find?_some foundOther
      have same := Identity.kind_eq_of_key_eq (key.trans keyOther.symm)
      exact absurd (isKind.symm.trans (same.trans isOther)) sameKind

/-- Everything found in a text, filed in the order of discovery, makes its catalog. -/
theorem file_empty_all (text : String) : file .empty (Finding.all text.toList) = ofText text := by
  apply Table.ext_get?
  intro k
  have nothing : (Table.empty : Catalog).get? k = none := rfl
  rw [get?_file, nothing, Option.or_none, ofText, get?_ofFindings]

/-- The four searches, one after the other, make the catalog of a text. -/
theorem foldl_search_empty (text : String) :
    [Kind.function, .prototype, .assigned, .method].foldl (search text) .empty = ofText text := by
  rw [← file_empty_all]
  simp only [Finding.all, file_append]
  rfl

end Catalog

/-- What is found in any two texts has the same key only if it is of the same kind, belongs to the
same and has the same name. Searching a text for the four kinds of definitions, in whatever order,
adds the same to a catalog; from the empty catalog it makes that of the text. -/
theorem searches_independent (text : String) :
    (∀ other : String, ∀ finding ∈ Finding.all text.toList,
      ∀ further ∈ Finding.all other.toList, finding.key = further.key →
        finding.identity.kind = further.identity.kind ∧
        finding.identity.container = further.identity.container ∧
        finding.identity.name = further.identity.name) ∧
    ∀ order : List Kind, order.Perm [.function, .prototype, .assigned, .method] →
      (∀ catalog : Catalog, order.foldl (Catalog.search text) catalog =
        [Kind.function, .prototype, .assigned, .method].foldl (Catalog.search text) catalog) ∧
      order.foldl (Catalog.search text) .empty = Catalog.ofText text := by
  have anyOrder (order : List Kind) (perm : order.Perm [.function, .prototype, .assigned, .method])
      (catalog : Catalog) : order.foldl (Catalog.search text) catalog =
        [Kind.function, .prototype, .assigned, .method].foldl (Catalog.search text) catalog :=
    perm.foldl_eq' (fun kind _ other _ catalog => Catalog.search_comm text catalog kind other)
      catalog
  refine ⟨?_, fun order perm => ⟨anyOrder order perm, ?_⟩⟩
  · intro other finding member further memberOther same
    have identities := Finding.identity_eq_of_key_eq member memberOther same
    rw [identities]
    exact ⟨rfl, rfl, rfl⟩
  · rw [anyOrder order perm, Catalog.foldl_search_empty]

end ScriptDelta

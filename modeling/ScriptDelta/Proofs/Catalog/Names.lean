import ScriptDelta.Proofs.Catalog.Recognition

/-! # The names in keys

Whatever is found in a text is named by names: the class or object that it belongs to and the
definition itself. So a key holds only what its kind and its names are made of, and neither a key
nor a signature holds a line feed (`Catalog.oneLine_ofText`).
-/

namespace ScriptDelta

open Text Header

/-- The text has only characters that may stand in a name. -/
def Text.Wordy (text : String) : Prop :=
  ∀ c ∈ text.toList, isNamePart c = true

instance (text : String) : Decidable (Wordy text) :=
  List.decidableBAll (fun c => isNamePart c = true) text.toList

/-- The definition and what it belongs to are named by texts like names. -/
structure Identity.Named (identity : Identity) : Prop where
  name : Wordy identity.name
  container : ∀ container ∈ identity.container, Wordy container

theorem Text.IsName.wordy {name : List Char} (isName : IsName name) :
    Wordy (String.ofList name) := by
  intro c member
  rw [String.toList_ofList] at member
  exact isName.parts member

theorem Header.Form.named {identity : Identity} {header : List Char}
    (form : Form identity header) : identity.Named := by
  cases form with
  | function _ _ isName => exact ⟨isName.wordy, by simp⟩
  | prototype isOwner isName | assigned isOwner isName =>
    exact ⟨isName.wordy, by simp [isOwner.wordy]⟩

section reading

variable {place stop : Place}

/-- The name of a class is a name, or a part of one. -/
theorem wordy_of_class? {name : String} (read : class? place = some (name, stop)) :
    Wordy name := by
  simp only [class?, bind, Option.bind_eq_some_iff] at read
  obtain ⟨_, -, _, -, ⟨own, after⟩, named, read⟩ := read
  have isName := (Place.name?_eq_some_iff.mp named).1
  split at read
  next =>
    obtain ⟨rfl, -⟩ := Prod.mk.inj (Option.some.inj read)
    exact isName.wordy
  next =>
    simp only [Option.bind_eq_some_iff] at read
    obtain ⟨stem, isStem, _, -, made⟩ := read
    obtain ⟨rfl, -⟩ := Prod.mk.inj (Option.some.inj made)
    simp only [stem?, Option.ite_none_right_eq_some, Option.some.injEq] at isStem
    obtain ⟨-, rfl⟩ := isStem
    intro c member
    rw [String.toList_ofList] at member
    exact isName.parts (List.mem_of_mem_take member)

theorem wordy_of_named? {method : Method} (read : named? place = some (method, stop)) :
    Wordy (String.ofList method.name) := by
  simp only [named?, bind, Option.bind_eq_some_iff] at read
  obtain ⟨⟨name, _⟩, named, _, -, _, -, _, -, made⟩ := read
  obtain ⟨rfl, -⟩ := Prod.mk.inj (Option.some.inj made)
  exact (Place.name?_eq_some_iff.mp named).1.wordy

theorem wordy_of_method? {method : Method} (read : method? place = some (method, stop)) :
    Wordy (String.ofList method.name) := by
  obtain marked | ⟨-, plain⟩ := Option.or_eq_some_iff.mp read
  · simp only [bind, Option.bind_eq_some_iff] at marked
    obtain ⟨_, -, _, -, named⟩ := marked
    exact wordy_of_named? named
  · exact wordy_of_named? plain

end reading

theorem Finding.named_of_mem_methods {text : List Char} {finding : Finding}
    (member : finding ∈ methods text) : finding.identity.Named := by
  simp only [methods, List.mem_flatMap] at member
  obtain ⟨⟨place, owner⟩, isClass, member⟩ := member
  simp only [ofClass, List.mem_filterMap] at member
  obtain ⟨⟨start, method⟩, isMethod, made⟩ := member
  obtain ⟨-, _, readClass⟩ := read_of_mem_occurrences isClass
  obtain ⟨-, _, readMethod⟩ := read_of_mem_occurrences isMethod
  split at made
  · obtain rfl := Option.some.inj made
    exact ⟨wordy_of_method? readMethod, by simp [wordy_of_class? readClass]⟩
  · contradiction

/-- Everything that is found in a text is named by texts like names. -/
theorem Finding.named_of_mem {text : List Char} {finding : Finding}
    (member : finding ∈ Finding.all text) : finding.identity.Named := by
  have named (kind : Kind) (member : finding ∈ ofKind text kind) : finding.identity.Named := by
    by_cases topLevel : kind = .method
    · subst topLevel
      exact named_of_mem_methods member
    · obtain ⟨read?, reads, own⟩ := exists_reads topLevel text
      rw [own, mem_search_iff] at member
      obtain ⟨-, stop, read⟩ := read_of_mem_occurrences member
      obtain ⟨-, header, form, -⟩ := (reads _ _ _).mp read
      exact form.named
  simp only [all, List.mem_append] at member
  obtain ((isFunction | isPrototype) | isAssigned) | isMethod := member
  · exact named .function isFunction
  · exact named .prototype isPrototype
  · exact named .assigned isAssigned
  · exact named .method isMethod

theorem Text.Wordy.not_mem {text : String} (wordy : Wordy text) {c : Char}
    (noPart : isNamePart c = false) : c ∉ text.toList := by
  intro member
  rw [wordy c member] at noPart
  contradiction

/-- A key holds only the letters of its kind, a colon, a period and characters of names. -/
theorem Identity.Named.not_mem_key {identity : Identity} (named : identity.Named) {c : Char}
    (noPart : isNamePart c = false) (others : c ≠ ':' ∧ c ≠ '.') : c ∉ identity.key.toList := by
  have absent {text : String} (wordy : Wordy text) : c ∉ text.toList := wordy.not_mem noPart
  have word : Wordy identity.kind.keyWord := by
    cases identity.kind <;> decide
  cases owned : identity.container with
  | none =>
    have inKey : identity.key.toList =
        identity.kind.keyWord.toList ++ ':' :: identity.name.toList := by
      simp [key, owned, String.toList_append]
    rw [inKey, List.mem_append, List.mem_cons, not_or, not_or]
    exact ⟨absent word, others.1, absent named.name⟩
  | some container =>
    have inKey : identity.key.toList = identity.kind.keyWord.toList ++ ':' ::
        (container.toList ++ '.' :: identity.name.toList) := by
      simp [key, owned, String.toList_append]
    rw [inKey, List.mem_append, List.mem_cons, List.mem_append, List.mem_cons]
    simp only [not_or]
    exact ⟨absent word, others.1, absent (named.container container owned), others.2,
      absent named.name⟩

/-- A signature stands on one line. -/
theorem Identity.Named.feed_not_mem_signature {identity : Identity} (named : identity.Named) :
    '\n' ∉ identity.signature.toList := by
  have inName : '\n' ∉ identity.name.toList := named.name.not_mem (by decide)
  have inContainer : '\n' ∉ (identity.container.getD "").toList := by
    cases owned : identity.container with
    | none => simp
    | some container => exact (named.container container owned).not_mem (by decide)
  cases kind : identity.kind <;>
    simp [signature, kind, String.toList_append, inName, inContainer]

/-- Neither keys nor signatures hold line feeds. -/
def Catalog.OneLine (catalog : Catalog) : Prop :=
  ∀ key definition, catalog.get? key = some definition →
    '\n' ∉ definition.key.toList ∧ '\n' ∉ definition.signature.toList

theorem Catalog.oneLine_ofText (text : String) : (ofText text).OneLine := by
  intro key definition found
  obtain ⟨finding, member, -, rfl⟩ := exists_finding_of_get? found
  have named := Finding.named_of_mem member
  exact ⟨named.not_mem_key (by decide) (by decide), named.feed_not_mem_signature⟩

/-- No key of a text holds a line feed. -/
theorem Catalog.feed_not_mem_key {text key : String} {definition : Definition}
    (found : (ofText text).get? key = some definition) : '\n' ∉ definition.key.toList :=
  (oneLine_ofText text key definition found).1

end ScriptDelta

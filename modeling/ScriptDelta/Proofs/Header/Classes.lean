import ScriptDelta.Header
import ScriptDelta.Proofs.Place.Passing

/-! # The headers of classes

`ClassForm` says what a header of a class looks like, from the word `class` through the brace that
opens the body. Neither a name nor a parent has a brace, so that brace is the first one.
-/

namespace ScriptDelta.Header

open Text

/-- The name of a parent may hold periods. -/
def IsParent (parent : List Char) : Prop :=
  ∃ name more, parent = name ++ more ∧ IsName name ∧
    ∀ c ∈ more, (isNamePart c || c == '.') = true

/-- The text is a header of a class with the name. -/
inductive ClassForm : String → List Char → Prop
  /-- The form `class NAME {`. -/
  | base {gap name space : List Char} :
      gap ≠ [] → AllBlank gap → IsName name → AllBlank space →
      ClassForm (String.ofList name) ("class".toList ++ (gap ++ (name ++ (space ++ ['\x7b']))))
  /-- The form `class NAME extends PARENT {`. No blank needs to stand after the name. -/
  | derived {gap name space between parent after : List Char} :
      gap ≠ [] → AllBlank gap → IsName name → AllBlank space →
      between ≠ [] → AllBlank between → IsParent parent → AllBlank after →
      ClassForm (String.ofList name) ("class".toList ++ (gap ++ (name ++ (space ++
        ("extends".toList ++ (between ++ (parent ++ (after ++ ['\x7b']))))))))

section

variable {place stop : Place}

theorem parent?_passes (read : parent? place = some stop) :
    ∃ between parent after, between ≠ [] ∧ AllBlank between ∧ IsParent parent ∧ AllBlank after ∧
      place.Passes (between ++ (parent ++ (after ++ ['\x7b']))) stop := by
  simp only [parent?, bind, Option.bind_eq_some_iff] at read
  obtain ⟨first, isGap, ⟨name, named⟩, isName, brace⟩ := read
  obtain ⟨between, occupied, blank, toName, -⟩ := Place.skipBlanks?_eq_some_iff.mp isGap
  obtain ⟨isName, toNamed, -⟩ := Place.name?_eq_some_iff.mp isName
  obtain ⟨more, parts, toMore, -⟩ := Place.skipWhile_eq_iff.mp
    (Eq.refl (named.skipWhile fun c => isNamePart c || c == '.'))
  obtain ⟨after, afterBlank, toAfter, -⟩ := Place.skipBlanks_eq_iff.mp
    (Eq.refl (named.skipWhile fun c => isNamePart c || c == '.').skipBlanks)
  have toBrace := Place.skip?_eq_some_iff.mp brace
  refine ⟨between, name ++ more, after, occupied, blank, ⟨name, more, rfl, isName, parts⟩,
    afterBlank, ?_⟩
  have passes := toName.trans (toNamed.trans (toMore.trans (toAfter.trans toBrace)))
  rwa [List.append_assoc]

/-- What is left of a name before a final `extends` is a name. -/
theorem isName_of_stem? {name stem : List Char} (isName : IsName name)
    (isStem : stem? name = some stem) : IsName stem ∧ name = stem ++ "extends".toList := by
  simp only [stem?, Option.ite_none_right_eq_some, Option.some.injEq, Bool.and_eq_true,
    decide_eq_true_eq] at isStem
  obtain ⟨⟨whole, occupied⟩, rfl⟩ := isStem
  refine ⟨?_, whole.symm⟩
  generalize name.take (name.length - "extends".length) = stem at whole occupied ⊢
  obtain ⟨first, rest, rfl, start, parts⟩ := isName
  cases stem with
  | nil => contradiction
  | cons c stem =>
    obtain ⟨rfl, rfl⟩ := List.cons.inj whole
    exact ⟨c, stem, rfl, start, fun d member => parts d (List.mem_append_left _ member)⟩

/-- What is read as the header of a class is one. -/
theorem classForm_of_class? {name : String} (read : class? place = some (name, stop)) :
    ∃ header, ClassForm name header ∧ place.Passes header stop := by
  simp only [class?, bind, Option.bind_eq_some_iff] at read
  obtain ⟨word, isWord, first, isGap, ⟨own, named⟩, isName, read⟩ := read
  have toWord := Place.skip?_eq_some_iff.mp isWord
  obtain ⟨gap, occupied, blank, toName, -⟩ := Place.skipBlanks?_eq_some_iff.mp isGap
  obtain ⟨isName, toNamed, -⟩ := Place.name?_eq_some_iff.mp isName
  obtain ⟨space, spaceBlank, toSpace, -⟩ := Place.skipBlanks_eq_iff.mp (Eq.refl named.skipBlanks)
  split at read
  next later found =>
    obtain ⟨rfl, rfl⟩ := Prod.mk.inj (Option.some.inj read)
    rcases Option.or_eq_some_iff.mp found with brace | ⟨-, derived⟩
    · refine ⟨_, .base occupied blank isName spaceBlank, ?_⟩
      exact toWord.trans (toName.trans (toNamed.trans
        (toSpace.trans (Place.skip?_eq_some_iff.mp brace))))
    · obtain ⟨extended, isExtends, isParent⟩ := Option.bind_eq_some_iff.mp derived
      obtain ⟨between, parent, after, present, betweenBlank, isParent, afterBlank, toBrace⟩ :=
        parent?_passes isParent
      refine ⟨_, .derived occupied blank isName spaceBlank present betweenBlank isParent
        afterBlank, ?_⟩
      exact toWord.trans (toName.trans (toNamed.trans
        (toSpace.trans ((Place.skip?_eq_some_iff.mp isExtends).trans toBrace))))
  next =>
    -- the word `extends` is run into the name
    simp only [Option.bind_eq_some_iff] at read
    obtain ⟨stem, isStem, later, isParent, made⟩ := read
    obtain ⟨rfl, rfl⟩ := Prod.mk.inj (Option.some.inj made)
    obtain ⟨stemIsName, rfl⟩ := isName_of_stem? isName isStem
    obtain ⟨between, parent, after, present, betweenBlank, isParent, afterBlank, toBrace⟩ :=
      parent?_passes isParent
    have nothing : AllBlank [] := by simp [AllBlank]
    refine ⟨_, .derived occupied blank stemIsName nothing present betweenBlank isParent afterBlank,
      ?_⟩
    have passes := toWord.trans (toName.trans (toNamed.trans toBrace))
    simpa only [List.append_assoc, List.nil_append] using passes

end

theorem IsParent.not_mem {parent : List Char} (isParent : IsParent parent) {c : Char}
    (noPart : isNamePart c = false) (noPeriod : c ≠ '.') : c ∉ parent := by
  obtain ⟨name, more, rfl, isName, parts⟩ := isParent
  rw [List.mem_append, not_or]
  refine ⟨isName.not_mem noPart, fun member => ?_⟩
  simpa [noPart, noPeriod] using parts c member

/-- The brace that ends the header of a class is the only one in it. -/
theorem ClassForm.exists_front {name : String} {header : List Char} (form : ClassForm name header) :
    ∃ front, header = front ++ ['\x7b'] ∧ '\x7b' ∉ front := by
  have inGap {gap : List Char} (blank : AllBlank gap) : '\x7b' ∉ gap := blank.not_mem (by decide)
  have inName {name : List Char} (isName : IsName name) : '\x7b' ∉ name :=
    isName.not_mem (by decide)
  cases form with
  | @base gap name space _ blank isName spaceBlank =>
    refine ⟨"class".toList ++ (gap ++ (name ++ space)), by simp only [List.append_assoc], ?_⟩
    simp [inGap blank, inName isName, inGap spaceBlank]
  | @derived gap name space between parent after _ blank isName spaceBlank _ betweenBlank isParent
      afterBlank =>
    have inParent : '\x7b' ∉ parent := isParent.not_mem (by decide) (by decide)
    refine ⟨"class".toList ++ (gap ++ (name ++ (space ++ ("extends".toList ++ (between ++
      (parent ++ after)))))), by simp only [List.append_assoc], ?_⟩
    simp [inGap blank, inName isName, inGap spaceBlank, inGap betweenBlank, inParent,
      inGap afterBlank]

end ScriptDelta.Header

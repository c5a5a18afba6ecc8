import ScriptDelta.Proofs.Header.Grammar
import ScriptDelta.Proofs.Text.Layout

/-! # Headers and layout

The readers of headers make the same of texts that are alike: they find a header in both or in
neither, it has the same names, and the texts go on alike after it. A blank that one reader demands
and the end of the other text may stand for each other; what comes next fails on both.
-/

namespace ScriptDelta

open Text

/-- The texts at the two places are alike. -/
def Place.Alike (exact : Bool) (place other : Place) : Prop :=
  Text.Alike exact place.rest other.rest

section

variable {α β γ δ : Type} {related : α → β → Prop} {next : γ → δ → Prop}

theorem rel_refl (x : Option α) : Option.Rel Eq x x := by
  cases x with
  | none => exact .none
  | some a => exact .some rfl

theorem rel_isSome {x : Option α} {y : Option β} (rel : Option.Rel related x y) :
    x.isSome = y.isSome := by
  cases rel <;> rfl

theorem rel_bind {x : Option α} {y : Option β} {f : α → Option γ} {g : β → Option δ}
    (first : Option.Rel related x y) (further : ∀ a b, related a b → Option.Rel next (f a) (g b)) :
    Option.Rel next (x.bind f) (y.bind g) := by
  cases first with
  | none => exact .none
  | some related => exact further _ _ related

theorem rel_map {x : Option α} {y : Option β} {f : α → γ} {g : β → δ}
    (first : Option.Rel related x y) (further : ∀ a b, related a b → next (f a) (g b)) :
    Option.Rel next (x.map f) (y.map g) := by
  cases first with
  | none => exact .none
  | some related => exact .some (further _ _ related)

theorem rel_or {x more : Option α} {y other : Option β} (first : Option.Rel related x y)
    (second : Option.Rel related more other) : Option.Rel related (x.or more) (y.or other) := by
  cases first with
  | none => exact second
  | some related => exact .some related

end

namespace Place.Alike

variable {exact : Bool} {place other : Place}

theorem skipBlanks (alike : place.Alike exact other) :
    place.skipBlanks.Alike exact other.skipBlanks :=
  Text.Alike.dropBlanks alike

theorem skip? (alike : place.Alike exact other) {word : String}
    (noBlank : NoBlank word.toList) :
    Option.Rel (Alike exact) (place.skip? word) (other.skip? word) :=
  rel_map (Text.Alike.isPrefixOf? noBlank alike) fun _ _ alike => alike

theorem skipWhile (alike : place.Alike exact other) {keep : Char → Bool}
    (noBlank : ∀ c, keep c = true → isBlank c = false) :
    (place.skipWhile keep).Alike exact (other.skipWhile keep) :=
  (Text.Alike.takeWhile noBlank alike).2

theorem name? (alike : place.Alike exact other) :
    Option.Rel (fun x y => x.1 = y.1 ∧ x.2.Alike exact y.2) place.name? other.name? := by
  have start : ∀ c, isNameStart c = true → isBlank c = false := fun c isStart =>
    not_isBlank_of_isNamePart (isNamePart_of_isNameStart isStart)
  have part : ∀ c, isNamePart c = true → isBlank c = false := fun c => not_isBlank_of_isNamePart
  simp only [Place.name?, Text.Alike.head?_any start alike]
  split
  · exact .some (Text.Alike.takeWhile part alike)
  · exact .none

/-- Blanks are demanded of both texts. At the end of one the other may have some, but then what
reads on finds nothing. -/
theorem skipBlanks?_bind {α : Type} {related : α → α → Prop} {f : Place → Option α}
    (alike : place.Alike exact other)
    (atEnd : ∀ place : Place, place.rest = [] → f place = none)
    (further : ∀ place other : Place, place.Alike exact other →
      Option.Rel related (f place) (f other)) :
    Option.Rel related (place.skipBlanks?.bind f) (other.skipBlanks?.bind f) := by
  obtain ⟨offset, rest⟩ := place
  obtain ⟨otherOffset, otherRest⟩ := other
  have skipped := further _ _ alike.skipBlanks
  simp only [Place.skipBlanks?]
  simp only [Alike] at alike
  cases alike with
  | ends left right =>
    have none : f (Place.mk offset rest).skipBlanks = none :=
      atEnd _ (List.dropWhile_eq_nil_iff.mpr left)
    have otherNone : f (Place.mk otherOffset otherRest).skipBlanks = Option.none :=
      atEnd _ (List.dropWhile_eq_nil_iff.mpr right)
    split <;> split <;> simp only [Option.bind_some, Option.bind_none, none, otherNone] <;>
      exact .none
  | @next gap other first second c same solid _ =>
    have blanks {gap : List Char} (blank : AllBlank gap) (text : List Char) :
        (gap ++ c :: text).head?.any isBlank = !gap.isEmpty := by
      cases gap with
      | nil => simpa using solid
      | cons d gap => simpa using blank d (List.mem_cons_self ..)
    have sameBlanks : gap.isEmpty = other.isEmpty := by
      rw [Bool.eq_iff_iff, List.isEmpty_iff, List.isEmpty_iff]
      exact same.nil_iff
    rw [blanks same.left, blanks same.right, sameBlanks]
    split
    · exact skipped
    · exact .none

end Place.Alike

namespace Header

/-- What is read of texts that are alike is related, and the texts go on alike. -/
def Respects {α : Type} (read? : Place → Option (α × Place)) (related : α → α → Prop) : Prop :=
  ∀ {exact place other}, Place.Alike exact place other →
    Option.Rel (fun x y => related x.1 y.1 ∧ x.2.Alike exact y.2) (read? place) (read? other)

variable {exact : Bool} {place other : Place}

theorem respects_function : Respects function? Eq := by
  intro exact place other alike
  refine rel_bind (alike.skip? (by decide)) fun _ _ alike => alike.skipBlanks?_bind ?_ ?_
  · intro place empty
    simp [Place.name?, empty]
  · intro place other alike
    refine rel_bind alike.name? ?_
    rintro ⟨name, place⟩ ⟨_, other⟩ ⟨rfl, alike⟩
    exact rel_bind (alike.skipBlanks.skip? (by decide)) fun _ _ alike => .some ⟨rfl, alike⟩

theorem assignment?_alike (alike : place.Alike exact other) :
    Option.Rel (Place.Alike exact) (assignment? place) (assignment? other) :=
  rel_bind (alike.skipBlanks.skip? (by decide)) fun _ _ alike =>
    rel_bind (alike.skipBlanks.skip? (by decide)) fun _ _ alike =>
      alike.skipBlanks.skip? (by decide)

theorem respects_member (kind : Kind) {word : String} (noBlank : NoBlank word.toList) :
    Respects (member? kind word) Eq := by
  intro exact place other alike
  refine rel_bind alike.name? ?_
  rintro ⟨owner, place⟩ ⟨_, other⟩ ⟨rfl, alike⟩
  refine rel_bind (alike.skip? noBlank) fun _ _ alike => rel_bind alike.name? ?_
  rintro ⟨name, place⟩ ⟨_, other⟩ ⟨rfl, alike⟩
  exact rel_bind (assignment?_alike alike) fun _ _ alike => .some ⟨rfl, alike⟩

theorem respects_prototype : Respects prototype? Eq := by
  have noBlank : NoBlank ".prototype.".toList := by decide
  change Respects (member? .prototype ".prototype.") Eq
  exact respects_member .prototype noBlank

theorem respects_assigned : Respects assigned? Eq := by
  have noBlank : NoBlank ".".toList := by decide
  change Respects (member? .assigned ".") Eq
  exact respects_member .assigned noBlank

theorem parent?_alike (alike : place.Alike exact other) :
    Option.Rel (Place.Alike exact) (parent? place) (parent? other) := by
  refine alike.skipBlanks?_bind ?_ ?_
  · intro place empty
    simp [Place.name?, empty]
  · intro place other alike
    refine rel_bind alike.name? ?_
    rintro ⟨name, place⟩ ⟨_, other⟩ ⟨-, alike⟩
    have part : ∀ c, (isNamePart c || c == '.') = true → isBlank c = false := by
      intro c kept
      rcases Bool.or_eq_true_iff.mp kept with part | period
      · exact not_isBlank_of_isNamePart part
      · rw [beq_iff_eq.mp period]
        decide
    exact (alike.skipWhile part).skipBlanks.skip? (by decide)

theorem respects_class : Respects class? Eq := by
  intro exact place other alike
  refine rel_bind (alike.skip? (by decide)) fun _ _ alike => alike.skipBlanks?_bind ?_ ?_
  · intro place empty
    simp [Place.name?, empty]
  · intro place other alike
    refine rel_bind alike.name? ?_
    rintro ⟨name, place⟩ ⟨_, other⟩ ⟨rfl, alike⟩
    have derived : Option.Rel (Place.Alike exact)
        ((place.skipBlanks.skip? "extends").bind parent?)
        ((other.skipBlanks.skip? "extends").bind parent?) :=
      rel_bind (alike.skipBlanks.skip? (by decide)) fun _ _ => parent?_alike
    have base : Option.Rel (Place.Alike exact) (place.skipBlanks.skip? "\x7b")
        (other.skipBlanks.skip? "\x7b") := alike.skipBlanks.skip? (by decide)
    have either := rel_or base derived
    dsimp only
    generalize (place.skipBlanks.skip? "\x7b").or _ = stop at either ⊢
    generalize (other.skipBlanks.skip? "\x7b").or _ = otherStop at either ⊢
    cases either with
    | some alike => exact .some ⟨rfl, alike⟩
    | none =>
      have stems : Option.Rel Eq (stem? name) (stem? name) := rel_refl _
      refine rel_bind stems ?_
      rintro stem _ rfl
      exact rel_bind (parent?_alike alike) fun _ _ alike => .some ⟨rfl, alike⟩

/-- The parameters of a method end at corresponding places, if they end. -/
theorem parameters_alike (alike : place.Alike exact other) :
    Option.Rel (fun x y => x.Alike exact y ∧ Text.Alike true (place.rest.takeWhile (· != ')'))
        (other.rest.takeWhile (· != ')')))
      ((place.skipWhile (· != ')')).skip? ")") ((other.skipWhile (· != ')')).skip? ")") := by
  have none {place : Place} (absent : ')' ∉ place.rest) :
      (place.skipWhile (· != ')')).skip? ")" = none := by
    have nothing : place.rest.dropWhile (· != ')') = [] :=
      List.dropWhile_eq_nil_iff.mpr (bne_of_not_mem absent)
    cases skipped : (place.skipWhile (· != ')')).skip? ")" with
    | none => rfl
    | some stop =>
      have rest := (Place.skip?_eq_some_iff.mp skipped).1
      simp [Place.skipWhile, nothing] at rest
  have some {place : Place} {before after : List Char} (split : place.rest = before ++ ')' :: after)
      (absent : ')' ∉ before) : ∃ stop, (place.skipWhile (· != ')')).skip? ")" = some stop ∧
        stop.rest = after ∧ place.rest.takeWhile (· != ')') = before := by
    have taken : place.rest.takeWhile (· != ')') = before := by
      rw [split, takeWhile_append_of_stops (bne_of_not_mem absent) (by simp)]
    have dropped : place.rest.dropWhile (· != ')') = ')' :: after := by
      rw [split, List.dropWhile_append_of_pos (bne_of_not_mem absent)]
      simp
    refine ⟨⟨(place.skipWhile (· != ')')).offset + byteSize ")".toList, after⟩, ?_, rfl, taken⟩
    exact Place.skip?_eq_some_iff.mpr ⟨dropped, rfl⟩
  rcases Text.Alike.not_mem_or_exists (c := ')') (by decide) alike with
    ⟨absent, otherAbsent⟩ |
      ⟨before, after, otherBefore, otherAfter, split, otherSplit, clear, otherClear, inside, alike⟩
  · rw [none absent, none otherAbsent]
    exact .none
  · obtain ⟨stop, isStop, rest, taken⟩ := some split clear
    obtain ⟨otherStop, isOther, otherRest, otherTaken⟩ := some otherSplit otherClear
    rw [isStop, isOther, taken, otherTaken]
    refine .some ⟨?_, inside⟩
    rw [Place.Alike, rest, otherRest]
    exact alike

/-- Two method headers with the same name that are both definitions or not. -/
structure SameMethod (method other : Method) : Prop where
  name : method.name = other.name
  isDefinition : method.isDefinition = other.isDefinition

/-- A word is mentioned in both of two texts that are alike or in neither. -/
theorem mentions_alike (word : List Char) (occupied : word ≠ [])
    (noBlank : NoBlank word) {first second : List Char}
    (alike : Text.Alike exact first second) : mentions word first = mentions word second := by
  have prefixes {first second : List Char} (alike : Text.Alike exact first second) :
      word.isPrefixOf first = word.isPrefixOf second := by
    have found (text : List Char) :
        word.isPrefixOf text = true ↔ (word.isPrefixOf? text).isSome = true := by
      rw [List.isPrefixOf_iff_prefix, Option.isSome_iff_exists]
      simp only [Place.isPrefixOf?_eq_some_iff]
      exact ⟨fun ⟨rest, same⟩ => ⟨rest, same.symm⟩, fun ⟨rest, same⟩ => ⟨rest, same.symm⟩⟩
    rw [Bool.eq_iff_iff, found, found, rel_isSome (Text.Alike.isPrefixOf? noBlank alike)]
  have past {gap : List Char} (blank : AllBlank gap) (text : List Char) :
      mentions word (gap ++ text) = mentions word text := by
    induction gap with
    | nil => rfl
    | cons c gap ih =>
      have not : word.isPrefixOf (c :: (gap ++ text)) = false := by
        cases word with
        | nil => contradiction
        | cons d word =>
          have other : d ≠ c := by
            rintro rfl
            have solid := noBlank d (List.mem_cons_self ..)
            simp [blank d (List.mem_cons_self ..)] at solid
          simp [List.isPrefixOf, other]
      rw [List.cons_append, mentions, not, Bool.false_or, ih fun d member => blank d (.tail _ member)]
  induction alike with
  | ends left right =>
    have nothing {gap : List Char} (blank : AllBlank gap) : mentions word gap = false := by
      have none : word.isEmpty = false := by simpa using occupied
      have same := past blank []
      rwa [List.append_nil, mentions, none] at same
    rw [nothing left, nothing right]
  | next same solid alike ih =>
    rw [past same.left, past same.right, mentions, mentions, prefixes (alike.cons solid), ih]

theorem respects_named : Respects named? SameMethod := by
  intro exact place other alike
  refine rel_bind alike.name? ?_
  rintro ⟨name, place⟩ ⟨_, other⟩ ⟨rfl, alike⟩
  refine rel_bind (alike.skipBlanks.skip? (by decide)) fun place other alike => ?_
  refine rel_bind (parameters_alike alike) fun _ _ ⟨alike, parameters⟩ => ?_
  have noFunction := mentions_alike "function".toList (by decide) (by decide) parameters
  have noArrow := mentions_alike "=>".toList (by decide) (by decide) parameters
  have same : SameMethod ⟨name, place.rest.takeWhile (· != ')')⟩
      ⟨name, other.rest.takeWhile (· != ')')⟩ :=
    ⟨rfl, by simp only [Method.isDefinition, noFunction, noArrow]⟩
  exact rel_bind (alike.skipBlanks.skip? (by decide)) fun _ _ alike => .some ⟨same, alike⟩

theorem respects_method : Respects method? SameMethod := by
  intro exact place other alike
  refine rel_or ?_ (respects_named alike)
  refine rel_bind (alike.skip? (by decide)) fun _ _ alike => alike.skipBlanks?_bind ?_ ?_
  · intro place empty
    simp [named?, Place.name?, empty]
  · intro place other
    exact respects_named

end Header

end ScriptDelta

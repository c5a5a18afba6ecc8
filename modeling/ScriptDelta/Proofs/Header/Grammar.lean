import ScriptDelta.Header
import ScriptDelta.Proofs.Place.Passing

/-! # The grammar of headers

`Form` says what a header of a function declaration or of an assigned function looks like, from its
first word through the parenthesis that opens the parameters. The readers of such headers accept
these texts and no others, although they never give back a character that they took.
-/

namespace ScriptDelta.Header

open Text

/-- The characters `= function (`, with or without blanks between. -/
def Assignment (text : List Char) : Prop :=
  ∃ before middle after, AllBlank before ∧ AllBlank middle ∧ AllBlank after ∧
    text = before ++ '=' :: (middle ++ ("function".toList ++ (after ++ ['('])))

/-- The text is a header of a definition with the identity. -/
inductive Form : Identity → List Char → Prop
  /-- The form `function NAME (`. -/
  | function {gap name space : List Char} :
      gap ≠ [] → AllBlank gap → IsName name → AllBlank space →
      Form ⟨.function, none, String.ofList name⟩
        ("function".toList ++ (gap ++ (name ++ (space ++ ['(']))))
  /-- The form `CONTAINER.prototype.NAME = function (`. -/
  | prototype {container name assignment : List Char} :
      IsName container → IsName name → Assignment assignment →
      Form ⟨.prototype, some (String.ofList container), String.ofList name⟩
        (container ++ (".prototype.".toList ++ (name ++ assignment)))
  /-- The form `OBJECT.NAME = function (`. -/
  | assigned {object name assignment : List Char} :
      IsName object → IsName name → Assignment assignment →
      Form ⟨.assigned, some (String.ofList object), String.ofList name⟩
        (object ++ (".".toList ++ (name ++ assignment)))

/-- A reader takes the headers of one kind of definition. -/
def Reads (read? : Place → Option (Identity × Place)) (kind : Kind) : Prop :=
  ∀ place identity stop, read? place = some (identity, stop) ↔
    identity.kind = kind ∧ ∃ header, Form identity header ∧ place.Passes header stop

theorem Assignment.stops {place later : Place} {assignment : List Char}
    (form : Assignment assignment) (passes : place.Passes assignment later) :
    place.rest.head?.any isNamePart = false := by
  obtain ⟨before, middle, after, blank, -, -, rfl⟩ := form
  rw [passes.1, List.append_assoc]
  exact blank.stops (by decide) _

theorem assignment?_eq_some_iff {place stop : Place} :
    assignment? place = some stop ↔ ∃ text, Assignment text ∧ place.Passes text stop := by
  simp only [assignment?, bind, Option.bind_eq_some_iff, Place.skip?_eq_some_iff]
  constructor
  · rintro ⟨equals, first, word, second, third⟩
    obtain ⟨before, beforeBlank, toEquals, -⟩ := Place.skipBlanks_eq_iff.mp (Eq.refl place.skipBlanks)
    obtain ⟨middle, middleBlank, toWord, -⟩ := Place.skipBlanks_eq_iff.mp (Eq.refl equals.skipBlanks)
    obtain ⟨after, afterBlank, toBracket, -⟩ := Place.skipBlanks_eq_iff.mp (Eq.refl word.skipBlanks)
    refine ⟨_, ⟨before, middle, after, beforeBlank, middleBlank, afterBlank, rfl⟩, ?_⟩
    exact toEquals.trans (first.trans (toWord.trans (second.trans (toBracket.trans third))))
  · rintro ⟨text, ⟨before, middle, after, beforeBlank, middleBlank, afterBlank, rfl⟩, passes⟩
    obtain ⟨atEquals, toEquals, passes⟩ := Place.Passes.append_iff.mp passes
    have passes : atEquals.Passes (['='] ++ _) stop := passes
    obtain ⟨equals, first, passes⟩ := Place.Passes.append_iff.mp passes
    obtain ⟨atWord, toWord, passes⟩ := Place.Passes.append_iff.mp passes
    obtain ⟨word, second, passes⟩ := Place.Passes.append_iff.mp passes
    obtain ⟨atBracket, toBracket, third⟩ := Place.Passes.append_iff.mp passes
    refine ⟨equals, ?_, word, ?_, ?_⟩
    · rw [Place.skipBlanks_eq_iff.mpr ⟨before, beforeBlank, toEquals, by simp [first.1]; decide⟩]
      exact first
    · rw [Place.skipBlanks_eq_iff.mpr ⟨middle, middleBlank, toWord, by simp [second.1]; decide⟩]
      exact second
    · rw [Place.skipBlanks_eq_iff.mpr ⟨after, afterBlank, toBracket, by simp [third.1]; decide⟩]
      exact third

theorem reads_function : Reads function? .function := by
  intro place identity stop
  simp only [function?, bind, Option.bind_eq_some_iff, Place.skip?_eq_some_iff,
    Place.skipBlanks?_eq_some_iff, Prod.exists, Place.name?_eq_some_iff, pure, Option.some.injEq,
    Prod.mk.injEq]
  constructor
  · rintro ⟨word, first, named, ⟨gap, occupied, blank, second, -⟩, name, ended,
      ⟨isName, third, -⟩, bracket, fourth, rfl, rfl⟩
    obtain ⟨space, spaceBlank, fifth, -⟩ := Place.skipBlanks_eq_iff.mp (Eq.refl ended.skipBlanks)
    refine ⟨rfl, _, .function occupied blank isName spaceBlank, ?_⟩
    exact first.trans (second.trans (third.trans (fifth.trans fourth)))
  · rintro ⟨kind, header, form, passes⟩
    cases form with
    | prototype | assigned => simp at kind
    | @function gap name space occupied blank isName spaceBlank =>
      obtain ⟨word, first, passes⟩ := Place.Passes.append_iff.mp passes
      obtain ⟨named, second, passes⟩ := Place.Passes.append_iff.mp passes
      obtain ⟨ended, third, passes⟩ := Place.Passes.append_iff.mp passes
      obtain ⟨bracket, fourth, fifth⟩ := Place.Passes.append_iff.mp passes
      refine ⟨word, first, named, ⟨gap, occupied, blank, second, third.1 ▸ isName.stops _⟩,
        name, ended, ⟨isName, third, ?_⟩, stop, ?_, rfl, rfl⟩
      · rw [passes.1, List.append_assoc]
        exact spaceBlank.stops (by decide) _
      · rw [Place.skipBlanks_eq_iff.mpr ⟨space, spaceBlank, fourth, by simp [fifth.1]; decide⟩]
        exact fifth

/-- Reads `OWNER`, the word between the names, `NAME` and `= function (`. -/
def member? (kind : Kind) (word : String) (place : Place) : Option (Identity × Place) := do
  let (owner, place) ← place.name?
  let place ← place.skip? word
  let (name, place) ← place.name?
  let place ← assignment? place
  return (⟨kind, some (String.ofList owner), String.ofList name⟩, place)

theorem member?_eq_some_iff {kind : Kind} {word : String} {more : List Char}
    (dot : word.toList = '.' :: more) {place stop : Place} {identity : Identity} :
    member? kind word place = some (identity, stop) ↔
      ∃ owner name assignment, IsName owner ∧ IsName name ∧ Assignment assignment ∧
        identity = ⟨kind, some (String.ofList owner), String.ofList name⟩ ∧
          place.Passes (owner ++ (word.toList ++ (name ++ assignment))) stop := by
  simp only [member?, bind, Option.bind_eq_some_iff, Place.skip?_eq_some_iff, Prod.exists,
    Place.name?_eq_some_iff, assignment?_eq_some_iff, pure, Option.some.injEq, Prod.mk.injEq]
  constructor
  · rintro ⟨owner, dotted, ⟨isOwner, first, -⟩, member, second, name, ended,
      ⟨isName, third, -⟩, bracket, ⟨assignment, form, fourth⟩, rfl, rfl⟩
    refine ⟨owner, name, assignment, isOwner, isName, form, rfl, ?_⟩
    exact first.trans (second.trans (third.trans fourth))
  · rintro ⟨owner, name, assignment, isOwner, isName, form, rfl, passes⟩
    obtain ⟨dotted, first, passes⟩ := Place.Passes.append_iff.mp passes
    obtain ⟨member, second, passes⟩ := Place.Passes.append_iff.mp passes
    obtain ⟨ended, third, fourth⟩ := Place.Passes.append_iff.mp passes
    have stops : dotted.rest.head?.any isNamePart = false := by
      rw [second.1, dot]
      exact (by decide : isNamePart '.' = false)
    exact ⟨owner, dotted, ⟨isOwner, first, stops⟩, member, second, name, ended,
      ⟨isName, third, form.stops fourth⟩, stop, ⟨assignment, form, fourth⟩, rfl, rfl⟩

theorem reads_prototype : Reads prototype? .prototype := by
  intro place identity stop
  have dot : ".prototype.".toList = '.' :: "prototype.".toList := rfl
  change member? .prototype ".prototype." place = _ ↔ _
  rw [member?_eq_some_iff dot]
  constructor
  · rintro ⟨owner, name, assignment, isOwner, isName, form, rfl, passes⟩
    exact ⟨rfl, _, .prototype isOwner isName form, passes⟩
  · rintro ⟨kind, header, form, passes⟩
    cases form with
    | function | assigned => simp at kind
    | prototype isOwner isName form => exact ⟨_, _, _, isOwner, isName, form, rfl, passes⟩

theorem reads_assigned : Reads assigned? .assigned := by
  intro place identity stop
  have dot : ".".toList = '.' :: [] := rfl
  change member? .assigned "." place = _ ↔ _
  rw [member?_eq_some_iff dot]
  constructor
  · rintro ⟨owner, name, assignment, isOwner, isName, form, rfl, passes⟩
    exact ⟨rfl, _, .assigned isOwner isName form, passes⟩
  · rintro ⟨kind, header, form, passes⟩
    cases form with
    | function | prototype => simp at kind
    | assigned isOwner isName form => exact ⟨_, _, _, isOwner, isName, form, rfl, passes⟩

end ScriptDelta.Header

import ScriptDelta.Text.Blank
import ScriptDelta.Text.WordChar

/-! # Places in a text

A place is a position in a text: the number of bytes of UTF-8 before it and the characters after
it. The readers below move a place forward and never split a character. Those marked `?` fail
where the text does not go on as they demand. Whatever they return lies further on in the same text
(`Place.Reaches`).
-/

namespace ScriptDelta

/-- The number of bytes of a text in UTF-8. -/
def Text.byteSize (text : List Char) : Nat :=
  text.foldr (fun c size => c.utf8Size + size) 0

@[simp] theorem Text.byteSize_nil : byteSize [] = 0 := rfl

@[simp] theorem Text.byteSize_cons (c : Char) (text : List Char) :
    byteSize (c :: text) = c.utf8Size + byteSize text := rfl

@[simp] theorem Text.byteSize_append (text later : List Char) :
    byteSize (text ++ later) = byteSize text + byteSize later := by
  induction text with
  | nil => simp
  | cons c text ih => simp [ih, Nat.add_assoc]

/-- A position in a text. -/
structure Place where
  /-- The number of bytes before the place. -/
  offset : Nat
  /-- The characters after the place. -/
  rest : List Char
deriving DecidableEq

namespace Place

/-- The start of a text. -/
def start (text : List Char) : Place :=
  ⟨0, text⟩

/-- The last place at or after `place` whose offset is at most `target`. -/
def seek (place : Place) (target : Nat) : Place :=
  go place.offset place.rest
where
  go (offset : Nat) : List Char → Place
    | [] => ⟨offset, []⟩
    | c :: rest =>
      if offset + c.utf8Size ≤ target then go (offset + c.utf8Size) rest else ⟨offset, c :: rest⟩

/-- The place after the longest run of characters that satisfy `keep`. -/
def skipWhile (place : Place) (keep : Char → Bool) : Place :=
  ⟨place.offset + Text.byteSize (place.rest.takeWhile keep), place.rest.dropWhile keep⟩

/-- The place after any blanks. -/
def skipBlanks (place : Place) : Place :=
  place.skipWhile Text.isBlank

/-- The place after one or more blanks. -/
def skipBlanks? (place : Place) : Option Place :=
  if place.rest.head?.any Text.isBlank then some place.skipBlanks else none

/-- The place after `word`, if the text goes on with it. -/
def skip? (place : Place) (word : String) : Option Place :=
  (word.toList.isPrefixOf? place.rest).map fun rest =>
    ⟨place.offset + Text.byteSize word.toList, rest⟩

/-- The longest name at the place, and the place after it. -/
def name? (place : Place) : Option (List Char × Place) :=
  if place.rest.head?.any Text.isNameStart then
    some (place.rest.takeWhile Text.isNamePart, place.skipWhile Text.isNamePart)
  else
    none

/-- The places just after a newline, in order. -/
def afterNewlines : Nat → List Char → List Place
  | _, [] => []
  | offset, c :: rest =>
    let next := offset + c.utf8Size
    if c = '\n' then ⟨next, rest⟩ :: afterNewlines next rest else afterNewlines next rest

/-- The place itself and the line starts after it. -/
def lineStarts (place : Place) : List Place :=
  place :: afterNewlines place.offset place.rest

/-- A place lies at or after another in the same text. -/
def Reaches (place later : Place) : Prop :=
  ∃ passed, place.rest = passed ++ later.rest ∧
    later.offset = place.offset + Text.byteSize passed

namespace Reaches

theorem refl (place : Place) : place.Reaches place :=
  ⟨[], rfl, rfl⟩

theorem trans {first middle last : Place} (left : first.Reaches middle)
    (right : middle.Reaches last) : first.Reaches last := by
  obtain ⟨passed, rest, offset⟩ := left
  obtain ⟨more, moreRest, moreOffset⟩ := right
  refine ⟨passed ++ more, by rw [rest, moreRest, List.append_assoc], ?_⟩
  rw [moreOffset, offset, Text.byteSize_append, Nat.add_assoc]

end Reaches

theorem reaches_skipWhile (place : Place) (keep : Char → Bool) :
    place.Reaches (place.skipWhile keep) :=
  ⟨place.rest.takeWhile keep, List.takeWhile_append_dropWhile.symm, rfl⟩

theorem reaches_skipBlanks (place : Place) : place.Reaches place.skipBlanks :=
  place.reaches_skipWhile _

theorem reaches_skipBlanks? {place later : Place} (skipped : place.skipBlanks? = some later) :
    place.Reaches later := by
  simp only [skipBlanks?, Option.ite_none_right_eq_some, Option.some.injEq] at skipped
  exact skipped.2 ▸ place.reaches_skipBlanks

theorem reaches_skip? {place later : Place} {word : String}
    (skipped : place.skip? word = some later) : place.Reaches later := by
  have apart (start text rest : List Char) (found : start.isPrefixOf? text = some rest) :
      text = start ++ rest := by
    induction start generalizing text with
    | nil => exact Option.some.inj found
    | cons c start ih =>
      cases text with
      | nil => contradiction
      | cons d text =>
        change (if c == d then start.isPrefixOf? text else none) = some rest at found
        simp only [Option.ite_none_right_eq_some, beq_iff_eq] at found
        rw [found.1, ih text found.2, List.cons_append]
  simp only [skip?, Option.map_eq_some_iff] at skipped
  obtain ⟨rest, found, rfl⟩ := skipped
  exact ⟨word.toList, apart _ _ _ found, rfl⟩

theorem reaches_name? {place later : Place} {name : List Char}
    (read : place.name? = some (name, later)) : place.Reaches later := by
  simp only [name?, Option.ite_none_right_eq_some, Option.some.injEq, Prod.mk.injEq] at read
  exact read.2.2 ▸ place.reaches_skipWhile _

theorem reaches_seek (place : Place) (target : Nat) : place.Reaches (place.seek target) := by
  obtain ⟨offset, rest⟩ := place
  simp only [seek]
  induction rest generalizing offset with
  | nil => exact .refl _
  | cons c rest ih =>
    simp only [seek.go]
    split
    · exact .trans ⟨[c], rfl, rfl⟩ (ih (offset + c.utf8Size))
    · exact .refl _

end Place

end ScriptDelta

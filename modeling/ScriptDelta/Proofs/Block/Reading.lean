import ScriptDelta.Block
import ScriptDelta.Proofs.Place.Passing
import ScriptDelta.Proofs.Place.Seeking

/-! # Runs of the block reader

A run is what the reader makes of a stretch of text that does not close its block. Runs compose,
and a text either is a run from end to end or has exactly one beginning that closes the block: a run
and one more character. The block at an opening brace is that beginning or the whole text, whatever
comes before the brace.
-/

namespace ScriptDelta

namespace Block

namespace Reader

/-- The reader after some characters, none of which closes the block. -/
def run (reader : Reader) (text : List Char) : Option Reader :=
  text.foldlM step reader

@[simp] theorem run_nil (reader : Reader) : reader.run [] = some reader := rfl

@[simp] theorem run_cons (reader : Reader) (c : Char) (text : List Char) :
    reader.run (c :: text) = (reader.step c).bind fun next => next.run text := rfl

/-- The text closes the block with its last character and not before. -/
def Closes (reader : Reader) (text : List Char) : Prop :=
  ∃ inside last next, text = inside ++ [last] ∧ reader.run inside = some next ∧
    next.step last = none

theorem closes_cons {reader next : Reader} {c : Char} {text : List Char}
    (stepped : reader.step c = some next) (closes : next.Closes text) :
    reader.Closes (c :: text) := by
  obtain ⟨inside, last, before, rfl, ran, stuck⟩ := closes
  exact ⟨c :: inside, last, before, rfl, by simp [stepped, ran], stuck⟩

/-- Reading on after a run. -/
theorem close?_append {reader next : Reader} {passed : List Char}
    (ran : reader.run passed = some next) (rest : List Char) :
    reader.close? (passed ++ rest) = next.close? rest := by
  induction passed generalizing reader with
  | nil =>
    obtain rfl := Option.some.inj ran
    rfl
  | cons c passed ih =>
    obtain ⟨middle, stepped, ran⟩ := Option.bind_eq_some_iff.mp ran
    simp only [List.cons_append, close?, stepped]
    exact ih ran

theorem close?_of_closes {reader : Reader} {text : List Char} (closes : reader.Closes text)
    (rest : List Char) : reader.close? (text ++ rest) = some rest := by
  obtain ⟨inside, last, next, rfl, ran, stuck⟩ := closes
  rw [List.append_assoc, close?_append ran]
  simp only [List.cons_append, List.nil_append, close?, stuck]

theorem close?_of_run {reader next : Reader} {text : List Char}
    (ran : reader.run text = some next) : reader.close? text = none := by
  simpa [close?] using close?_append ran []

/-- A text either is a run or begins with a stretch that closes the block. -/
theorem run_or_closes (reader : Reader) (text : List Char) :
    (∃ next, reader.run text = some next) ∨
      ∃ body rest, text = body ++ rest ∧ reader.Closes body := by
  induction text generalizing reader with
  | nil => exact .inl ⟨reader, rfl⟩
  | cons c text ih =>
    cases stepped : reader.step c with
    | none => exact .inr ⟨[c], text, rfl, [], c, reader, rfl, rfl, stepped⟩
    | some next =>
      rcases ih next with ⟨last, ran⟩ | ⟨body, rest, rfl, closes⟩
      · exact .inl ⟨last, by simp [stepped, ran]⟩
      · exact .inr ⟨c :: body, rest, rfl, closes_cons stepped closes⟩

/-- What follows the closing brace is what is left after a stretch that closes the block. -/
theorem close?_eq_some_iff {reader : Reader} {text rest : List Char} :
    reader.close? text = some rest ↔ ∃ body, text = body ++ rest ∧ reader.Closes body := by
  constructor
  · intro found
    rcases reader.run_or_closes text with ⟨next, ran⟩ | ⟨body, other, rfl, closes⟩
    · simp [close?_of_run ran] at found
    · rw [close?_of_closes closes] at found
      obtain rfl := Option.some.inj found
      exact ⟨body, rfl, closes⟩
  · rintro ⟨body, rfl, closes⟩
    exact close?_of_closes closes rest

/-- The block is not closed exactly if the whole text is a run. -/
theorem close?_eq_none_iff {reader : Reader} {text : List Char} :
    reader.close? text = none ↔ ∃ next, reader.run text = some next := by
  constructor
  · intro unclosed
    rcases reader.run_or_closes text with ran | ⟨body, rest, rfl, closes⟩
    · exact ran
    · simp [close?_of_closes closes] at unclosed
  · rintro ⟨next, ran⟩
    exact close?_of_run ran

end Reader

/-- Without an opening brace the block is empty. -/
theorem following_of_not_mem {place : Place} (absent : '\x7b' ∉ place.rest) :
    following place = ⟨place.offset, [], false⟩ := by
  have nothing : place.rest.dropWhile (· != '\x7b') = [] :=
    List.dropWhile_eq_nil_iff.mpr (Text.bne_of_not_mem absent)
  simp [following, Place.skipWhile, nothing]

/-- What comes before the first opening brace is passed over. -/
theorem following_append {skipped : List Char} (absent : '\x7b' ∉ skipped) (offset : Nat)
    (text : List Char) :
    following ⟨offset, skipped ++ '\x7b' :: text⟩ =
      following ⟨offset + Text.byteSize skipped, '\x7b' :: text⟩ := by
  have others := Text.bne_of_not_mem absent
  have dropped : (skipped ++ '\x7b' :: text).dropWhile (· != '\x7b') = '\x7b' :: text := by
    rw [List.dropWhile_append_of_pos others, List.dropWhile_cons_of_neg (by simp)]
  have taken : (skipped ++ '\x7b' :: text).takeWhile (· != '\x7b') = skipped := by
    rw [List.takeWhile_append_of_pos others, List.takeWhile_cons_of_neg (by simp),
      List.append_nil]
  simp [following, Place.skipWhile, dropped, taken]

/-- Text without braces in front changes neither the characters of the block nor its end. -/
theorem following_of_passes {place later : Place} {passed : List Char} (absent : '\x7b' ∉ passed)
    (passes : place.Passes passed later) :
    (following place).text = (following later).text ∧
      (following place).closed = (following later).closed := by
  by_cases member : '\x7b' ∈ later.rest
  · obtain ⟨skipped, opened, split, clear⟩ := List.eq_append_cons_of_mem member
    have laterEq : later = ⟨later.offset, skipped ++ '\x7b' :: opened⟩ := by rw [← split]
    have placeEq : place = ⟨place.offset, (passed ++ skipped) ++ '\x7b' :: opened⟩ := by
      rw [List.append_assoc, ← split, ← passes.1]
    have allClear : '\x7b' ∉ passed ++ skipped := by simp [absent, clear]
    rw [laterEq, placeEq, following_append clear, following_append allClear, passes.2,
      Text.byteSize_append, Nat.add_assoc]
    exact ⟨rfl, rfl⟩
  · have nowhere : '\x7b' ∉ place.rest := by
      rw [passes.1]
      simp [absent, member]
    rw [following_of_not_mem member, following_of_not_mem nowhere]
    exact ⟨rfl, rfl⟩

/-- A stretch that closes the block is the block. -/
theorem following_of_closes {text body rest : List Char} (split : '\x7b' :: text = body ++ rest)
    (closes : (⟨.code, 0⟩ : Reader).Closes body) (offset : Nat) :
    following ⟨offset, '\x7b' :: text⟩ = ⟨offset, body, true⟩ := by
  have found := Reader.close?_of_closes closes rest
  rw [← split] at found
  have length : ('\x7b' :: text).length - rest.length = body.length := by
    rw [split, List.length_append, Nat.add_sub_cancel]
  have taken : ('\x7b' :: text).take body.length = body := by
    rw [split, List.take_left]
  simp only [following, Place.skipWhile, List.dropWhile_cons_of_neg, List.takeWhile_cons_of_neg,
    bne_self_eq_false, Bool.false_eq_true, not_false_eq_true, List.isEmpty_cons, ↓reduceIte,
    Text.byteSize_nil, Nat.add_zero, found, length, taken]

/-- A block that nothing closes reaches to the end of the text. -/
theorem following_of_run {text : List Char} {next : Reader}
    (ran : (⟨.code, 0⟩ : Reader).run ('\x7b' :: text) = some next) (offset : Nat) :
    following ⟨offset, '\x7b' :: text⟩ = ⟨offset, '\x7b' :: text, false⟩ := by
  have unclosed := Reader.close?_of_run ran
  simp only [following, Place.skipWhile, List.dropWhile_cons_of_neg, List.takeWhile_cons_of_neg,
    bne_self_eq_false, Bool.false_eq_true, not_false_eq_true, List.isEmpty_cons, ↓reduceIte,
    Text.byteSize_nil, Nat.add_zero, unclosed]

theorem find_eq_following (before after : List Char) :
    find (before ++ after) (Text.byteSize before) = following ⟨Text.byteSize before, after⟩ := by
  have reaches : (Place.start (before ++ after)).Reaches ⟨Text.byteSize before, after⟩ :=
    ⟨before, rfl, by simp [Place.start]⟩
  rw [find, Place.seek_of_reaches reaches]

/-- Where a block stands makes no difference to what it holds. -/
theorem following_of_rest_eq {place other : Place} (same : place.rest = other.rest) :
    (following place).text = (following other).text ∧
      (following place).closed = (following other).closed := by
  simp only [following, Place.skipWhile, same]
  by_cases empty : (other.rest.dropWhile (· != '\x7b')).isEmpty
  · simp [empty]
  · cases found : (⟨.code, 0⟩ : Reader).close? (other.rest.dropWhile (· != '\x7b')) <;>
      simp [empty]

/-- A block that is closed does not depend on what comes after the text. -/
theorem following_append_of_closed {place : Place} (closed : (following place).closed = true)
    (later : List Char) :
    following ⟨place.offset, place.rest ++ later⟩ = following place := by
  obtain ⟨offset, rest⟩ := place
  by_cases member : '\x7b' ∈ rest
  · obtain ⟨skipped, opened, rfl, clear⟩ := List.eq_append_cons_of_mem member
    rw [following_append clear] at closed ⊢
    rw [List.append_assoc, List.cons_append, following_append clear]
    rcases Reader.run_or_closes ⟨.code, 0⟩ ('\x7b' :: opened) with
      ⟨next, ran⟩ | ⟨body, after, split, closes⟩
    · rw [following_of_run ran] at closed
      contradiction
    · have whole : '\x7b' :: (opened ++ later) = body ++ (after ++ later) := by
        rw [← List.append_assoc, ← split, List.cons_append]
      rw [following_of_closes split closes, following_of_closes whole closes]
  · rw [following_of_not_mem member] at closed
    contradiction

end Block

end ScriptDelta

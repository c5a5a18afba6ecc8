import Mathlib.Logic.Relation
import ScriptDelta.Proofs.Block.Extent
import ScriptDelta.Proofs.Block.Layout
import ScriptDelta.Proofs.Text.Encoding

/-! # Blocks found byte by byte

A block can be looked for in the bytes of a text, without telling characters apart. A walker goes
over them with an index and the number of open braces. It looks at one byte beyond the index, steps
over two bytes where they begin or end a comment, and takes one byte of the character that a
backslash hides. Whatever the bytes are, its index stays among them and a brace is open from the
first step on (`Walker.Reached.inBounds`).
-/

namespace ScriptDelta.Block

open Text

/-- What a walker makes of the byte at its index. -/
inductive Zone where
  | code
  | escape
  | lineComment
  | blockComment
  | quoted (quote : UInt8)
  | quotedEscape (quote : UInt8)
deriving DecidableEq

/-- A walk over bytes: the index of the next one and the number of open braces. -/
structure Walker where
  index : Nat
  depth : Nat
  zone : Zone
deriving DecidableEq

namespace Walker

/-- Reads the byte at the index, where `ahead` is the byte after it. The result is `none` if the
byte closes the block. -/
def step (walker : Walker) (byte : UInt8) (ahead : Option UInt8) : Option Walker :=
  let ⟨index, depth, zone⟩ := walker
  match zone with
  | .lineComment => some ⟨index + 1, depth, if byte = byteOf '\n' then .code else .lineComment⟩
  | .blockComment =>
    if byte = byteOf '*' ∧ ahead = some (byteOf '/') then some ⟨index + 2, depth, .code⟩
    else some ⟨index + 1, depth, .blockComment⟩
  | .quoted quote =>
    some ⟨index + 1, depth, if byte = byteOf '\\' then .quotedEscape quote
      else if byte = quote then .code else .quoted quote⟩
  | .quotedEscape quote => some ⟨index + 1, depth, .quoted quote⟩
  | .escape => some ⟨index + 1, depth, .code⟩
  | .code =>
    if byte = byteOf '\\' then some ⟨index + 1, depth, .escape⟩
    else if byte = byteOf '/' ∧ ahead = some (byteOf '/') then some ⟨index + 2, depth, .lineComment⟩
    else if byte = byteOf '/' ∧ ahead = some (byteOf '*') then some ⟨index + 2, depth, .blockComment⟩
    else if byte = byteOf '"' ∨ byte = byteOf '\x27' ∨ byte = byteOf '\x60' then
      some ⟨index + 1, depth, .quoted byte⟩
    else if byte = byteOf '\x7b' then some ⟨index + 1, depth + 1, .code⟩
    else if byte = byteOf '\x7d' then
      if depth - 1 = 0 then none else some ⟨index + 1, depth - 1, .code⟩
    else some ⟨index + 1, depth, .code⟩

variable {walker next : Walker} {byte : UInt8} {ahead : Option UInt8}

/-- All that a step can do: go on by one byte, or by two if there are two, and keep the depth or
change it by one; the last open brace stays open. -/
theorem step_cases (stepped : walker.step byte ahead = some next) :
    (next.index = walker.index + 1 ∨ next.index = walker.index + 2 ∧ ahead.isSome) ∧
      (next.depth = walker.depth ∨ byte = byteOf '\x7b' ∧ next.depth = walker.depth + 1 ∨
        byte = byteOf '\x7d' ∧ next.depth = walker.depth - 1 ∧ 0 < next.depth) := by
  obtain ⟨index, depth, zone⟩ := walker
  cases zone with
  | code =>
    simp only [step] at stepped
    split_ifs at stepped with escape line block quote opening closing last
    · cases stepped; simp
    · cases stepped; simp [line.2]
    · cases stepped; simp [block.2]
    · cases stepped; simp
    · cases stepped; simp [opening]
    · cases stepped; simp [closing]; omega
    · cases stepped; simp
  | blockComment =>
    simp only [step] at stepped
    split_ifs at stepped with ends
    · cases stepped; simp [ends.2]
    · cases stepped; simp
  | escape | lineComment | quoted | quotedEscape => cases stepped; simp

/-- Only a closing brace ends the walk, and only if no other brace is open. -/
theorem step_eq_none_iff : walker.step byte ahead = none ↔
    walker.zone = .code ∧ byte = byteOf '\x7d' ∧ walker.depth ≤ 1 := by
  obtain ⟨index, depth, zone⟩ := walker
  cases zone with
  | code =>
    by_cases closing : byte = byteOf '\x7d'
    · subst closing
      by_cases last : depth - 1 = 0
      · simpa [step, byteOf, last] using by omega
      · simpa [step, byteOf, last] using by omega
    · simp only [step, closing, ↓reduceIte]
      split_ifs <;> simp
  | blockComment =>
    simp only [step]
    split_ifs <;> simp
  | escape | lineComment | quoted | quotedEscape => simp [step]

/-- One step of a walk over the bytes. -/
def Goes (bytes : List UInt8) (walker next : Walker) : Prop :=
  ∃ byte, bytes[walker.index]? = some byte ∧
    walker.step byte bytes[walker.index + 1]? = some next

/-- The walk that begins at an index comes to the walker. -/
def Reached (bytes : List UInt8) (start : Nat) (walker : Walker) : Prop :=
  Relation.ReflTransGen (Goes bytes) ⟨start, 0, .code⟩ walker

/-- The walker is among the bytes, and it has a brace open after the first step. In particular no
brace is closed that is not open. -/
structure InBounds (bytes : List UInt8) (start : Nat) (walker : Walker) : Prop where
  index_le : walker.index ≤ bytes.length
  first : walker = ⟨start, 0, .code⟩ ∨ start < walker.index ∧ 0 < walker.depth
  closing : walker.zone = .code → bytes[walker.index]? = some (byteOf '\x7d') → 0 < walker.depth

variable {bytes : List UInt8} {start : Nat}

theorem inBounds_of_first (within : walker.index ≤ bytes.length)
    (brace : bytes[start]? = some (byteOf '\x7b'))
    (first : walker = ⟨start, 0, .code⟩ ∨ start < walker.index ∧ 0 < walker.depth) :
    InBounds bytes start walker := by
  refine ⟨within, first, fun _ closing => ?_⟩
  rcases first with rfl | ⟨-, opened⟩
  · rw [brace] at closing
    contradiction
  · exact opened

theorem InBounds.goes (inBounds : InBounds bytes start walker)
    (brace : bytes[start]? = some (byteOf '\x7b')) (goes : Goes bytes walker next) :
    InBounds bytes start next := by
  obtain ⟨byte, here, stepped⟩ := goes
  obtain ⟨index, depth⟩ := step_cases stepped
  have within : walker.index < bytes.length := (List.getElem?_eq_some_iff.mp here).1
  refine inBounds_of_first ?_ brace (.inr ?_)
  · rcases index with one | ⟨two, more⟩
    · omega
    · obtain ⟨further, ahead⟩ := Option.isSome_iff_exists.mp more
      have beyond : walker.index + 1 < bytes.length := (List.getElem?_eq_some_iff.mp ahead).1
      omega
  · rcases inBounds.first with rfl | ⟨forward, opened⟩
    · -- the first byte is the opening brace
      obtain rfl : byteOf '\x7b' = byte := Option.some.inj (brace.symm.trans here)
      cases stepped
      exact ⟨Nat.lt_succ_self _, Nat.one_pos⟩
    · have positive : 0 < next.depth := by
        rcases depth with same | ⟨-, more⟩ | ⟨-, -, left⟩ <;> omega
      exact ⟨by omega, positive⟩

/-- Wherever a walk from an opening brace comes, the walker is in bounds. -/
theorem Reached.inBounds (reached : Reached bytes start walker)
    (brace : bytes[start]? = some (byteOf '\x7b')) : InBounds bytes start walker := by
  induction reached with
  | refl =>
    have within : start < bytes.length := (List.getElem?_eq_some_iff.mp brace).1
    exact inBounds_of_first (Nat.le_of_lt within) brace (.inl rfl)
  | tail _ goes ih => exact ih.goes brace goes

/-- Walks to the byte that closes the block or to the last one. The result is the index behind that
byte and whether the block is closed. -/
def walk (bytes : List UInt8) (walker : Walker) : Nat × Bool :=
  if within : walker.index < bytes.length then
    match stepped : walker.step bytes[walker.index] bytes[walker.index + 1]? with
    | none => (walker.index + 1, true)
    | some next => next.walk bytes
  else
    (bytes.length, false)
termination_by bytes.length - walker.index
decreasing_by
  have forward := (step_cases stepped).1
  omega

theorem walk_of_goes (goes : Goes bytes walker next) : walker.walk bytes = next.walk bytes := by
  obtain ⟨byte, here, stepped⟩ := goes
  obtain ⟨within, rfl⟩ := List.getElem?_eq_some_iff.mp here
  rw [walk, dif_pos within]
  split
  next stuck => simp [stepped] at stuck
  next after onward =>
    obtain rfl : next = after := Option.some.inj (stepped.symm.trans onward)
    rfl

theorem walk_of_goes_all (goes : Relation.ReflTransGen (Goes bytes) walker next) :
    walker.walk bytes = next.walk bytes := by
  induction goes with
  | refl => rfl
  | tail _ goes ih => rw [ih, walk_of_goes goes]

theorem walk_of_length_le (beyond : bytes.length ≤ walker.index) :
    walker.walk bytes = (bytes.length, false) := by
  rw [walk, dif_neg (Nat.not_lt.mpr beyond)]

theorem walk_of_closes (here : bytes[walker.index]? = some byte)
    (stuck : walker.step byte bytes[walker.index + 1]? = none) :
    walker.walk bytes = (walker.index + 1, true) := by
  obtain ⟨within, rfl⟩ := List.getElem?_eq_some_iff.mp here
  rw [walk, dif_pos within]
  split
  next => rfl
  next onward => simp [stuck] at onward

end Walker

end ScriptDelta.Block

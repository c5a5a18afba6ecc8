/-! # UTF-8

Bytes are read one at a time. A first byte says how many more belong to the character and in which
range the next one must be; the ranges leave out overlong forms, surrogates and values beyond the
last code point. A byte out of range ends a broken sequence, which counts as one malformed item, and
is read again as a first byte.
-/

namespace ScriptDelta.Text

/-- What a stretch of bytes stands for: a character, or nothing readable. -/
inductive Item where
  | scalar (c : Char)
  | malformed
deriving DecidableEq

/-- The character shown for an item. -/
def Item.shown : Item → Char
  | .scalar c => c
  | .malformed => '\ufffd'

namespace Utf8

/-- A character of which some bytes are still to come. -/
structure Pending where
  /-- The number of bytes to come, at least one. -/
  missing : Nat
  /-- The least value of the next byte. -/
  low : Nat
  /-- The greatest value of the next byte. -/
  high : Nat
  /-- The value of the bits read so far. -/
  bits : Nat
deriving DecidableEq

/-- What a first byte begins: an item that it is by itself, or a longer character. -/
def first (byte : Nat) : Item ⊕ Pending :=
  if byte < 0x80 then .inl (.scalar (Char.ofNat byte))
  else if byte < 0xC2 then .inl .malformed
  else if byte < 0xE0 then .inr ⟨1, 0x80, 0xBF, byte - 0xC0⟩
  else if byte < 0xF0 then
    .inr ⟨2, if byte = 0xE0 then 0xA0 else 0x80, if byte = 0xED then 0x9F else 0xBF, byte - 0xE0⟩
  else if byte < 0xF5 then
    .inr ⟨3, if byte = 0xF0 then 0x90 else 0x80, if byte = 0xF4 then 0x8F else 0xBF, byte - 0xF0⟩
  else .inl .malformed

/-- The items read so far, the last one in front, and the character begun after them. -/
structure Reader where
  done : List Item
  pending : Option Pending

/-- Reads a first byte. -/
def Reader.begin (done : List Item) (byte : Nat) : Reader :=
  match first byte with
  | .inl item => ⟨item :: done, none⟩
  | .inr pending => ⟨done, some pending⟩

/-- Reads a byte. -/
def Reader.step (reader : Reader) (byte : UInt8) : Reader :=
  let byte := byte.toNat
  match reader.pending with
  | none => begin reader.done byte
  | some pending =>
    if pending.low ≤ byte ∧ byte ≤ pending.high then
      let bits := 64 * pending.bits + (byte - 0x80)
      if pending.missing ≤ 1 then ⟨.scalar (Char.ofNat bits) :: reader.done, none⟩
      else ⟨reader.done, some ⟨pending.missing - 1, 0x80, 0xBF, bits⟩⟩
    else begin (.malformed :: reader.done) byte

/-- The items read, where a character cut off at the end is malformed. -/
def Reader.finish (reader : Reader) : List Item :=
  (reader.pending.map fun _ => Item.malformed).toList ++ reader.done |>.reverse

/-- What a sequence of bytes stands for. -/
def items (bytes : List UInt8) : List Item :=
  (bytes.foldl Reader.step ⟨[], none⟩).finish

end Utf8

end ScriptDelta.Text

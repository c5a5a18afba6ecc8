/-! # UTF-16

Two bytes make a unit, in either order. A unit in the range of the high surrogates forms one
character with a low surrogate after it; any other surrogate, and bytes or units left over at the
end, are shown as the replacement character.
-/

namespace ScriptDelta.Text.Utf16

/-- Which byte of a unit comes first. -/
inductive ByteOrder where
  | littleEndian
  | bigEndian
deriving DecidableEq

/-- The unit of two bytes in the order in which they stand. -/
def ByteOrder.unit (order : ByteOrder) (a b : UInt8) : Nat :=
  match order with
  | .littleEndian => 256 * b.toNat + a.toNat
  | .bigEndian => 256 * a.toNat + b.toNat

/-- The characters read so far, the last one in front, a high surrogate that waits for the low one,
and the first byte of a unit. -/
structure Reader where
  done : List Char
  surrogate : Option Nat
  byte : Option UInt8

/-- Reads a unit when no high surrogate is waiting. -/
def Reader.begin (done : List Char) (unit : Nat) : Reader :=
  if unit < 0xD800 ∨ 0xE000 ≤ unit then ⟨Char.ofNat unit :: done, none, none⟩
  else if unit < 0xDC00 then ⟨done, some unit, none⟩
  else ⟨'\ufffd' :: done, none, none⟩

/-- Reads a unit. -/
def Reader.unit (reader : Reader) (unit : Nat) : Reader :=
  match reader.surrogate with
  | none => begin reader.done unit
  | some high =>
    if 0xDC00 ≤ unit ∧ unit < 0xE000 then
      ⟨Char.ofNat (0x10000 + 1024 * (high - 0xD800) + (unit - 0xDC00)) :: reader.done, none, none⟩
    else begin ('\ufffd' :: reader.done) unit

/-- Reads a byte. -/
def Reader.step (order : ByteOrder) (reader : Reader) (byte : UInt8) : Reader :=
  match reader.byte with
  | none => { reader with byte := some byte }
  | some first => reader.unit (order.unit first byte)

/-- The characters read; whatever is left over counts as one replacement character. -/
def Reader.finish (reader : Reader) : List Char :=
  if reader.surrogate.isSome || reader.byte.isSome then ('\ufffd' :: reader.done).reverse
  else reader.done.reverse

/-- The text that a sequence of bytes stands for. -/
def decode (order : ByteOrder) (bytes : List UInt8) : List Char :=
  (bytes.foldl (Reader.step order) ⟨[], none, none⟩).finish

end ScriptDelta.Text.Utf16

import ScriptDelta.Text.Utf16

/-! # Reading UTF-16 back

A character is written in UTF-16 as one unit or, beyond U+FFFF, as a high and a low surrogate, and a
unit as two bytes in either order. The reader takes the bytes of a character from any point between
two characters and comes to the next one (`foldl_step_units`), so it reads every text back
(`decode_encode`).
-/

namespace ScriptDelta.Text.Utf16

/-- The bytes of a unit in the order in which they stand. -/
def ByteOrder.bytes (order : ByteOrder) (unit : Nat) : List UInt8 :=
  match order with
  | .littleEndian => [UInt8.ofNat (unit % 256), UInt8.ofNat (unit / 256)]
  | .bigEndian => [UInt8.ofNat (unit / 256), UInt8.ofNat (unit % 256)]

/-- The units of a character: itself, or a high and a low surrogate. -/
def units (c : Char) : List Nat :=
  if c.toNat < 0x10000 then [c.toNat]
  else [0xD800 + (c.toNat - 0x10000) / 1024, 0xDC00 + (c.toNat - 0x10000) % 1024]

/-- The bytes of a text. -/
def encode (order : ByteOrder) (text : List Char) : List UInt8 :=
  text.flatMap fun c => (units c).flatMap order.bytes

namespace Reader

variable {done : List Char} {surrogate : Option Nat} {unit : Nat}

/-- Two bytes are read as the unit that they are written for. -/
theorem foldl_step_bytes (order : ByteOrder) (small : unit < 0x10000) :
    (order.bytes unit).foldl (step order) ⟨done, surrogate, none⟩ =
      (⟨done, surrogate, none⟩ : Reader).unit unit := by
  have low : (UInt8.ofNat (unit % 256)).toNat = unit % 256 :=
    UInt8.toNat_ofNat_of_lt' (Nat.mod_lt _ (by decide))
  have high : (UInt8.ofNat (unit / 256)).toNat = unit / 256 :=
    UInt8.toNat_ofNat_of_lt' (Nat.div_lt_of_lt_mul small)
  have whole : 256 * (unit / 256) + unit % 256 = unit := Nat.div_add_mod unit 256
  cases order <;>
    simp only [ByteOrder.bytes, List.foldl_cons, List.foldl_nil, step, ByteOrder.unit, low, high,
      whole] <;>
    rfl

/-- A unit that is no surrogate is a character. -/
theorem unit_of_single {c : Char} (single : c.toNat < 0x10000) :
    (⟨done, none, none⟩ : Reader).unit c.toNat = ⟨c :: done, none, none⟩ := by
  have valid : c.toNat < 0xD800 ∨ 0xDFFF < c.toNat ∧ c.toNat < 0x110000 := c.valid
  have noSurrogate : c.toNat < 0xD800 ∨ 0xE000 ≤ c.toNat := by omega
  simp only [Reader.unit, begin, noSurrogate, ↓reduceIte, Char.ofNat_toNat]

/-- A high surrogate waits for the low one. -/
theorem unit_of_high {bits : Nat} (small : bits < 1024) :
    (⟨done, none, none⟩ : Reader).unit (0xD800 + bits) = ⟨done, some (0xD800 + bits), none⟩ := by
  have surrogate : ¬ (0xD800 + bits < 0xD800 ∨ 0xE000 ≤ 0xD800 + bits) := by omega
  have isHigh : 0xD800 + bits < 0xDC00 := by omega
  simp only [Reader.unit, begin, surrogate, isHigh, ↓reduceIte]

/-- A low surrogate completes a character. -/
theorem unit_of_low {high low : Nat} {c : Char} (small : low < 1024)
    (complete : 0x10000 + 1024 * high + low = c.toNat) :
    (⟨done, some (0xD800 + high), none⟩ : Reader).unit (0xDC00 + low) = ⟨c :: done, none, none⟩ := by
  have isLow : 0xDC00 ≤ 0xDC00 + low ∧ 0xDC00 + low < 0xE000 := by omega
  simp only [Reader.unit, isLow, ↓reduceIte, Nat.add_sub_cancel_left, complete, Char.ofNat_toNat,
    and_self]

/-- The bytes of a character are read as that character. -/
theorem foldl_step_units (order : ByteOrder) (c : Char) :
    ((units c).flatMap order.bytes).foldl (step order) ⟨done, none, none⟩ =
      ⟨c :: done, none, none⟩ := by
  have valid : c.toNat < 0xD800 ∨ 0xDFFF < c.toNat ∧ c.toNat < 0x110000 := c.valid
  rw [units]
  split
  next single =>
    rw [List.flatMap_singleton, foldl_step_bytes order single, unit_of_single single]
  next =>
    have complete : 0x10000 + 1024 * ((c.toNat - 0x10000) / 1024) + (c.toNat - 0x10000) % 1024 =
        c.toNat := by omega
    rw [List.flatMap_cons, List.flatMap_singleton, List.foldl_append,
      foldl_step_bytes order (by omega), unit_of_high (by omega),
      foldl_step_bytes order (by omega), unit_of_low (by omega) complete]

theorem foldl_step_encode (order : ByteOrder) (text : List Char) :
    (encode order text).foldl (step order) ⟨done, none, none⟩ =
      ⟨text.reverse ++ done, none, none⟩ := by
  induction text generalizing done with
  | nil => rfl
  | cons c text ih =>
    rw [encode, List.flatMap_cons, List.foldl_append, foldl_step_units, ← encode, ih,
      List.reverse_cons, List.append_assoc, List.singleton_append]

end Reader

/-- Every text is read back from its bytes. -/
theorem decode_encode (order : ByteOrder) (text : List Char) :
    decode order (encode order text) = text := by
  simp [decode, Reader.foldl_step_encode, Reader.finish]

end ScriptDelta.Text.Utf16

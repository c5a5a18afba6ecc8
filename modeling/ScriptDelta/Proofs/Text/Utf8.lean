import Mathlib.Data.List.Basic
import ScriptDelta.Text.Utf8

/-! # Reading UTF-8 back

A character is written in UTF-8, and a malformed item as a byte that occurs in no character. The
reader takes the bytes of an item from any point between two items and comes to the next one
(`foldl_step_bytes`), so it reads back whatever is written that way, wherever the malformed items
stand.
-/

namespace ScriptDelta.Text

/-- The bytes of a character in UTF-8, or a byte that occurs in no character. -/
def Item.bytes : Item → List UInt8
  | .scalar c => String.utf8EncodeChar c
  | .malformed => [0xFF]

namespace Utf8

section

variable {bits : Nat}

/-- The first of two bytes. -/
theorem first_two (most : bits < 0x20) (least : 2 ≤ bits) :
    first (bits + 0xC0) = .inr ⟨1, 0x80, 0xBF, bits⟩ := by
  decide +revert

/-- The first of three bytes. -/
theorem first_three (most : bits < 0x10) :
    first (bits + 0xE0) = .inr ⟨2, if bits = 0 then 0xA0 else 0x80,
      if bits = 0xD then 0x9F else 0xBF, bits⟩ := by
  decide +revert

/-- The first of four bytes. -/
theorem first_four (most : bits < 5) :
    first (bits + 0xF0) = .inr ⟨3, if bits = 0 then 0x90 else 0x80,
      if bits = 4 then 0x8F else 0xBF, bits⟩ := by
  decide +revert

end

namespace Reader

variable {done : List Item} {byte : UInt8} {value : Nat}

theorem step_of_single {item : Item} (isByte : byte.toNat = value)
    (single : first value = .inl item) :
    (⟨done, none⟩ : Reader).step byte = ⟨item :: done, none⟩ := by
  simp only [step, begin, isByte, single]

theorem step_of_begun {pending : Pending} (isByte : byte.toNat = value)
    (begun : first value = .inr pending) :
    (⟨done, none⟩ : Reader).step byte = ⟨done, some pending⟩ := by
  simp only [step, begin, isByte, begun]

variable {missing low high bits tail : Nat}

/-- A byte in the middle of a character adds six bits. -/
theorem step_between (isByte : byte.toNat = tail + 0x80) (within : low ≤ tail + 0x80)
    (notBeyond : tail + 0x80 ≤ high) (more : 1 < missing) :
    (⟨done, some ⟨missing, low, high, bits⟩⟩ : Reader).step byte =
      ⟨done, some ⟨missing - 1, 0x80, 0xBF, 64 * bits + tail⟩⟩ := by
  simp only [step, isByte, within, notBeyond, and_self, ↓reduceIte, Nat.not_le.mpr more,
    Nat.add_sub_cancel]

/-- The last byte of a character adds six bits and completes it. -/
theorem step_last {c : Char} (isByte : byte.toNat = tail + 0x80) (within : low ≤ tail + 0x80)
    (notBeyond : tail + 0x80 ≤ high) (complete : 64 * bits + tail = c.toNat) :
    (⟨done, some ⟨1, low, high, bits⟩⟩ : Reader).step byte = ⟨.scalar c :: done, none⟩ := by
  simp only [step, isByte, within, notBeyond, and_self, ↓reduceIte, Nat.le_refl,
    Nat.add_sub_cancel, complete, Char.ofNat_toNat]

end Reader

/-- The bytes of a character are read as that character. -/
theorem foldl_step_utf8EncodeChar (done : List Item) (c : Char) :
    (String.utf8EncodeChar c).foldl Reader.step ⟨done, none⟩ = ⟨.scalar c :: done, none⟩ := by
  have valid : c.toNat < 0xD800 ∨ 0xDFFF < c.toNat ∧ c.toNat < 0x110000 := c.valid
  have isByte {n : Nat} (small : n < 0x100) : (UInt8.ofNat n).toNat = n :=
    UInt8.toNat_ofNat_of_lt' small
  have isValue : c.val.toNat = c.toNat := rfl
  simp only [String.utf8EncodeChar, isValue]
  split_ifs with one two three
  · have single : first c.toNat = .inl (.scalar c) := by
      simp [first, Nat.lt_succ_of_le one]
    exact Reader.step_of_single (isByte (by omega)) single
  · have complete : 64 * (c.toNat / 64 % 32) + c.toNat % 64 = c.toNat := by omega
    simp only [List.foldl_cons, List.foldl_nil]
    rw [Reader.step_of_begun (isByte (by omega)) (first_two (by omega) (by omega)),
      Reader.step_last (isByte (by omega)) (by omega) (by omega) complete]
  · -- overlong forms and surrogates are kept out by the range of the second byte
    have complete : 64 * (64 * (c.toNat / 4096 % 16) + c.toNat / 64 % 64) + c.toNat % 64 =
        c.toNat := by omega
    simp only [List.foldl_cons, List.foldl_nil]
    rw [Reader.step_of_begun (isByte (by omega)) (first_three (by omega)),
      Reader.step_between (isByte (by omega)) (by split_ifs <;> omega) (by split_ifs <;> omega)
        (by decide),
      Reader.step_last (isByte (by omega)) (by omega) (by omega) complete]
  · have complete : 64 * (64 * (64 * (c.toNat / 262144 % 8) + c.toNat / 4096 % 64) +
        c.toNat / 64 % 64) + c.toNat % 64 = c.toNat := by omega
    simp only [List.foldl_cons, List.foldl_nil]
    rw [Reader.step_of_begun (isByte (by omega)) (first_four (by omega)),
      Reader.step_between (isByte (by omega)) (by split_ifs <;> omega) (by split_ifs <;> omega)
        (by decide),
      Reader.step_between (isByte (by omega)) (by omega) (by omega) (by decide),
      Reader.step_last (isByte (by omega)) (by omega) (by omega) complete]

/-- The bytes of an item are read as that item. -/
theorem foldl_step_bytes (done : List Item) (item : Item) :
    item.bytes.foldl Reader.step ⟨done, none⟩ = ⟨item :: done, none⟩ := by
  cases item with
  | scalar c => exact foldl_step_utf8EncodeChar done c
  | malformed => rfl

/-- What was read before makes no difference. -/
theorem foldl_step_append (done earlier : List Item) (pending : Option Pending)
    (bytes : List UInt8) :
    let reader := bytes.foldl Reader.step ⟨done, pending⟩
    bytes.foldl Reader.step ⟨done ++ earlier, pending⟩ =
      ⟨reader.done ++ earlier, reader.pending⟩ := by
  have begins (done : List Item) (byte : Nat) :
      Reader.begin (done ++ earlier) byte =
        ⟨(Reader.begin done byte).done ++ earlier, (Reader.begin done byte).pending⟩ := by
    simp only [Reader.begin]
    cases first byte <;> rfl
  induction bytes generalizing done pending with
  | nil => rfl
  | cons byte bytes ih =>
    have stepped : (⟨done ++ earlier, pending⟩ : Reader).step byte =
        ⟨((⟨done, pending⟩ : Reader).step byte).done ++ earlier,
          ((⟨done, pending⟩ : Reader).step byte).pending⟩ := by
      cases pending with
      | none => exact begins done _
      | some pending =>
        simp only [Reader.step]
        split_ifs
        · rfl
        · rfl
        · exact begins (.malformed :: done) _
    simp only [List.foldl_cons, stepped]
    exact ih _ _

/-- After bytes that leave no character begun reading starts anew. -/
theorem items_append {front : List UInt8} {done : List Item}
    (settled : front.foldl Reader.step ⟨[], none⟩ = ⟨done, none⟩) (bytes : List UInt8) :
    items (front ++ bytes) = done.reverse ++ items bytes := by
  have later := foldl_step_append [] done none bytes
  rw [List.nil_append] at later
  rw [items, List.foldl_append, settled, later, items, Reader.finish, Reader.finish,
    ← List.append_assoc, List.reverse_append]

/-- The bytes of an item are such bytes. -/
theorem items_bytes_append (item : Item) (bytes : List UInt8) :
    items (item.bytes ++ bytes) = item :: items bytes := by
  rw [items_append (foldl_step_bytes [] item), List.reverse_singleton, List.singleton_append]

/-- Items are read back from their bytes. -/
theorem items_flatMap_bytes (written : List Item) :
    items (written.flatMap Item.bytes) = written := by
  induction written with
  | nil => rfl
  | cons item written ih => rw [List.flatMap_cons, items_bytes_append, ih]

/-- No character has a byte beyond F4. -/
theorem toNat_lt_of_mem_utf8EncodeChar {c : Char} {byte : UInt8}
    (member : byte ∈ String.utf8EncodeChar c) : byte.toNat < 0xF5 := by
  have valid : c.toNat < 0xD800 ∨ 0xDFFF < c.toNat ∧ c.toNat < 0x110000 := c.valid
  have isValue : c.val.toNat = c.toNat := rfl
  have small {n : Nat} (bound : n < 0xF5) (same : byte = UInt8.ofNat n) : byte.toNat < 0xF5 := by
    rw [same, UInt8.toNat_ofNat_of_lt' (Nat.lt_trans bound (by decide))]
    exact bound
  simp only [String.utf8EncodeChar, isValue] at member
  split_ifs at member with one two three
  all_goals
    simp only [List.mem_cons, List.not_mem_nil, or_false] at member
  · exact small (by omega) member
  · rcases member with same | same <;> exact small (by omega) same
  · rcases member with same | same | same <;> exact small (by omega) same
  · rcases member with same | same | same | same <;> exact small (by omega) same

end Utf8

end ScriptDelta.Text

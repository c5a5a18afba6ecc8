import Mathlib.Data.List.Chain
import ScriptDelta.Proofs.Text.Ascii
import ScriptDelta.Proofs.Text.Utf16

/-! # Files in UTF-16

A file is read as UTF-8 first, and only if most of what is beyond ASCII comes out broken does its
byte order mark count. A mark of UTF-16 is two malformed items in UTF-8. The characters below U+0100
have a zero for one of their bytes, so behind the mark a byte from 80 on never has another one next
to it (`Sparse`), and no character beyond ASCII is made out (`not_isForeign_of_sparse`). All that is
shown beyond ASCII is therefore broken, and the mark decides.
-/

namespace ScriptDelta.Text

/-- Of two bytes that stand side by side one is below 80. -/
def Sparse (bytes : List UInt8) : Prop :=
  bytes.IsChain fun byte next => byte.toNat < 0x80 ∨ next.toNat < 0x80

theorem sparse_cons_of_lt {byte : UInt8} {bytes : List UInt8} (small : byte.toNat < 0x80)
    (sparse : Sparse bytes) : Sparse (byte :: bytes) :=
  List.isChain_cons.mpr ⟨fun _ _ => .inl small, sparse⟩

namespace Utf8

namespace Reader

/-- Nothing beyond ASCII is read so far but malformed items, and if a character is begun, the next
byte breaks it off. -/
structure Broken (reader : Reader) (bytes : List UInt8) : Prop where
  done : ∀ item ∈ reader.done, item.isForeign = false
  pending : ∀ pending ∈ reader.pending,
    0x80 ≤ pending.low ∧ ∀ byte ∈ bytes.head?, byte.toNat < 0x80

/-- A byte begins a character beyond ASCII only if it is not below 80. -/
theorem broken_begin {done : List Item} {byte : UInt8} {bytes : List UInt8}
    (earlier : ∀ item ∈ done, item.isForeign = false) (sparse : Sparse (byte :: bytes)) :
    (begin done byte.toNat).Broken bytes := by
  obtain ⟨next, -⟩ := List.isChain_cons.mp sparse
  by_cases small : byte.toNat < 0x80
  · have single : first byte.toNat = .inl (.scalar (Char.ofNat byte.toNat)) := if_pos small
    have ascii : (Item.scalar (Char.ofNat byte.toNat)).isForeign = false := by
      simp [Item.isForeign, toNat_ofNat_of_lt small, small]
    simp only [begin, single]
    exact ⟨List.forall_mem_cons.mpr ⟨ascii, earlier⟩, by simp⟩
  · rw [begin]
    cases begun : first byte.toNat with
    | inl item =>
      obtain rfl := eq_malformed_of_first (Nat.not_lt.mp small) begun
      exact ⟨List.forall_mem_cons.mpr ⟨rfl, earlier⟩, by simp⟩
    | inr pending =>
      refine ⟨earlier, ?_⟩
      rintro _ ⟨⟩
      exact ⟨(Pending.foreign_of_first begun).low_ge,
        fun other isNext => (next other isNext).resolve_left small⟩

theorem Broken.step {reader : Reader} {byte : UInt8} {bytes : List UInt8}
    (broken : reader.Broken (byte :: bytes)) (sparse : Sparse (byte :: bytes)) :
    (reader.step byte).Broken bytes := by
  obtain ⟨done, _ | ⟨missing, low, high, bits⟩⟩ := reader
  · exact broken_begin broken.done sparse
  · obtain ⟨low_ge, breaks⟩ := broken.pending _ rfl
    have below : byte.toNat < low := Nat.lt_of_lt_of_le (breaks byte rfl) low_ge
    simp only [Reader.step, Nat.not_le.mpr below, false_and, ↓reduceIte]
    exact broken_begin (List.forall_mem_cons.mpr ⟨rfl, broken.done⟩) sparse

theorem Broken.foldl_step {reader : Reader} {bytes : List UInt8} (broken : reader.Broken bytes)
    (sparse : Sparse bytes) : (bytes.foldl Reader.step reader).Broken [] := by
  induction bytes generalizing reader with
  | nil => exact broken
  | cons byte bytes ih => exact ih (broken.step sparse) (List.isChain_cons.mp sparse).2

end Reader

/-- Where no two bytes from 80 on stand side by side, no character beyond ASCII is made out. -/
theorem not_isForeign_of_sparse {bytes : List UInt8} (sparse : Sparse bytes) :
    ∀ item ∈ items bytes, item.isForeign = false := by
  have start : (⟨[], none⟩ : Reader).Broken bytes := ⟨by simp, by simp⟩
  have read := (start.foldl_step sparse).done
  intro item member
  simp only [items, Reader.finish, List.mem_reverse, List.mem_append, Option.mem_toList,
    Option.map_eq_some_iff] at member
  rcases member with ⟨_, _, rfl⟩ | member
  · rfl
  · exact read item member

end Utf8

/-- A file in which something is malformed and nothing beyond ASCII is made out is read in the
encoding that its mark names. -/
theorem decode_of_malformed {bytes : List UInt8} (unmarked : afterUtf8Mark? bytes = none)
    (malformed : .malformed ∈ Utf8.items bytes)
    (plain : ∀ item ∈ Utf8.items bytes, item.isForeign = false) :
    decode bytes = decodeMarked bytes := by
  have noForeign : (Utf8.items bytes).countP Item.isForeign = 0 := by
    simpa [List.countP_eq_zero] using plain
  have noReplacement : (Utf8.items bytes).count (.scalar '\ufffd') = 0 := by
    rw [List.count_eq_zero]
    intro member
    exact absurd (plain _ member) (by decide)
  have present : 0 < (Utf8.items bytes).count .malformed := List.count_pos_iff.mpr malformed
  have mostly : mostlyReplaced ((Utf8.items bytes).map Item.shown) = true := by
    rw [mostlyReplaced, countP_shown, count_shown, noForeign, noReplacement, decide_eq_true_eq]
    omega
  have contains : (Utf8.items bytes).contains .malformed = true :=
    List.contains_iff_mem.mpr malformed
  simp only [decode, unmarked, Option.getD_none, contains, mostly, Bool.and_self, ↓reduceIte]

namespace Utf16

/-- A character below U+0100 is a byte of its own number and a zero. -/
theorem bytes_units {c : Char} (latin : c.toNat ≤ 0xFF) (order : ByteOrder) :
    (units c).flatMap order.bytes =
      match order with
      | .littleEndian => [UInt8.ofNat c.toNat, 0]
      | .bigEndian => [0, UInt8.ofNat c.toNat] := by
  have single : c.toNat < 0x10000 := by omega
  have low : c.toNat % 256 = c.toNat := Nat.mod_eq_of_lt (by omega)
  have high : c.toNat / 256 = 0 := Nat.div_eq_of_lt (by omega)
  rw [units, if_pos single, List.flatMap_singleton]
  cases order <;> simp only [ByteOrder.bytes, low, high] <;> rfl

theorem sparse_encode {text : List Char} (latin : ∀ c ∈ text, c.toNat ≤ 0xFF)
    (order : ByteOrder) : Sparse (encode order text) := by
  have zero : (0 : UInt8).toNat < 0x80 := by decide
  cases order with
  | littleEndian =>
    induction text with
    | nil => exact .nil
    | cons c text ih =>
      obtain ⟨small, others⟩ := List.forall_mem_cons.mp latin
      rw [encode, List.flatMap_cons, bytes_units small]
      exact List.isChain_cons_cons.mpr ⟨.inr zero, sparse_cons_of_lt zero (ih others)⟩
  | bigEndian =>
    -- any byte can stand in front, for a zero comes next
    have behind (byte : UInt8) : Sparse (byte :: encode .bigEndian text) := by
      induction text generalizing byte with
      | nil => exact .singleton _
      | cons c text ih =>
        obtain ⟨small, others⟩ := List.forall_mem_cons.mp latin
        rw [encode, List.flatMap_cons, bytes_units small]
        exact List.isChain_cons_cons.mpr ⟨.inr zero, sparse_cons_of_lt zero (ih others _)⟩
    exact (List.isChain_cons.mp (behind 0)).2

end Utf16

/-- Behind two malformed bytes, sparse bytes are read in the encoding that the mark names. -/
theorem decode_of_sparse {mark bytes : List UInt8} (sparse : Sparse bytes)
    (unmarked : afterUtf8Mark? (mark ++ bytes) = none)
    (broken : mark.foldl Utf8.Reader.step ⟨[], none⟩ = ⟨[.malformed, .malformed], none⟩) :
    decode (mark ++ bytes) = decodeMarked (mark ++ bytes) := by
  have read := Utf8.items_append broken bytes
  apply decode_of_malformed unmarked
  · rw [read]
    exact List.mem_cons_self ..
  · rw [read]
    exact List.forall_mem_append.mpr ⟨by decide, Utf8.not_isForeign_of_sparse sparse⟩

/-- A text of characters up to U+00FF that is written in UTF-16 behind a byte order mark is read
back, in either order of the bytes, although it is read as UTF-8 first. -/
theorem decode_utf16 {text : List Char} (latin : ∀ c ∈ text, c.toNat ≤ 0xFF) :
    decode ([0xFF, 0xFE] ++ Utf16.encode .littleEndian text) = text ∧
      decode ([0xFE, 0xFF] ++ Utf16.encode .bigEndian text) = text := by
  constructor
  · rw [decode_of_sparse (Utf16.sparse_encode latin _) rfl rfl]
    exact Utf16.decode_encode .littleEndian text
  · rw [decode_of_sparse (Utf16.sparse_encode latin _) rfl rfl]
    exact Utf16.decode_encode .bigEndian text

/-- Two characters whose numbers are the bytes of one in UTF-8, with a zero between them. -/
theorem decode_utf16_accented :
    decode [0xFF, 0xFE, 0xC3, 0x00, 0xA9, 0x00, 0x7B, 0x00] = ['\u00c3', '\u00a9', '\x7b'] ∧
      decode [0xFE, 0xFF, 0x00, 0xC3, 0x00, 0xA9, 0x00, 0x7B] = ['\u00c3', '\u00a9', '\x7b'] :=
  @decode_utf16 ['\u00c3', '\u00a9', '\x7b'] (by simp)

-- The bytes of other characters may stand for characters in UTF-8, and then the mark may not count.
example : decode ([0xFF, 0xFE] ++ Utf16.encode .littleEndian ['\ua9c3', '\ua9c3']) =
    ['\ufffd', '\ufffd', '\u00e9', '\u00e9'] := by decide

end ScriptDelta.Text

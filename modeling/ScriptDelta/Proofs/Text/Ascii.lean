import Mathlib.Data.List.Count
import Mathlib.Tactic.Ring
import ScriptDelta.Proofs.Text.Decoding

/-! # The ASCII characters of a file

A byte below 80 is a character of ASCII in UTF-8 as in Windows-1252, whatever bytes stand around it,
and no other byte has a part in one. In UTF-8 this rests on what a character begun has to be: it
takes no byte below 80, and its range of code points, which only narrows, lies beyond ASCII
(`Utf8.Pending.Foreign`). So a file is read with the characters of ASCII that it has, whichever
encoding is chosen for it, unless that is UTF-16 (`ascii_decode`).
-/

namespace ScriptDelta.Text

/-- The characters of ASCII in a text. -/
def ascii (text : List Char) : List Char :=
  text.filter fun c => c.toNat < 0x80

/-- The characters of ASCII that the bytes of a file are by themselves. -/
def asciiBytes (bytes : List UInt8) : List Char :=
  (bytes.filter fun byte => byte.toNat < 0x80).map fun byte => Char.ofNat byte.toNat

theorem ascii_append (text later : List Char) : ascii (text ++ later) = ascii text ++ ascii later :=
  List.filter_append ..

theorem asciiBytes_cons (byte : UInt8) (bytes : List UInt8) :
    asciiBytes (byte :: bytes) = asciiBytes [byte] ++ asciiBytes bytes := by
  have parts := List.filter_append (p := fun byte : UInt8 => decide (byte.toNat < 0x80))
    [byte] bytes
  rw [asciiBytes, ← List.singleton_append, parts, List.map_append]
  rfl

theorem asciiBytes_of_le {byte : UInt8} (foreign : 0x80 ≤ byte.toNat) : asciiBytes [byte] = [] := by
  simp [asciiBytes, Nat.not_lt.mpr foreign]

/-- A character of ASCII has the code point of its byte. -/
theorem toNat_ofNat_of_lt {n : Nat} (small : n < 0x80) : (Char.ofNat n).toNat = n := by
  decide +revert

namespace Utf8

/-- No byte from 80 on is a character by itself. -/
theorem eq_malformed_of_first {byte : Nat} {item : Item} (foreign : 0x80 ≤ byte)
    (single : first byte = .inl item) : item = .malformed := by
  simp only [first, Nat.not_lt.mpr foreign, ↓reduceIte] at single
  split_ifs at single <;> exact (Sum.inl.inj single).symm

namespace Pending

/-- The least code point that a character begun may turn out to have. -/
def least (pending : Pending) : Nat :=
  (64 * pending.bits + (pending.low - 0x80)) * 64 ^ (pending.missing - 1)

/-- The first code point beyond those that a character begun may turn out to have. -/
def bound (pending : Pending) : Nat :=
  (64 * pending.bits + (pending.high - 0x80) + 1) * 64 ^ (pending.missing - 1)

/-- A character begun takes no byte below 80, and it turns out to be a character beyond ASCII. -/
structure Foreign (pending : Pending) : Prop where
  low_ge : 0x80 ≤ pending.low
  least_ge : 0x80 ≤ pending.least
  valid : pending.bound ≤ 0xD800 ∨ 0xE000 ≤ pending.least ∧ pending.bound ≤ 0x110000

theorem foreign_of_first {byte : Nat} {pending : Pending} (begun : first byte = .inr pending) :
    pending.Foreign := by
  simp only [first] at begun
  split_ifs at begun
  all_goals
    obtain rfl := Sum.inr.inj begun
    constructor <;> simp only [least, bound] <;> omega

variable {missing low high bits byte : Nat}

/-- A byte in the middle of a character narrows the range of its code points. -/
theorem Foreign.narrow (foreign : Foreign ⟨missing, low, high, bits⟩) (within : low ≤ byte)
    (notBeyond : byte ≤ high) (more : 1 < missing) :
    Foreign ⟨missing - 1, 0x80, 0xBF, 64 * bits + (byte - 0x80)⟩ := by
  obtain ⟨low_ge, least_ge, valid⟩ := foreign
  obtain ⟨others, rfl⟩ : ∃ others, missing = others + 2 := ⟨missing - 2, by omega⟩
  have low_le : (64 * bits + (low - 0x80)) * 64 ^ (others + 1) ≤
      (64 * bits + (byte - 0x80)) * 64 ^ (others + 1) := Nat.mul_le_mul_right _ (by omega)
  have le_high : (64 * bits + (byte - 0x80) + 1) * 64 ^ (others + 1) ≤
      (64 * bits + (high - 0x80) + 1) * 64 ^ (others + 1) := Nat.mul_le_mul_right _ (by omega)
  have isLeast : 64 * (64 * bits + (byte - 0x80)) * 64 ^ others =
      (64 * bits + (byte - 0x80)) * 64 ^ (others + 1) := by ring
  have isBound : (64 * (64 * bits + (byte - 0x80)) + 0x3F + 1) * 64 ^ others =
      (64 * bits + (byte - 0x80) + 1) * 64 ^ (others + 1) := by ring
  have next : others + 2 - 1 = others + 1 := rfl
  simp only [least, bound, next] at least_ge valid
  constructor <;> simp only [least, bound, next, Nat.add_sub_cancel, Nat.reduceSub, Nat.add_zero]
  · exact Nat.le_refl _
  · omega
  · omega

/-- The last byte of a character makes it one beyond ASCII. -/
theorem Foreign.toNat_ge (foreign : Foreign ⟨missing, low, high, bits⟩) (within : low ≤ byte)
    (notBeyond : byte ≤ high) (last : missing ≤ 1) :
    0x80 ≤ (Char.ofNat (64 * bits + (byte - 0x80))).toNat := by
  obtain ⟨low_ge, least_ge, valid⟩ := foreign
  have complete : missing - 1 = 0 := by omega
  simp only [least, bound, complete, Nat.pow_zero, Nat.mul_one] at least_ge valid
  have isValid : (64 * bits + (byte - 0x80)).isValidChar := by
    rw [Nat.isValidChar]
    omega
  have value : (Char.ofNat (64 * bits + (byte - 0x80))).toNat = 64 * bits + (byte - 0x80) := by
    rw [Char.ofNat, dif_pos isValid]
    rfl
  omega

end Pending

namespace Reader

/-- The characters of ASCII among what is read so far. -/
def ascii (reader : Reader) : List Char :=
  Text.ascii (reader.done.reverse.map Item.shown)

theorem ascii_cons (item : Item) (done : List Item) (pending : Option Pending) :
    ascii ⟨item :: done, pending⟩ = ascii ⟨done, none⟩ ++ Text.ascii [item.shown] := by
  simp [ascii, ascii_append]

theorem ascii_malformed (done : List Item) (pending : Option Pending) :
    ascii ⟨.malformed :: done, pending⟩ = ascii ⟨done, none⟩ := by
  have replaced : Text.ascii [Item.malformed.shown] = [] := by decide
  rw [ascii_cons, replaced, List.append_nil]

/-- What a first byte begins is the character that the byte is, or nothing in ASCII so far. -/
theorem ascii_begin (done : List Item) (byte : UInt8) :
    (begin done byte.toNat).ascii = ascii ⟨done, none⟩ ++ asciiBytes [byte] := by
  by_cases small : byte.toNat < 0x80
  · have single : first byte.toNat = .inl (.scalar (Char.ofNat byte.toNat)) := if_pos small
    have kept : Text.ascii [Char.ofNat byte.toNat] = asciiBytes [byte] := by
      simp [Text.ascii, asciiBytes, small, toNat_ofNat_of_lt small]
    simp only [begin, single, ascii_cons, Item.shown, kept]
  · rw [asciiBytes_of_le (Nat.not_lt.mp small), List.append_nil, begin]
    cases begun : first byte.toNat with
    | inr pending => rfl
    | inl item =>
      obtain rfl := eq_malformed_of_first (Nat.not_lt.mp small) begun
      exact ascii_malformed done none

/-- A character begun, if there is one, is beyond ASCII. -/
def Sound (reader : Reader) : Prop :=
  ∀ pending ∈ reader.pending, pending.Foreign

theorem sound_of_none (done : List Item) : Sound ⟨done, none⟩ := by
  rintro _ ⟨⟩

theorem sound_begin (done : List Item) (byte : Nat) : (begin done byte).Sound := by
  rw [begin]
  split
  next => exact sound_of_none _
  next begun =>
    rintro _ ⟨⟩
    exact Pending.foreign_of_first begun

/-- A byte adds itself to what is read, if it is below 80, and otherwise nothing in ASCII. -/
theorem Sound.step {reader : Reader} (sound : reader.Sound) (byte : UInt8) :
    (reader.step byte).Sound ∧ (reader.step byte).ascii = reader.ascii ++ asciiBytes [byte] := by
  obtain ⟨done, _ | pending⟩ := reader
  · exact ⟨sound_begin done _, ascii_begin done byte⟩
  · have foreign : pending.Foreign := sound pending rfl
    obtain ⟨missing, low, high, bits⟩ := pending
    have low_ge : 0x80 ≤ low := foreign.low_ge
    simp only [Reader.step]
    split_ifs with within last
    · have beyond := foreign.toNat_ge within.1 within.2 last
      refine ⟨sound_of_none _, ?_⟩
      have nothingShown : Text.ascii
          [(Item.scalar (Char.ofNat (64 * bits + (byte.toNat - 0x80)))).shown] = [] := by
        simpa [Text.ascii, Item.shown] using beyond
      rw [ascii_cons, nothingShown, asciiBytes_of_le (low_ge.trans within.1)]
      rfl
    · refine ⟨?_, ?_⟩
      · rintro _ ⟨⟩
        exact foreign.narrow within.1 within.2 (Nat.lt_of_not_le last)
      · rw [asciiBytes_of_le (low_ge.trans within.1), List.append_nil]
        rfl
    · refine ⟨sound_begin _ _, ?_⟩
      rw [ascii_begin, ascii_malformed]
      rfl

/-- The bytes of a file add themselves to what is read, as far as they are below 80. -/
theorem Sound.foldl_step {reader : Reader} (sound : reader.Sound) (bytes : List UInt8) :
    (bytes.foldl Reader.step reader).ascii = reader.ascii ++ asciiBytes bytes := by
  induction bytes generalizing reader with
  | nil => exact (List.append_nil _).symm
  | cons byte bytes ih =>
    obtain ⟨stays, adds⟩ := sound.step byte
    rw [List.foldl_cons, ih stays, adds, asciiBytes_cons byte bytes, List.append_assoc]

/-- A character that is cut off adds nothing. -/
theorem ascii_finish (reader : Reader) :
    Text.ascii (reader.finish.map Item.shown) = reader.ascii := by
  obtain ⟨done, _ | pending⟩ := reader
  · rfl
  · exact ascii_malformed done none

end Reader

end Utf8

/-- UTF-8 keeps the characters of ASCII, however broken a file is. -/
theorem ascii_utf8Text (bytes : List UInt8) : ascii (utf8Text bytes) = asciiBytes bytes := by
  rw [utf8Text, Utf8.items, Utf8.Reader.ascii_finish, (Utf8.Reader.sound_of_none []).foldl_step]
  rfl

/-- In Windows-1252 a byte below 80 is the character of ASCII, and no other byte is one. -/
theorem Windows1252.toNat_char_lt_iff (byte : UInt8) :
    (char byte).toNat < 0x80 ↔ byte.toNat < 0x80 := by
  have each : ∀ n < 0x100, (char (UInt8.ofNat n)).toNat < 0x80 ↔ n < 0x80 := by
    decide +kernel
  simpa using each byte.toNat byte.toNat_lt

theorem ascii_windows1252 (bytes : List UInt8) :
    ascii (Windows1252.decode bytes) = asciiBytes bytes := by
  rw [ascii, Windows1252.decode, List.filter_map, asciiBytes]
  have same : (fun byte => decide ((Windows1252.char byte).toNat < 0x80)) =
      fun byte : UInt8 => decide (byte.toNat < 0x80) := by
    funext byte
    rw [decide_eq_decide]
    exact Windows1252.toNat_char_lt_iff byte
  rw [Function.comp_def, same]
  apply List.map_congr_left
  intro byte member
  have small : byte.toNat < 0x80 := by simpa using (List.mem_filter.mp member).2
  simp [Windows1252.char, Nat.not_le.mpr small]

/-- A byte order mark of UTF-8 has no byte below 80. -/
theorem asciiBytes_of_afterUtf8Mark? {bytes rest : List UInt8}
    (marked : afterUtf8Mark? bytes = some rest) : asciiBytes bytes = asciiBytes rest := by
  obtain rfl : [0xEF, 0xBB, 0xBF] ++ rest = bytes :=
    List.isPrefixOf?_eq_some_iff_append_eq.mp marked
  rfl

section unmarked

variable {bytes : List UInt8} (noLittle : ¬ [0xFF, 0xFE] <+: bytes)
  (noBig : ¬ [0xFE, 0xFF] <+: bytes)

include noLittle noBig

/-- Without a byte order mark of UTF-16 the encoding that is fallen back to keeps them too. -/
theorem ascii_decodeMarked : ascii (decodeMarked bytes) = asciiBytes bytes := by
  have noMark {mark : List UInt8} (absent : ¬ mark <+: bytes) : mark.isPrefixOf? bytes = none := by
    rw [Option.eq_none_iff_forall_ne_some]
    intro rest marked
    exact absent ⟨rest, List.isPrefixOf?_eq_some_iff_append_eq.mp marked⟩
  rw [decodeMarked, noMark noLittle, noMark noBig]
  cases marked : afterUtf8Mark? bytes with
  | none => exact ascii_windows1252 bytes
  | some rest => rw [ascii_utf8Text, asciiBytes_of_afterUtf8Mark? marked]

theorem ascii_decode : ascii (decode bytes) = asciiBytes bytes := by
  simp only [decode]
  split_ifs
  · exact ascii_decodeMarked noLittle noBig
  · change ascii (utf8Text ((afterUtf8Mark? bytes).getD bytes)) = asciiBytes bytes
    rw [ascii_utf8Text]
    cases marked : afterUtf8Mark? bytes with
    | none => rfl
    | some rest => exact (asciiBytes_of_afterUtf8Mark? marked).symm

end unmarked

/-- A character of ASCII is what its byte is by itself, and no other byte. -/
theorem count_asciiBytes {c : Char} (small : c.toNat < 0x80) (bytes : List UInt8) :
    (asciiBytes bytes).count c = bytes.count (UInt8.ofNat c.toNat) := by
  have isByte : (UInt8.ofNat c.toNat).toNat = c.toNat :=
    UInt8.toNat_ofNat_of_lt' (Nat.lt_trans small (by decide))
  rw [asciiBytes, List.count, List.countP_map, List.countP_filter, List.count]
  apply List.countP_congr
  intro byte _
  simp only [Function.comp_apply, Bool.and_eq_true, beq_iff_eq, decide_eq_true_eq]
  constructor
  · rintro ⟨rfl, plain⟩
    rw [toNat_ofNat_of_lt plain, UInt8.ofNat_toNat]
  · rintro rfl
    rw [isByte]
    exact ⟨Char.ofNat_toNat c, small⟩

/-- A file without a byte order mark of UTF-16 is read with exactly the characters of ASCII that its
bytes below 80 are, in their order, whatever the encoding; so each of them stands in the text as
often as in the file. -/
theorem decode_keeps_ascii {bytes : List UInt8} (noLittle : ¬ [0xFF, 0xFE] <+: bytes)
    (noBig : ¬ [0xFE, 0xFF] <+: bytes) :
    (decode bytes).filter (fun c => c.toNat < 0x80) =
        (bytes.filter fun byte => byte.toNat < 0x80).map (fun byte => Char.ofNat byte.toNat) ∧
      ∀ c : Char, c.toNat < 0x80 → (decode bytes).count c = bytes.count (UInt8.ofNat c.toNat) := by
  have kept : ascii (decode bytes) = asciiBytes bytes := ascii_decode noLittle noBig
  refine ⟨kept, fun c small => ?_⟩
  have isAscii : decide (c.toNat < 0x80) = true := decide_eq_true small
  rw [← count_asciiBytes small, ← kept, ascii,
    List.count_filter (p := fun c : Char => decide (c.toNat < 0x80)) isAscii]

/-- A character that is cut off does not take the brace after it, neither where a replacement
character is shown for it nor where the file is read as Windows-1252. -/
theorem decode_keeps_ascii_broken :
    (decode [0x7B, 0xC3, 0xA9, 0xE2, 0x82, 0x7D]).filter (fun c => c.toNat < 0x80) =
        ['\x7b', '\x7d'] ∧
      (decode [0x7B, 0xE2, 0x82, 0x7D]).filter (fun c => c.toNat < 0x80) = ['\x7b', '\x7d'] := by
  have replaced : _ ∧ _ := @decode_keeps_ascii [0x7B, 0xC3, 0xA9, 0xE2, 0x82, 0x7D] (by decide)
    (by decide)
  have reread : _ ∧ _ := @decode_keeps_ascii [0x7B, 0xE2, 0x82, 0x7D] (by decide) (by decide)
  exact ⟨replaced.1.trans (by decide), reread.1.trans (by decide)⟩

end ScriptDelta.Text

import ScriptDelta.Proofs.Place.Seeking
import ScriptDelta.Proofs.Text.Slice

/-! # Texts as bytes

A character below U+0080 is written as one byte of the same number, and all bytes of any other
character are from 80 on. So a byte below 80 always stands for itself, and whether an offset lies
between two characters is seen from the one byte there: those from 80 to BF go on with a character,
and no others do (`atBoundary_iff`).
-/

namespace ScriptDelta.Text

/-- The bytes of a text in UTF-8. -/
def bytes (text : List Char) : List UInt8 :=
  text.flatMap String.utf8EncodeChar

@[simp] theorem bytes_nil : bytes [] = [] := rfl

@[simp] theorem bytes_cons (c : Char) (text : List Char) :
    bytes (c :: text) = String.utf8EncodeChar c ++ bytes text := rfl

@[simp] theorem bytes_append (first second : List Char) :
    bytes (first ++ second) = bytes first ++ bytes second :=
  List.flatMap_append

@[simp] theorem length_bytes (text : List Char) : (bytes text).length = byteSize text := by
  induction text with
  | nil => rfl
  | cons c text ih =>
    rw [bytes_cons, List.length_append, String.length_utf8EncodeChar, ih, byteSize_cons]

/-- The character is a byte by itself. -/
def IsAscii (c : Char) : Prop :=
  c.toNat < 0x80

instance (c : Char) : Decidable (IsAscii c) :=
  inferInstanceAs (Decidable (c.toNat < 0x80))

/-- The byte of a character that is one by itself. -/
def byteOf (c : Char) : UInt8 :=
  UInt8.ofNat c.toNat

/-- The byte goes on with a character. -/
def continues (byte : UInt8) : Bool :=
  0x80 ≤ byte.toNat && byte.toNat < 0xC0

theorem continues_iff {byte : UInt8} :
    continues byte = true ↔ 0x80 ≤ byte.toNat ∧ byte.toNat < 0xC0 := by
  simp [continues]

theorem toNat_byteOf {c : Char} (ascii : IsAscii c) : (byteOf c).toNat = c.toNat :=
  UInt8.toNat_ofNat_of_lt' (Nat.lt_trans ascii (by decide))

theorem toNat_byteOf_lt {c : Char} (ascii : IsAscii c) : (byteOf c).toNat < 0x80 := by
  rw [toNat_byteOf ascii]
  exact ascii

theorem byteOf_inj {c d : Char} (left : IsAscii c) (right : IsAscii d) :
    byteOf c = byteOf d ↔ c = d := by
  constructor
  · intro same
    have numbers : c.toNat = d.toNat := by rw [← toNat_byteOf left, ← toNat_byteOf right, same]
    exact Char.toNat_inj.mp numbers
  · rintro rfl
    rfl

theorem encode_of_isAscii {c : Char} (ascii : IsAscii c) : String.utf8EncodeChar c = [byteOf c] := by
  have small : c.val.toNat ≤ 127 := Nat.le_of_lt_succ ascii
  rw [String.utf8EncodeChar, if_pos small]
  rfl

/-- Any other character begins with a byte from C0 on and goes on with bytes below. -/
theorem encode_of_not_isAscii {c : Char} (foreign : ¬ IsAscii c) :
    ∃ lead tail, String.utf8EncodeChar c = lead :: tail ∧ 0xC0 ≤ lead.toNat ∧
      ∀ byte ∈ tail, continues byte = true := by
  have valid : c.toNat < 0xD800 ∨ 0xDFFF < c.toNat ∧ c.toNat < 0x110000 := c.valid
  have isValue : c.val.toNat = c.toNat := rfl
  have large : 0x80 ≤ c.toNat := Nat.le_of_not_lt foreign
  have isByte {n : Nat} (small : n < 0x100) : (UInt8.ofNat n).toNat = n :=
    UInt8.toNat_ofNat_of_lt' small
  have later (n : Nat) : continues (UInt8.ofNat (n % 0x40 + 0x80)) = true := by
    rw [continues_iff, isByte (by omega)]
    omega
  simp only [String.utf8EncodeChar, isValue]
  split_ifs with one two three
  · omega
  · refine ⟨_, _, rfl, ?_, by simp only [List.forall_mem_singleton, later]⟩
    rw [isByte (by omega)]
    omega
  · refine ⟨_, _, rfl, ?_, by
      simp only [List.forall_mem_cons, later, List.not_mem_nil, false_implies, implies_true,
        and_self]⟩
    rw [isByte (by omega)]
    omega
  · refine ⟨_, _, rfl, ?_, by
      simp only [List.forall_mem_cons, later, List.not_mem_nil, false_implies, implies_true,
        and_self]⟩
    rw [isByte (by omega)]
    omega

/-- A character begins with a byte that does not go on with another one, and its other bytes do. -/
theorem exists_encode (c : Char) :
    ∃ lead tail, String.utf8EncodeChar c = lead :: tail ∧ continues lead = false ∧
      (∀ byte ∈ tail, continues byte = true) ∧ ∀ d, IsAscii d → (lead = byteOf d ↔ c = d) := by
  by_cases ascii : IsAscii c
  · refine ⟨byteOf c, [], encode_of_isAscii ascii, ?_, by simp, fun d other => byteOf_inj ascii other⟩
    have small := toNat_byteOf_lt ascii
    rw [← Bool.not_eq_true, continues_iff]
    omega
  · obtain ⟨lead, tail, encoded, large, further⟩ := encode_of_not_isAscii ascii
    refine ⟨lead, tail, encoded, ?_, further, fun d other => iff_of_false ?_ ?_⟩
    · rw [← Bool.not_eq_true, continues_iff]
      omega
    · intro same
      have small := toNat_byteOf_lt other
      rw [← same] at small
      omega
    · rintro rfl
      exact ascii other

/-- A byte below 80 that a text begins with is its first character. -/
theorem head?_bytes_eq_iff {text : List Char} {d : Char} (ascii : IsAscii d) :
    (bytes text).head? = some (byteOf d) ↔ text.head? = some d := by
  cases text with
  | nil => simp
  | cons c text =>
    obtain ⟨lead, tail, encoded, -, -, same⟩ := exists_encode c
    rw [bytes_cons, encoded]
    simpa using same d ascii

/-- A byte below 80 occurs only where its character does. -/
theorem byteOf_mem_bytes_iff {text : List Char} {d : Char} (ascii : IsAscii d) :
    byteOf d ∈ bytes text ↔ d ∈ text := by
  induction text with
  | nil => simp
  | cons c text ih =>
    obtain ⟨lead, tail, encoded, -, further, same⟩ := exists_encode c
    have absent : byteOf d ∉ tail := by
      intro member
      have small := toNat_byteOf_lt ascii
      have large := continues_iff.mp (further _ member)
      omega
    have first : byteOf d = lead ↔ d = c := by
      rw [eq_comm, same d ascii, eq_comm]
    rw [bytes_cons, encoded]
    simp [first, absent, ih]

/-- The offset is at the start of the bytes, at their end, or at a byte that goes on with no
character. -/
def atBoundary (bytes : List UInt8) (offset : Nat) : Bool :=
  offset == 0 ||
    match bytes[offset]? with
    | some byte => !continues byte
    | none => offset == bytes.length

theorem isBoundary_zero (text : List Char) : IsBoundary text 0 :=
  ⟨[], text, rfl, rfl⟩

/-- Inside a character there is no boundary, and behind it those of the rest are. -/
theorem isBoundary_cons_iff {c : Char} {text : List Char} {offset : Nat} :
    IsBoundary (c :: text) offset ↔
      offset = 0 ∨ ∃ further, offset = c.utf8Size + further ∧ IsBoundary text further := by
  constructor
  · rintro ⟨before, after, split, rfl⟩
    cases before with
    | nil => exact .inl rfl
    | cons d before =>
      obtain ⟨rfl, rfl⟩ := List.cons.inj split
      exact .inr ⟨byteSize before, rfl, before, after, rfl, rfl⟩
  · rintro (rfl | ⟨further, rfl, before, after, rfl, rfl⟩)
    · exact isBoundary_zero _
    · exact ⟨c :: before, after, rfl, rfl⟩

/-- At the start of a text the byte itself shows the boundary. -/
theorem atBoundary_bytes (text : List Char) (offset : Nat) :
    atBoundary (bytes text) offset =
      match (bytes text)[offset]? with
      | some byte => !continues byte
      | none => offset == byteSize text := by
  by_cases start : offset = 0
  · subst start
    cases text with
    | nil => rfl
    | cons c text =>
      obtain ⟨lead, tail, encoded, fresh, -⟩ := exists_encode c
      simp [atBoundary, encoded, fresh]
  · simp [atBoundary, start]

/-- An offset is found to be a boundary exactly if it lies between two characters. -/
theorem atBoundary_iff (text : List Char) (offset : Nat) :
    atBoundary (bytes text) offset = true ↔ IsBoundary text offset := by
  induction text generalizing offset with
  | nil =>
    have only : IsBoundary [] offset ↔ offset = 0 := by
      simp [IsBoundary]
    simp [atBoundary, only]
  | cons c text ih =>
    obtain ⟨lead, tail, encoded, -, further, -⟩ := exists_encode c
    have size : c.utf8Size = tail.length + 1 := by
      rw [← String.length_utf8EncodeChar, encoded, List.length_cons]
    rw [isBoundary_cons_iff]
    by_cases start : offset = 0
    · simp [start, atBoundary]
    by_cases inside : offset < c.utf8Size
    · obtain ⟨index, rfl⟩ := Nat.exists_eq_succ_of_ne_zero start
      have within : index < tail.length := by omega
      have found : (bytes (c :: text))[index + 1]? = some tail[index] := by
        rw [bytes_cons, encoded, List.cons_append, List.getElem?_cons_succ,
          List.getElem?_append_left within, List.getElem?_eq_getElem within]
      have goesOn := further _ (List.getElem_mem within)
      refine iff_of_false ?_ ?_
      · rw [atBoundary, found]
        simp [goesOn]
      · rintro (zero | ⟨more, behind, -⟩) <;> omega
    · obtain ⟨more, rfl⟩ := Nat.exists_eq_add_of_le (Nat.le_of_not_lt inside)
      have found : (bytes (c :: text))[c.utf8Size + more]? = (bytes text)[more]? := by
        rw [bytes_cons, ← String.length_utf8EncodeChar, List.getElem?_append_right (by omega),
          Nat.add_sub_cancel_left]
      have same : atBoundary (bytes (c :: text)) (c.utf8Size + more) =
          atBoundary (bytes text) more := by
        rw [atBoundary_bytes, atBoundary_bytes, found, byteSize_cons]
        cases (bytes text)[more]? with
        | none => simp
        | some byte => rfl
      rw [same, ih]
      simp only [start, false_or, Nat.add_left_cancel_iff, exists_eq_left']

/-- The last boundary that is not past the offset. -/
def floorBoundary (bytes : List UInt8) : Nat → Nat
  | 0 => 0
  | offset + 1 =>
    if atBoundary bytes (offset + 1) then offset + 1 else floorBoundary bytes offset

theorem floorBoundary_spec (bytes : List UInt8) (offset : Nat) :
    floorBoundary bytes offset ≤ offset ∧ atBoundary bytes (floorBoundary bytes offset) = true ∧
      ∀ other ≤ offset, atBoundary bytes other = true → other ≤ floorBoundary bytes offset := by
  induction offset with
  | zero => exact ⟨Nat.le_refl _, rfl, fun other within _ => within⟩
  | succ offset ih =>
    obtain ⟨within, boundary, last⟩ := ih
    rw [floorBoundary]
    split_ifs with here
    · exact ⟨Nat.le_refl _, here, fun other within _ => within⟩
    · refine ⟨by omega, boundary, fun other before found => last other ?_ found⟩
      have elsewhere : other ≠ offset + 1 := by
        rintro rfl
        exact here found
      omega

/-- The last boundary of a text that is not past the offset ends the longest beginning of the text
that fits. -/
theorem Floor.floorBoundary {text before : List Char} {offset : Nat}
    (floor : Floor text offset before) :
    floorBoundary (bytes text) (min offset (bytes text).length) = byteSize before := by
  obtain ⟨⟨after, split⟩, fits, longest⟩ := floor
  obtain ⟨within, boundary, last⟩ :=
    floorBoundary_spec (bytes text) (min offset (bytes text).length)
  have whole : byteSize before ≤ byteSize text := by
    rw [← split, byteSize_append]
    omega
  rw [length_bytes] at within boundary last ⊢
  apply Nat.le_antisymm
  · obtain ⟨other, rest, isText, size⟩ := (atBoundary_iff text _).mp boundary
    obtain ⟨more, rfl⟩ := longest other ⟨rest, isText.symm⟩ (by omega)
    rw [size, byteSize_append]
    omega
  · refine last _ (by omega) ((atBoundary_iff text _).mpr ?_)
    exact ⟨before, after, split.symm, rfl⟩

end ScriptDelta.Text

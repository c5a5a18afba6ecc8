import Mathlib.Data.List.Basic
import ScriptDelta.Proofs.Text.Utf8
import ScriptDelta.Text.Decoding

/-! # When a file is not read as UTF-8

A file of characters in UTF-8 with some stray bytes between them is read as it is meant, each stray
byte as a replacement character, as long as these and the replacement characters that the file has
of its own are at most half of the characters beyond ASCII. One more, and every byte is read as a
character of Windows-1252 instead, unless the file begins with a byte order mark (`decode_items`).
-/

namespace ScriptDelta.Text

/-- A character beyond ASCII. -/
def Item.isForeign : Item → Bool
  | .scalar c => 0x80 ≤ c.toNat
  | .malformed => false

section

variable (written : List Item)

/-- Malformed items come out as characters beyond ASCII. -/
theorem countP_shown :
    (written.map Item.shown).countP (fun c => 0x80 ≤ c.toNat) =
      written.countP Item.isForeign + written.count .malformed := by
  induction written with
  | nil => rfl
  | cons item written ih =>
    cases item with
    | scalar c =>
      by_cases foreign : 0x80 ≤ c.toNat
      · simp [Item.shown, Item.isForeign, ih, foreign, Nat.add_right_comm]
      · simp [Item.shown, Item.isForeign, ih, foreign]
    | malformed => simp [Item.shown, Item.isForeign, ih, Nat.add_assoc]

/-- Malformed items come out as replacement characters. -/
theorem count_shown :
    (written.map Item.shown).count '\ufffd' =
      written.count (.scalar '\ufffd') + written.count .malformed := by
  induction written with
  | nil => rfl
  | cons item written ih =>
    cases item with
    | scalar c =>
      simp only [List.map_cons, List.count_cons, ih, Item.shown]
      by_cases same : c = '\ufffd'
      · simp [same, Nat.add_right_comm]
      · simp [same]
    | malformed => simp [Item.shown, ih, Nat.add_assoc]

/-- A byte order mark is the character that it encodes. -/
theorem afterUtf8Mark?_of_head? (unmarked : written.head? ≠ some (.scalar '\ufeff')) :
    afterUtf8Mark? (written.flatMap Item.bytes) = none := by
  cases marked : afterUtf8Mark? (written.flatMap Item.bytes) with
  | none => rfl
  | some rest =>
    have split : (Item.scalar '\ufeff').bytes ++ rest = written.flatMap Item.bytes :=
      List.isPrefixOf?_eq_some_iff_append_eq.mp marked
    have read := Utf8.items_bytes_append (.scalar '\ufeff') rest
    rw [split, Utf8.items_flatMap_bytes] at read
    simp [read] at unmarked

/-- Neither byte order mark of UTF-16 occurs. -/
theorem decodeMarked_of_head? (unmarked : written.head? ≠ some (.scalar '\ufeff')) :
    decodeMarked (written.flatMap Item.bytes) =
      Windows1252.decode (written.flatMap Item.bytes) := by
  have absent : 0xFE ∉ written.flatMap Item.bytes := by
    intro member
    obtain ⟨item, -, member⟩ := List.mem_flatMap.mp member
    cases item with
    | scalar c => exact absurd (Utf8.toNat_lt_of_mem_utf8EncodeChar member) (by decide)
    | malformed => simp [Item.bytes] at member
  have noMark (mark : List UInt8) (holds : 0xFE ∈ mark) :
      mark.isPrefixOf? (written.flatMap Item.bytes) = none := by
    cases marked : mark.isPrefixOf? (written.flatMap Item.bytes) with
    | none => rfl
    | some rest =>
      rw [← List.isPrefixOf?_eq_some_iff_append_eq.mp marked] at absent
      exact absurd (List.mem_append_left rest holds) absent
  have little := noMark [0xFF, 0xFE] (by decide)
  have big := noMark [0xFE, 0xFF] (by decide)
  simp only [decodeMarked, afterUtf8Mark?_of_head? written unmarked, little, big]

/-- No item is malformed, or at most half of what is beyond ASCII is broken, counting the
replacement characters that stand for themselves. -/
def Item.Legible : Prop :=
  written.count .malformed = 0 ∨
    2 * (written.count (.scalar '\ufffd') + written.count .malformed) ≤
      written.countP isForeign + written.count .malformed

instance : Decidable (Item.Legible written) :=
  inferInstanceAs (Decidable (_ ∨ _))

theorem legible_iff : Item.Legible written ↔
    written.contains .malformed = false ∨ mostlyReplaced (written.map Item.shown) = false := by
  rw [Item.Legible, mostlyReplaced, decide_eq_false_iff_not, Nat.not_lt, countP_shown, count_shown,
    List.count_eq_zero, ← List.contains_iff_mem, Bool.not_eq_true]

end

/-- Behind a byte order mark everything is read as UTF-8. -/
theorem decode_marked (bytes : List UInt8) :
    decode ([0xEF, 0xBB, 0xBF] ++ bytes) = utf8Text bytes := by
  have marked : afterUtf8Mark? ([0xEF, 0xBB, 0xBF] ++ bytes) = some bytes := rfl
  simp only [decode, decodeMarked, marked, Option.getD_some, utf8Text, ite_self]

/-- Without one the stray bytes decide. -/
theorem decode_unmarked {written : List Item}
    (unmarked : written.head? ≠ some (.scalar '\ufeff')) :
    decode (written.flatMap Item.bytes) =
      if Item.Legible written then written.map Item.shown
      else Windows1252.decode (written.flatMap Item.bytes) := by
  have none := afterUtf8Mark?_of_head? written unmarked
  simp only [decode, none, Option.getD_none, Utf8.items_flatMap_bytes,
    decodeMarked_of_head? written unmarked, legible_iff]
  cases written.contains .malformed <;> cases mostlyReplaced (written.map Item.shown) <;> rfl

/-- Characters in UTF-8 and stray bytes are read as they are meant, unless more than half of what is
beyond ASCII is broken; then every byte is read as Windows-1252. Behind a byte order mark they are
always read as they are meant, and so is a text without stray bytes, less the mark. -/
theorem decode_items (written : List Item) :
    (written.head? ≠ some (.scalar '\ufeff') →
      decode (written.flatMap Item.bytes) =
        if Item.Legible written then written.map Item.shown
        else Windows1252.decode (written.flatMap Item.bytes)) ∧
    decode ([0xEF, 0xBB, 0xBF] ++ written.flatMap Item.bytes) = written.map Item.shown ∧
    ∀ text : List Char, decode (text.flatMap String.utf8EncodeChar) =
      if text.head? = some '\ufeff' then text.tail else text := by
  have marked (written : List Item) :
      decode ([0xEF, 0xBB, 0xBF] ++ written.flatMap Item.bytes) = written.map Item.shown := by
    rw [decode_marked, utf8Text, Utf8.items_flatMap_bytes]
  refine ⟨decode_unmarked, marked written, fun text => ?_⟩
  have bytes (text : List Char) :
      text.flatMap String.utf8EncodeChar = (text.map Item.scalar).flatMap Item.bytes := by
    rw [List.flatMap_map]
    rfl
  have shown (text : List Char) : (text.map Item.scalar).map Item.shown = text := by
    rw [List.map_map]
    exact List.map_id text
  split_ifs with begins
  · obtain ⟨rest, rfl⟩ := List.head?_eq_some_iff.mp begins
    rw [List.flatMap_cons, bytes rest, List.tail_cons]
    exact (marked _).trans (shown rest)
  · have clean : (text.map Item.scalar).count .malformed = 0 := by
      simp [List.count_eq_zero]
    have unmarked : (text.map Item.scalar).head? ≠ some (.scalar '\ufeff') := by
      simpa using begins
    rw [bytes, decode_unmarked unmarked, if_pos (.inl clean), shown]

/-- One broken character of two beyond ASCII is shown as such, and with another one the bytes are
read as Windows-1252. -/
theorem decode_items_half :
    decode [0xC3, 0xA9, 0xFF] = ['\u00e9', '\ufffd'] ∧
      decode [0xC3, 0xA9, 0xFF, 0xFF] = ['\u00c3', '\u00a9', '\u00ff', '\u00ff'] := by
  have half := (decode_items [.scalar '\u00e9', .malformed]).1 (by decide)
  have more := (decode_items [.scalar '\u00e9', .malformed, .malformed]).1 (by decide)
  exact ⟨half.trans (by decide), more.trans (by decide)⟩

end ScriptDelta.Text

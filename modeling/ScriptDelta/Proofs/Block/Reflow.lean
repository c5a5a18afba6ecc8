import ScriptDelta.Proofs.Block.Layout
import ScriptDelta.Proofs.Text.OneLine
import ScriptDelta.Text.Digest

/-! # Blocks and line breaks

Only a comment that ends with the line tells a newline from another blank. Where no two slashes
stand side by side no such comment begins, and the reader of blocks makes the same of a text when it
is put on one line (`following_oneLine`). On one line all texts with the same words have the same
layout, so their first blocks have the same words, wherever the texts break their lines
(`find_reflow`).
-/

namespace ScriptDelta.Block

open Text

namespace Reader

/-- Neither the reader nor the text begins a comment that ends with the line. A slash that the
reader has just read counts as a part of the text. -/
structure Uncommented (reader : Reader) (text : List Char) : Prop where
  sound : reader.Sound
  mode : reader.mode ≠ .lineComment
  slashes : ¬ ['/', '/'] <:+: if reader.mode = .slash then '/' :: text else text

section

variable {reader next : Reader} {c : Char}

theorem mode_of_code {depth : Nat} (read : code depth c = some next) :
    next.mode ≠ .lineComment ∧ (next.mode = .slash → c = '/') := by
  unfold code at read
  split at read
  · cases read; simp
  · cases read; simp
  · cases read; simp
  · split at read
    · contradiction
    · cases read; simp
  · split at read <;> (cases read; simp)

/-- A line comment takes two slashes, and only a slash is remembered as one. -/
theorem mode_of_step (stepped : reader.step c = some next) :
    (next.mode = .lineComment →
      reader.mode = .lineComment ∨ reader.mode = .slash ∧ c = '/') ∧
    (next.mode = .slash → c = '/') := by
  obtain ⟨mode, depth⟩ := reader
  cases mode with
  | code =>
    obtain ⟨noComment, slash⟩ := mode_of_code stepped
    exact ⟨fun comment => absurd comment noComment, slash⟩
  | slash =>
    simp only [step] at stepped
    split_ifs at stepped with line block
    · cases stepped
      exact ⟨fun _ => .inr ⟨rfl, by simpa using line⟩, by simp⟩
    · cases stepped
      simp
    · obtain ⟨noComment, slash⟩ := mode_of_code stepped
      exact ⟨fun comment => absurd comment noComment, slash⟩
  | lineComment =>
    cases stepped
    exact ⟨fun _ => .inl rfl, by dsimp only; split <;> simp⟩
  | escape | quotedEscape =>
    cases stepped
    simp
  | blockComment | star | quoted =>
    cases stepped
    dsimp only
    split_ifs <;> simp

/-- Outside line comments a space does what a newline does. -/
theorem step_flatChar (sound : reader.Sound) (noComment : reader.mode ≠ .lineComment) :
    reader.step (flatChar c) = reader.step c := by
  by_cases newline : c = '\n'
  · subst newline
    have same : reader.afterGap false = reader.afterGap true := by
      obtain ⟨mode, depth⟩ := reader
      cases mode with
      | lineComment => contradiction
      | _ => rfl
    have space : reader.step ' ' = some (reader.afterGap false) := step_blank sound (by decide)
    have broken : reader.step '\n' = some (reader.afterGap true) := step_blank sound (by decide)
    exact space.trans (same ▸ broken.symm)
  · rw [flatChar_of_ne newline]

theorem Uncommented.step {text : List Char} (plain : reader.Uncommented (c :: text))
    (stepped : reader.step c = some next) : next.Uncommented text := by
  obtain ⟨sound, mode, slashes⟩ := plain
  obtain ⟨comment, slash⟩ := mode_of_step stepped
  have own : ¬ ['/', '/'] <:+: c :: text := by
    intro found
    refine slashes ?_
    split
    · exact found.trans (List.infix_cons List.infix_rfl)
    · exact found
  refine ⟨sound_of_step sound stepped, fun opened => ?_, ?_⟩
  · rcases comment opened with already | ⟨before, rfl⟩
    · exact mode already
    · rw [if_pos before] at slashes
      exact slashes (List.prefix_append ['/', '/'] text).isInfix
  · split
    next after =>
      obtain rfl := slash after
      exact own
    next => exact fun found => own (found.trans (List.infix_cons List.infix_rfl))

/-- What follows the closing brace is the same, on one line. -/
theorem close?_oneLine {text : List Char} (plain : reader.Uncommented text) :
    reader.close? (oneLine text) = (reader.close? text).map oneLine := by
  induction text generalizing reader with
  | nil => rfl
  | cons c text ih =>
    rw [oneLine_cons, close?, close?, step_flatChar plain.sound plain.mode]
    cases stepped : reader.step c with
    | none => rfl
    | some next => exact ih (plain.step stepped)

end

end Reader

/-- The block on one line. -/
def oneLine (block : Block) : Block :=
  { block with text := Text.oneLine block.text }

theorem flatChar_bne_brace : (fun c => flatChar c != '\x7b') = fun c => c != '\x7b' := by
  funext c
  have same : flatChar c = '\x7b' ↔ c = '\x7b' := flatChar_eq_iff (by decide)
  rw [Bool.eq_iff_iff]
  simp [same]

theorem byteSize_oneLine (text : List Char) : byteSize (Text.oneLine text) = byteSize text := by
  induction text with
  | nil => rfl
  | cons c text ih =>
    have size : (flatChar c).utf8Size = c.utf8Size := by
      by_cases newline : c = '\n'
      · subst newline
        rfl
      · rw [flatChar_of_ne newline]
    rw [oneLine_cons, byteSize_cons, byteSize_cons, size, ih]

/-- Without two slashes side by side the block of a text on one line is the block of the text, on
one line. -/
theorem following_oneLine (place : Place) (clear : ¬ ['/', '/'] <:+: place.rest) :
    following ⟨place.offset, Text.oneLine place.rest⟩ = (following place).oneLine := by
  have skipped : (⟨place.offset, Text.oneLine place.rest⟩ : Place).skipWhile (· != '\x7b') =
      ⟨(place.skipWhile (· != '\x7b')).offset,
        Text.oneLine (place.skipWhile (· != '\x7b')).rest⟩ := by
    simp only [Place.skipWhile, Text.oneLine, List.takeWhile_map, List.dropWhile_map,
      Function.comp_def, flatChar_bne_brace]
    rw [← Text.oneLine, byteSize_oneLine]
  have plain : (⟨.code, 0⟩ : Reader).Uncommented (place.skipWhile (· != '\x7b')).rest := by
    refine ⟨trivial, by simp, fun found => clear (found.trans ?_)⟩
    exact (List.dropWhile_suffix _).isInfix
  simp only [following, skipped, Reader.close?_oneLine plain]
  generalize place.skipWhile (· != '\x7b') = opening
  by_cases nothing : opening.rest = []
  · simp [nothing, oneLine]
  · have occupied : Text.oneLine opening.rest ≠ [] := by simpa [Text.oneLine] using nothing
    simp only [List.isEmpty_iff, nothing, occupied, ↓reduceIte]
    cases (⟨.code, 0⟩ : Reader).close? opening.rest with
    | none => rfl
    | some rest =>
      simp only [Option.map_some, Text.oneLine, List.length_map, ← List.map_take]
      rfl

/-- Two texts with the same words and without two slashes side by side hold first blocks that are
both closed or not and have the same words, normal form and digest. It makes no difference where the
texts break their lines. -/
theorem find_reflow {first second : List Char} (same : words first = words second)
    (clear : ¬ ['/', '/'] <:+: first) (otherClear : ¬ ['/', '/'] <:+: second) :
    (find first 0).closed = (find second 0).closed ∧
      words (find first 0).text = words (find second 0).text ∧
      Text.normalize (String.ofList (find first 0).text) =
        Text.normalize (String.ofList (find second 0).text) ∧
      contentDigest (String.ofList (find first 0).text) =
        contentDigest (String.ofList (find second 0).text) := by
  have atStart (text : List Char) : find text 0 = following ⟨0, text⟩ := find_eq_following [] text
  have flat {text : List Char} (clear : ¬ ['/', '/'] <:+: text) :
      following ⟨0, Text.oneLine text⟩ = (following ⟨0, text⟩).oneLine :=
    following_oneLine ⟨0, text⟩ clear
  have alike : Alike false ((⟨0, Text.oneLine first⟩ : Place).rest.dropWhile isBlank)
      ((⟨0, Text.oneLine second⟩ : Place).rest.dropWhile isBlank) := (sameLayout_oneLine same).alike
  obtain ⟨blockWords, closed, -⟩ := following_alike alike
  rw [flat clear, flat otherClear] at closed blockWords
  have sameWords : words (find first 0).text = words (find second 0).text := by
    rw [atStart, atStart, ← words_oneLine, ← words_oneLine (following ⟨0, second⟩).text]
    exact blockWords
  have sameNormal : Text.normalize (String.ofList (find first 0).text) =
      Text.normalize (String.ofList (find second 0).text) := by
    simp only [Text.normalize, collapse, String.toList_ofList, sameWords]
  refine ⟨?_, sameWords, sameNormal, ?_⟩
  · rw [atStart, atStart]
    exact closed
  · rw [contentDigest, sameNormal, contentDigest]

/-- Line breaks come and go after a backslash, in a string and in a comment. -/
theorem find_reflow_escape :
    let first := "f\x7b\\\n'\x7d\n' /* \x7b\u3000\x7d */\n\x7d g".toList
    let second := "f\x7b\\ '\x7d\u2003' /*\n\x7b\n\n\x7d */ \x7d\ng".toList
    (find first 0).text ≠ (find second 0).text ∧ (find second 0).closed = true ∧
      (find first 0).closed = true ∧
      contentDigest (String.ofList (find first 0).text) =
        contentDigest (String.ofList (find second 0).text) := by
  intro first second
  have same : words first = words second := by decide +kernel
  have clear : ¬ ['/', '/'] <:+: first := by decide +kernel
  have otherClear : ¬ ['/', '/'] <:+: second := by decide +kernel
  have closedSecond : (find second 0).closed = true := by decide +kernel
  obtain ⟨closed, -, -, digest⟩ := find_reflow same clear otherClear
  exact ⟨by decide +kernel, closedSecond, closed.trans closedSecond, digest⟩

/-- After two slashes a line break makes a difference. -/
example : (find "\x7b//\n\x7d".toList 0).closed = true ∧
    (find "\x7b// \x7d".toList 0).closed = false := by decide

end ScriptDelta.Block

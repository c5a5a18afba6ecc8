import ScriptDelta.Proofs.Block.Nesting
import ScriptDelta.Proofs.Text.Slice

/-! # Where a block stands

A block that is not empty is an opening brace, what it holds, and a closing brace if it is closed
(`Isolated.text_eq_braces`). So its bytes and those between its braces are slices of the text. Inside
the block the reader has a brace open all the time (`Isolated.exists_run`).
-/

namespace ScriptDelta.Block

open Text

namespace Reader

/-- Only a closing brace that counts ends a block, and only if no other brace is open. -/
theorem step_eq_none_iff {reader : Reader} {c : Char} :
    reader.step c = none ↔ c = '\x7d' ∧ reader.InCode ∧ reader.depth ≤ 1 := by
  obtain ⟨mode, depth⟩ := reader
  have inCode : code depth c = none ↔ c = '\x7d' ∧ depth ≤ 1 := by
    unfold code
    split <;> simp_all
    split <;> simp
  cases mode with
  | code => simpa [step, InCode] using inCode
  | slash =>
    by_cases line : c = '/'
    · simp [step, line]
    by_cases comment : c = '*'
    · simp [step, comment]
    simpa [step, InCode, line, comment] using inCode
  | escape | lineComment | blockComment | star | quoted | quotedEscape => simp [step, InCode]

/-- A text that closes a block ends with the closing brace. -/
theorem Closes.exists_brace {reader : Reader} {text : List Char} (closes : reader.Closes text) :
    ∃ inside next, text = inside ++ ['\x7d'] ∧ reader.run inside = some next ∧ next.InCode ∧
      next.depth ≤ 1 := by
  obtain ⟨inside, last, next, rfl, ran, stuck⟩ := closes
  obtain ⟨rfl, inCode, single⟩ := step_eq_none_iff.mp stuck
  exact ⟨inside, next, rfl, ran, inCode, single⟩

end Reader

/-- The brace that closes the block, if it is closed. -/
def closer (block : Block) : List Char :=
  if block.closed then ['\x7d'] else []

section

variable {place : Place} {block : Block}

/-- A block that is not empty is what it holds, between braces. -/
theorem Isolated.text_eq_braces (isolated : Isolated place block) (occupied : block.text ≠ []) :
    block.text = '\x7b' :: (block.inner ++ block.closer) := by
  cases isolated with
  | empty => contradiction
  | @opened skipped body after closed _ _ ends =>
    cases ends with
    | unclosed => simp [inner, closer]
    | closed closes =>
      obtain ⟨inside, -, split, -⟩ := closes.exists_brace
      cases inside with
      | nil => simp at split
      | cons c inside =>
        obtain ⟨rfl, rfl⟩ := List.cons.inj split
        simp [inner, closer]

/-- An empty block is not closed and holds nothing. -/
theorem Isolated.of_text_eq_nil (isolated : Isolated place block) (empty : block.text = []) :
    block.closed = false ∧ block.interior = block.span ∧ block.inner = [] := by
  cases isolated with
  | empty => exact ⟨rfl, by simp [interior, Span.interior, span], rfl⟩
  | opened => contradiction

/-- Wherever the reader stands inside the block, a brace is open. -/
theorem Isolated.exists_run (isolated : Isolated place block) {part more : List Char}
    (split : block.text = part ++ more) (begun : part ≠ []) (remains : more ≠ []) :
    ∃ next, (⟨.code, 0⟩ : Reader).run part = some next ∧ 0 < next.depth := by
  cases isolated with
  | empty => exact absurd (List.append_eq_nil_iff.mp split.symm).1 begun
  | @opened skipped body after closed _ _ ends =>
    cases part with
    | nil => contradiction
    | cons c part =>
      obtain ⟨rfl, rfl⟩ := List.cons.inj split
      have ends : (⟨.code, 0⟩ : Reader).Ends (('\x7b' :: part) ++ more) after closed := ends
      obtain ⟨next, ran, -⟩ := ends.exists_run remains
      have inside : (⟨.code, 1⟩ : Reader).run part = some next := ran
      exact ⟨next, ran, Reader.depth_pos_of_run inside Nat.one_pos⟩

theorem Isolated.interior_eq (isolated : Isolated place block) (occupied : block.text ≠ []) :
    block.interior = ⟨block.start + 1, block.start + 1 + byteSize block.inner⟩ := by
  have closing : byteSize block.closer = if block.closed then 1 else 0 := by
    rw [closer]
    split <;> rfl
  have size : byteSize block.text = 1 + (byteSize block.inner + byteSize block.closer) := by
    rw [isolated.text_eq_braces occupied, byteSize_cons, byteSize_append]
    rfl
  have start : block.span.start = block.start := rfl
  have stop : block.span.stop = block.start + byteSize block.text := rfl
  rw [interior, Span.interior, if_neg (by omega), start, stop, size, closing]
  congr 1
  split <;> omega

end

/-- The bytes that a block occupies are cut out of the text. -/
theorem slice?_span (text : List Char) (offset : Nat) :
    slice? text (find text offset).span = some (find text offset).text := by
  obtain ⟨before, after, split, start⟩ := exists_slice text offset
  exact slice?_eq_some_iff.mpr ⟨before, after, split, start, by rw [span, start, byteSize_append]⟩

/-- So are the bytes between its braces. -/
theorem slice?_interior (text : List Char) (offset : Nat) :
    slice? text (find text offset).interior = some (find text offset).inner := by
  have isolated : Isolated ((Place.start text).seek offset) (find text offset) :=
    isolated_following _
  by_cases empty : (find text offset).text = []
  · obtain ⟨-, same, nothing⟩ := isolated.of_text_eq_nil empty
    rw [same, slice?_span, empty, nothing]
  · obtain ⟨before, after, split, start⟩ := exists_slice text offset
    have own := isolated.text_eq_braces empty
    have size : byteSize (before ++ ['\x7b']) = byteSize before + 1 := byteSize_append ..
    rw [isolated.interior_eq empty, slice?_eq_some_iff]
    refine ⟨before ++ ['\x7b'], (find text offset).closer ++ after, ?_, ?_, ?_⟩
    · rw [own] at split
      simpa using split
    · rw [start, size]
    · rw [byteSize_append, size, start]

end ScriptDelta.Block

import ScriptDelta.Proofs.Block.Reading
import ScriptDelta.Proofs.Text.Words

/-! # Blocks and layout

A gap does to the reader of a block what a single blank does, or a newline if it has one. In texts
that are alike the reader therefore stops at corresponding characters: their first blocks have the
same words, and both are closed or neither is.
-/

namespace ScriptDelta.Block

open Text

namespace Reader

/-- No blank ends the string that the reader is in. -/
def Sound (reader : Reader) : Prop :=
  match reader.mode with
  | .quoted quote | .quotedEscape quote => isBlank quote = false
  | _ => True

/-- The reader after some blanks, with or without a newline among them. -/
def afterGap (reader : Reader) (newline : Bool) : Reader :=
  match reader.mode with
  | .code | .slash | .escape => ⟨.code, reader.depth⟩
  | .lineComment => ⟨if newline then .code else .lineComment, reader.depth⟩
  | .blockComment | .star => ⟨.blockComment, reader.depth⟩
  | .quoted quote | .quotedEscape quote => ⟨.quoted quote, reader.depth⟩

theorem sound_afterGap {reader : Reader} (sound : reader.Sound) (newline : Bool) :
    (reader.afterGap newline).Sound := by
  obtain ⟨mode, depth⟩ := reader
  cases mode <;> cases newline <;> exact sound

/-- Quotes are no blanks. -/
theorem sound_of_step {reader next : Reader} {c : Char} (sound : reader.Sound)
    (stepped : reader.step c = some next) : next.Sound := by
  have afterCode {depth : Nat} (read : code depth c = some next) : next.Sound := by
    unfold code at read
    split at read
    · cases read; trivial
    · cases read; trivial
    · cases read; trivial
    · split at read
      · contradiction
      · cases read; trivial
    · split at read
      next quote =>
        cases read
        simp only [Bool.or_eq_true, beq_iff_eq] at quote
        rcases quote with (rfl | rfl) | rfl <;> (show isBlank _ = false; decide)
      next => cases read; trivial
  obtain ⟨mode, depth⟩ := reader
  cases mode with
  | code => exact afterCode stepped
  | slash =>
    simp only [step] at stepped
    split at stepped
    · cases stepped; trivial
    · split at stepped
      · cases stepped; trivial
      · exact afterCode stepped
  | escape => cases stepped; trivial
  | lineComment => cases stepped; dsimp only; split <;> trivial
  | blockComment => cases stepped; dsimp only; split <;> trivial
  | star =>
    cases stepped
    dsimp only
    split
    · trivial
    · split <;> trivial
  | quoted quote =>
    cases stepped
    dsimp only
    split
    · exact sound
    · split
      · trivial
      · exact sound
  | quotedEscape quote => cases stepped; exact sound

/-- The characters that mean something to the reader, the ends of strings and lines apart. -/
def specials : List Char :=
  ['/', '*', '\\', '\x7b', '\x7d', '"', '\x27', '\x60']

theorem forall_specials {p : Char → Prop} :
    (∀ d ∈ specials, p d) ↔ p '/' ∧ p '*' ∧ p '\\' ∧ p '\x7b' ∧ p '\x7d' ∧ p '"' ∧ p '\x27' ∧
      p '\x60' := by
  simp only [specials, List.forall_mem_cons, List.not_mem_nil, false_implies, implies_true, and_true]

/-- A character that means nothing to the reader does what a blank does. -/
theorem step_inert {reader : Reader} {c : Char} (inert : ∀ d ∈ specials, c ≠ d)
    (inside : ∀ quote, reader.mode = .quoted quote → c ≠ quote) :
    reader.step c = some (reader.afterGap (c == '\n')) := by
  obtain ⟨slash, star, backslash, opening, closing, double, single, back⟩ :=
    forall_specials.mp inert
  have inCode (depth : Nat) : code depth c = some ⟨.code, depth⟩ := by
    unfold code
    split
    · exact absurd rfl slash
    · exact absurd rfl backslash
    · exact absurd rfl opening
    · exact absurd rfl closing
    · simp [double, single, back]
  obtain ⟨mode, depth⟩ := reader
  cases mode with
  | code => exact inCode depth
  | slash => simpa [step, afterGap, slash, star] using inCode depth
  | escape => rfl
  | lineComment => rfl
  | blockComment => simp [step, afterGap, star]
  | star => simp [step, afterGap, slash, star]
  | quoted quote => simp [step, afterGap, backslash, inside quote rfl]
  | quotedEscape quote => rfl

theorem step_blank {reader : Reader} (sound : reader.Sound) {c : Char} (blank : isBlank c = true) :
    reader.step c = some (reader.afterGap (c == '\n')) := by
  have other {d : Char} (solid : isBlank d = false) : c ≠ d := by
    rintro rfl
    simp [blank] at solid
  have solid : ∀ d ∈ specials, isBlank d = false := forall_specials.mpr (by decide)
  refine step_inert (fun d special => other (solid d special)) fun quote inside => other ?_
  rwa [Sound, inside] at sound

theorem afterGap_afterGap (reader : Reader) (newline other : Bool) :
    (reader.afterGap newline).afterGap other = reader.afterGap (newline || other) := by
  obtain ⟨mode, depth⟩ := reader
  cases mode <;> cases newline <;> rfl

/-- The reader goes on from a gap as it would from one blank. -/
theorem run_gap {reader : Reader} (sound : reader.Sound) {gap : List Char} (occupied : gap ≠ [])
    (blank : AllBlank gap) : reader.run gap = some (reader.afterGap (decide ('\n' ∈ gap))) := by
  induction gap generalizing reader with
  | nil => contradiction
  | cons c gap ih =>
    have newline : decide ('\n' ∈ c :: gap) = ((c == '\n') || decide ('\n' ∈ gap)) := by
      by_cases same : c = '\n'
      · simp [same]
      · have other : '\n' ≠ c := fun equal => same equal.symm
        simp [same, other]
    rw [run_cons, step_blank sound (blank c (List.mem_cons_self ..)), Option.bind_some, newline]
    by_cases single : gap = []
    · simp [single]
    · rw [ih (sound_afterGap sound _) single fun d member => blank d (.tail _ member),
        afterGap_afterGap]

/-- Corresponding gaps take the reader to the same state. -/
theorem run_sameGap {reader : Reader} (sound : reader.Sound) {gap other : List Char}
    (same : SameGap gap other) :
    ∃ next, next.Sound ∧ reader.run gap = some next ∧ reader.run other = some next := by
  by_cases empty : gap = []
  · obtain rfl := same.nil_iff.mp empty
    obtain rfl := empty
    exact ⟨reader, sound, rfl, rfl⟩
  · have occupied : other ≠ [] := fun nothing => empty (same.nil_iff.mpr nothing)
    refine ⟨_, sound_afterGap sound _, run_gap sound empty same.left, ?_⟩
    rw [run_gap sound occupied same.right, decide_eq_decide.mpr same.newline_iff]

/-- In texts that are alike the reader closes the block at corresponding braces or not at all. -/
theorem run_or_closes_of_alike {exact : Bool} {first second : List Char}
    (alike : Alike exact first second) {reader : Reader} (sound : reader.Sound) :
    ((∃ next, reader.run first = some next) ∧ ∃ next, reader.run second = some next) ∨
      ∃ inside c after other later, first = inside ++ c :: after ∧ second = other ++ c :: later ∧
        isBlank c = false ∧ reader.Closes (inside ++ [c]) ∧ reader.Closes (other ++ [c]) ∧
          Alike true inside other ∧ Alike exact after later := by
  rcases alike.foldlM step Sound (fun sound same => run_sameGap sound same)
      sound_of_step reader sound with
    both | ⟨inside, c, after, other, later, last, rfl, rfl, solid, ran, otherRan, stuck, alikes⟩
  · exact .inl both
  · exact .inr ⟨inside, c, after, other, later, rfl, rfl, solid,
      ⟨inside, c, last, rfl, ran, stuck⟩, ⟨other, c, last, rfl, otherRan, stuck⟩, alikes⟩

end Reader

/-- The text between the braces of a block stands where the interior begins, and `later` is what
comes after it. -/
def EndsBefore (place : Place) (later : List Char) : Prop :=
  ∃ front, place.Passes front
    ⟨(following place).interior.start, (following place).inner ++ later⟩

/-- What the blocks at two places hold is alike, and stays so together with what comes after it. -/
def InnerAlike (place other : Place) : Prop :=
  ∃ exact later otherLater, EndsBefore place later ∧ EndsBefore other otherLater ∧
    Alike exact (following place).inner (following other).inner ∧
      ∀ {first second}, Alike exact first second →
        Alike false (first ++ later) (second ++ otherLater)

theorem interior_start {block : Block} {c : Char} {rest : List Char}
    (text : block.text = c :: rest) : block.interior.start = block.start + 1 := by
  have size := c.utf8Size_pos
  have occupied : ¬ block.span.stop ≤ block.span.start := by
    simp only [span, text, byteSize_cons]
    omega
  simp only [interior, Span.interior, occupied, ↓reduceIte]
  rfl

theorem endsBefore_of_rest_eq {place : Place} {before text later : List Char} {closed : Bool}
    (isBlock : following place = ⟨place.offset + byteSize before, '\x7b' :: text, closed⟩)
    (rest : place.rest = before ++ '\x7b' :: ((following place).inner ++ later)) :
    EndsBefore place later := by
  refine ⟨before ++ ['\x7b'], by simpa using rest, ?_⟩
  rw [interior_start (by rw [isBlock]), isBlock, byteSize_append]
  rfl

section

variable {front otherFront : List Char} (clear : '\x7b' ∉ front) (otherClear : '\x7b' ∉ otherFront)
  (offset otherOffset : Nat)

include clear

/-- A block whose brace is not closed. -/
theorem following_of_run_after {after : List Char} {next : Reader}
    (ran : (⟨.code, 1⟩ : Reader).run after = some next) :
    following ⟨offset, front ++ '\x7b' :: after⟩ =
      ⟨offset + byteSize front, '\x7b' :: after, false⟩ := by
  rw [following_append clear]
  exact following_of_run (by simpa [Reader.step, Reader.code] using ran) _

/-- A block whose brace is closed after some text inside. -/
theorem following_of_closes_after {inside : List Char} {c : Char}
    (closes : (⟨.code, 1⟩ : Reader).Closes (inside ++ [c])) (later : List Char) :
    following ⟨offset, front ++ '\x7b' :: (inside ++ c :: later)⟩ =
      ⟨offset + byteSize front, '\x7b' :: (inside ++ [c]), true⟩ := by
  rw [following_append clear]
  have opened : (⟨.code, 0⟩ : Reader).step '\x7b' = some ⟨.code, 1⟩ := rfl
  have whole : '\x7b' :: (inside ++ c :: later) = ('\x7b' :: (inside ++ [c])) ++ later := by simp
  exact following_of_closes whole (Reader.closes_cons opened closes) _

include otherClear

/-- Braces with alike texts after them open blocks with the same words. -/
theorem following_alike_of_opened {after otherAfter : List Char}
    (alike : Alike false after otherAfter) :
    words (following ⟨offset, front ++ '\x7b' :: after⟩).text =
        words (following ⟨otherOffset, otherFront ++ '\x7b' :: otherAfter⟩).text ∧
      (following ⟨offset, front ++ '\x7b' :: after⟩).closed =
        (following ⟨otherOffset, otherFront ++ '\x7b' :: otherAfter⟩).closed ∧
      InnerAlike ⟨offset, front ++ '\x7b' :: after⟩
        ⟨otherOffset, otherFront ++ '\x7b' :: otherAfter⟩ := by
  have sound : (⟨.code, 1⟩ : Reader).Sound := trivial
  rcases Reader.run_or_closes_of_alike alike sound with
    ⟨⟨next, ran⟩, otherNext, otherRan⟩ |
      ⟨inside, c, later, otherInside, otherLater, rfl, rfl, solid, closes, otherCloses, inner,
        laterAlike⟩
  · have isBlock := following_of_run_after clear offset ran
    have isOther := following_of_run_after otherClear otherOffset otherRan
    refine ⟨?_, ?_, false, [], [], endsBefore_of_rest_eq isBlock ?_,
      endsBefore_of_rest_eq isOther ?_, ?_, fun rest => by simpa using rest⟩
    · rw [isBlock, isOther]
      exact (alike.cons (by decide)).words_eq
    · rw [isBlock, isOther]
    · simp [isBlock, Block.inner]
    · simp [isOther, Block.inner]
    · simpa [isBlock, isOther, Block.inner] using alike
  · have isBlock := following_of_closes_after clear offset closes later
    have isOther := following_of_closes_after otherClear otherOffset otherCloses otherLater
    refine ⟨?_, ?_, true, c :: later, c :: otherLater, endsBefore_of_rest_eq isBlock ?_,
      endsBefore_of_rest_eq isOther ?_, ?_, fun rest => rest.append (laterAlike.cons solid)⟩
    · rw [isBlock, isOther]
      have texts : Alike true ('\x7b' :: (inside ++ [c])) ('\x7b' :: (otherInside ++ [c])) :=
        (inner.append (.cons solid .nil)).cons (by decide)
      exact texts.words_eq
    · rw [isBlock, isOther]
    · simp [isBlock, Block.inner]
    · simp [isOther, Block.inner]
    · simpa [isBlock, isOther, Block.inner] using inner

end

/-- The first blocks of texts that are alike from their first words on have the same words and are
both closed or not. They hold texts that are alike, if they hold anything. -/
theorem following_alike {place other : Place}
    (alike : Alike false (place.rest.dropWhile isBlank) (other.rest.dropWhile isBlank)) :
    words (following place).text = words (following other).text ∧
      (following place).closed = (following other).closed ∧
      (((following place).inner = [] ∧ (following other).inner = []) ∨ InnerAlike place other) := by
  have noBrace {place : Place} : '\x7b' ∉ place.rest.takeWhile isBlank :=
    AllBlank.not_mem (fun c => List.mem_takeWhile_imp) (by decide)
  have parts (place : Place) : place.rest.takeWhile isBlank ++ place.rest.dropWhile isBlank =
      place.rest := List.takeWhile_append_dropWhile
  rcases alike.not_mem_or_exists (c := '\x7b') (by decide) with
    ⟨absent, otherAbsent⟩ |
      ⟨before, after, otherBefore, otherAfter, split, otherSplit, clear, otherClear, -, further⟩
  · have none {place : Place} (absent : '\x7b' ∉ place.rest.dropWhile isBlank) :
        following place = ⟨place.offset, [], false⟩ := by
      refine following_of_not_mem ?_
      rw [← parts place, List.mem_append, not_or]
      exact ⟨noBrace, absent⟩
    rw [none absent, none otherAbsent]
    exact ⟨rfl, rfl, .inl ⟨rfl, rfl⟩⟩
  · -- blanks in front of the texts belong to what comes before the brace
    have opens {place : Place} {before after : List Char} (clear : '\x7b' ∉ before)
        (split : place.rest.dropWhile isBlank = before ++ '\x7b' :: after) :
        ∃ front, '\x7b' ∉ front ∧ place = ⟨place.offset, front ++ '\x7b' :: after⟩ := by
      refine ⟨place.rest.takeWhile isBlank ++ before, ?_, ?_⟩
      · rw [List.mem_append, not_or]
        exact ⟨noBrace, clear⟩
      · rw [List.append_assoc, ← split, parts]
    obtain ⟨front, frontClear, isPlace⟩ := opens clear split
    obtain ⟨otherFront, otherFrontClear, isOther⟩ := opens otherClear otherSplit
    rw [isPlace, isOther]
    obtain ⟨text, closed, inner⟩ :=
      following_alike_of_opened frontClear otherFrontClear place.offset other.offset further
    exact ⟨text, closed, .inr inner⟩

end ScriptDelta.Block

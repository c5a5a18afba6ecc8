import ScriptDelta.Proofs.Block.Standalone

/-! # Blocks inside blocks

An opening brace that counts inside a block opens a block of its own. A reader that starts there
goes through the same modes as the one that has come from outside, with fewer braces open, and the
difference stays the same until it closes its block (`Reader.run_raise`). So the block at the inner
brace ends before the outer one does, the outer reader has as many braces open after it as before
it, and the blocks at two braces of one block are nested or lie apart (`laminar_find`).
-/

namespace ScriptDelta.Block

open Text

namespace Reader

/-- The reader is in program text, where braces count. -/
def InCode (reader : Reader) : Prop :=
  reader.mode = .code ∨ reader.mode = .slash

/-- The reader with more braces open. -/
def raise (reader : Reader) (levels : Nat) : Reader :=
  ⟨reader.mode, reader.depth + levels⟩

@[simp] theorem raise_mk (mode : Mode) (depth levels : Nat) :
    (⟨mode, depth⟩ : Reader).raise levels = ⟨mode, depth + levels⟩ := rfl

theorem InCode.step_opening {reader : Reader} (inCode : reader.InCode) :
    reader.step '\x7b' = some ⟨.code, reader.depth + 1⟩ := by
  obtain ⟨mode, depth⟩ := reader
  obtain rfl | rfl : mode = .code ∨ mode = .slash := inCode
  · rfl
  · rfl

/-- What a character does to the depth in a mode. -/
inductive Effect (mode : Mode) (c : Char) : Prop
  | level (next : Mode) : (∀ depth, step ⟨mode, depth⟩ c = some ⟨next, depth⟩) → Effect mode c
  | opening : (∀ depth, step ⟨mode, depth⟩ c = some ⟨.code, depth + 1⟩) → Effect mode c
  | closing :
      (∀ depth, step ⟨mode, depth⟩ c = if depth ≤ 1 then none else some ⟨.code, depth - 1⟩) →
      Effect mode c

/-- The mode and the character decide what a step does; the depth decides only whether a closing
brace is the last one. -/
theorem effect (mode : Mode) (c : Char) : Effect mode c := by
  have inCode : Effect .code c := by
    by_cases opening : c = '\x7b'
    · subst opening
      exact .opening fun _ => rfl
    by_cases closing : c = '\x7d'
    · subst closing
      exact .closing fun _ => rfl
    by_cases slash : c = '/'
    · subst slash
      exact .level .slash fun _ => rfl
    by_cases escape : c = '\\'
    · subst escape
      exact .level .escape fun _ => rfl
    let next : Mode := if c == '"' || c == '\x27' || c == '\x60' then .quoted c else .code
    refine .level next fun depth => ?_
    simp only [step, code, next]
    split <;> simp_all
  cases mode with
  | code => exact inCode
  | slash =>
    by_cases line : c = '/'
    · subst line
      exact .level .lineComment fun _ => rfl
    by_cases block : c = '*'
    · subst block
      exact .level .blockComment fun _ => rfl
    have same (depth : Nat) : step ⟨.slash, depth⟩ c = step ⟨.code, depth⟩ c := by
      simp [step, line, block]
    cases inCode with
    | level next steps => exact .level next fun depth => (same depth).trans (steps depth)
    | opening steps => exact .opening fun depth => (same depth).trans (steps depth)
    | closing steps => exact .closing fun depth => (same depth).trans (steps depth)
  | escape | lineComment | blockComment | star | quoted | quotedEscape =>
    exact .level _ fun _ => rfl

section

variable {reader next : Reader} {c : Char} {text : List Char}

/-- A reader with more braces open does the same, unless the block is closed. -/
theorem step_raise (stepped : reader.step c = some next) (levels : Nat) :
    (reader.raise levels).step c = some (next.raise levels) := by
  obtain ⟨mode, depth⟩ := reader
  cases effect mode c with
  | level other steps =>
    obtain rfl := Option.some.inj ((steps depth).symm.trans stepped)
    exact steps _
  | opening steps =>
    obtain rfl := Option.some.inj ((steps depth).symm.trans stepped)
    rw [raise_mk, raise_mk, steps, Nat.add_right_comm]
  | closing steps =>
    rw [steps] at stepped
    split_ifs at stepped with last
    obtain rfl := Option.some.inj stepped
    have notLast : ¬ depth + levels ≤ 1 := by omega
    have fewer : depth + levels - 1 = depth - 1 + levels := by omega
    rw [raise_mk, raise_mk, steps, if_neg notLast, fewer]

theorem run_raise (ran : reader.run text = some next) (levels : Nat) :
    (reader.raise levels).run text = some (next.raise levels) := by
  induction text generalizing reader with
  | nil => rw [← Option.some.inj ran, run_nil]
  | cons c text ih =>
    obtain ⟨middle, stepped, ran⟩ := Option.bind_eq_some_iff.mp ran
    rw [run_cons, step_raise stepped, Option.bind_some, ih ran]

/-- The brace that closes a block closes one of several for a reader with more braces open. -/
theorem step_raise_of_stuck (stuck : reader.step c = none) (opened : 0 < reader.depth)
    {levels : Nat} (more : 0 < levels) : (reader.raise levels).step c = some ⟨.code, levels⟩ := by
  obtain ⟨mode, depth⟩ := reader
  dsimp only at opened
  cases effect mode c with
  | level other steps => simp [steps] at stuck
  | opening steps => simp [steps] at stuck
  | closing steps =>
    rw [steps] at stuck
    split_ifs at stuck with last
    have notLast : ¬ depth + levels ≤ 1 := by omega
    have left : depth + levels - 1 = levels := by omega
    rw [raise_mk, steps, if_neg notLast, left]

theorem depth_pos_of_step (stepped : reader.step c = some next) (opened : 0 < reader.depth) :
    0 < next.depth := by
  obtain ⟨mode, depth⟩ := reader
  cases effect mode c with
  | level other steps =>
    obtain rfl := Option.some.inj ((steps depth).symm.trans stepped)
    exact opened
  | opening steps =>
    obtain rfl := Option.some.inj ((steps depth).symm.trans stepped)
    exact Nat.succ_pos _
  | closing steps =>
    rw [steps] at stepped
    split_ifs at stepped with last
    obtain rfl := Option.some.inj stepped
    dsimp only
    omega

/-- At least one brace is open until the block is closed. -/
theorem depth_pos_of_run (ran : reader.run text = some next) (opened : 0 < reader.depth) :
    0 < next.depth := by
  induction text generalizing reader with
  | nil => rwa [← Option.some.inj ran]
  | cons c text ih =>
    obtain ⟨middle, stepped, ran⟩ := Option.bind_eq_some_iff.mp ran
    exact ih ran (depth_pos_of_step stepped opened)

end

section

variable {reader next : Reader} {text : List Char}

/-- After an opening brace the reader has all the braces open that a reader has who starts there,
and its own. -/
theorem InCode.run_opening (inCode : reader.InCode)
    (ran : (⟨.code, 0⟩ : Reader).run ('\x7b' :: text) = some next) :
    reader.run ('\x7b' :: text) = some (next.raise reader.depth) ∧ 0 < next.depth := by
  have inside : (⟨.code, 1⟩ : Reader).run text = some next := ran
  refine ⟨?_, depth_pos_of_run inside Nat.one_pos⟩
  have raised := run_raise inside reader.depth
  rw [raise_mk, Nat.add_comm] at raised
  rw [run_cons, inCode.step_opening, Option.bind_some, raised]

/-- When the inner block is closed, the outer reader is back at the depth it came with. -/
theorem InCode.run_closes (inCode : reader.InCode) (opened : 0 < reader.depth)
    (closes : (⟨.code, 0⟩ : Reader).Closes ('\x7b' :: text)) :
    reader.run ('\x7b' :: text) = some ⟨.code, reader.depth⟩ := by
  obtain ⟨inside, last, before, split, ran, stuck⟩ := closes
  cases inside with
  | nil =>
    obtain rfl := Option.some.inj ran
    obtain rfl := (List.cons.inj split).1
    contradiction
  | cons c inside =>
    obtain ⟨rfl, -⟩ := List.cons.inj split
    obtain ⟨raised, positive⟩ := inCode.run_opening ran
    rw [split, run_append, raised, Option.bind_some, run_cons,
      step_raise_of_stuck stuck positive opened, Option.bind_some, run_nil]

/-- Wherever the block at an opening brace ends, the outer reader goes on through it. -/
theorem InCode.exists_run (inCode : reader.InCode) (opened : 0 < reader.depth) {after : List Char}
    {closed : Bool} (ends : (⟨.code, 0⟩ : Reader).Ends ('\x7b' :: text) after closed) :
    ∃ next, reader.run ('\x7b' :: text) = some next := by
  cases ends with
  | closed closes => exact ⟨_, inCode.run_closes opened closes⟩
  | unclosed ran => exact ⟨_, (inCode.run_opening ran).1⟩

/-- Until the inner block ends the two readers are in the same mode. -/
theorem InCode.run_within (inCode : reader.InCode) {part more after : List Char} {closed : Bool}
    (ends : (⟨.code, 0⟩ : Reader).Ends ('\x7b' :: (part ++ more)) after closed)
    (remains : more ≠ []) :
    ∃ next, (⟨.code, 0⟩ : Reader).run ('\x7b' :: part) = some next ∧
      reader.run ('\x7b' :: part) = some (next.raise reader.depth) ∧ 0 < next.depth := by
  rw [← List.cons_append] at ends
  obtain ⟨next, ran, -⟩ := ends.exists_run remains
  exact ⟨next, ran, inCode.run_opening ran⟩

/-- The block at an opening brace ends with the outer block at the latest, and before it if the
outer block is closed. -/
theorem Ends.inner {inside body tail after : List Char} {closed innerClosed : Bool}
    (ends : reader.Ends ('\x7b' :: inside) tail closed) (inCode : reader.InCode)
    (opened : 0 < reader.depth)
    (innerEnds : (⟨.code, 0⟩ : Reader).Ends ('\x7b' :: body) after innerClosed)
    (split : inside ++ tail = body ++ after) :
    body <+: inside ∧ (closed = true → innerClosed = true ∧ body ≠ inside) := by
  cases ends with
  | closed closes =>
    have notBeyond : ¬ inside <+: body := by
      rintro ⟨more, rfl⟩
      obtain ⟨next, ran⟩ := inCode.exists_run opened innerEnds
      rw [← List.cons_append, run_append] at ran
      obtain ⟨middle, ran, -⟩ := Option.bind_eq_some_iff.mp ran
      have closing := close?_of_closes closes []
      rw [List.append_nil, close?_of_run ran] at closing
      contradiction
    have before : body <+: inside :=
      (List.prefix_or_prefix_of_prefix ⟨after, split.symm⟩ ⟨tail, rfl⟩).resolve_right notBeyond
    refine ⟨before, fun _ => ⟨?_, fun same => notBeyond (same ▸ List.prefix_refl _)⟩⟩
    cases innerEnds with
    | closed => rfl
    | unclosed ran nothing =>
      rw [nothing, List.append_nil] at split
      exact absurd ⟨tail, split⟩ notBeyond
  | unclosed ran nothing =>
    rw [nothing, List.append_nil] at split
    exact ⟨⟨after, split.symm⟩, nofun⟩

end

end Reader

/-- The reader of the block counts an opening brace at the offset, where `depth` braces are open. -/
def Counts (block : Block) (position depth : Nat) : Prop :=
  ∃ before after reader, block.text = before ++ '\x7b' :: after ∧
    position = block.start + byteSize before ∧
    (⟨.code, 0⟩ : Reader).run before = some reader ∧ reader.InCode ∧ reader.depth = depth

/-- The reader of the block has `depth` braces open when it comes to the offset. -/
def HasOpen (block : Block) (position depth : Nat) : Prop :=
  ∃ before after reader, block.text = before ++ after ∧ position = block.start + byteSize before ∧
    (⟨.code, 0⟩ : Reader).run before = some reader ∧ reader.depth = depth

/-- A place inside the inner block lies behind its brace and before its end. -/
theorem exists_part {before body rest front back : List Char}
    (whole : before ++ '\x7b' :: (body ++ rest) = front ++ back)
    (behind : byteSize before < byteSize front)
    (ahead : byteSize front < byteSize (before ++ '\x7b' :: body)) :
    ∃ part more, front = before ++ '\x7b' :: part ∧ body = part ++ more ∧ more ≠ [] ∧
      back = more ++ rest := by
  have isFront : front <+: before ++ '\x7b' :: (body ++ rest) := ⟨back, whole.symm⟩
  have isInner : before ++ '\x7b' :: body <+: before ++ '\x7b' :: (body ++ rest) := ⟨rest, by simp⟩
  obtain ⟨more, split⟩ := isPrefix_of_byteSize_le isFront isInner ahead.le
  obtain ⟨part, rfl⟩ := isPrefix_of_byteSize_le ⟨_, rfl⟩ isFront behind.le
  rw [List.append_assoc, List.append_right_inj] at split
  cases part with
  | nil => simp at behind
  | cons c part =>
    obtain ⟨rfl, rfl⟩ := List.cons.inj split
    refine ⟨part, more, rfl, rfl, ?_, ?_⟩
    · rintro rfl
      simp at ahead
    · simpa using whole.symm

/-- The end of a block in the offsets of another one that it begins in. -/
theorem stop_of_start {block : Block} {position : Nat} {before read : List Char}
    (start : block.start = position + byteSize before) (text : block.text = read) :
    block.span.stop = position + byteSize (before ++ read) := by
  rw [span, start, text, byteSize_append, Nat.add_assoc]

/-- What holds of the blocks at the braces that count inside a block. -/
structure Laminar (text : List Char) (outer : Block) : Prop where
  /-- The block at a brace starts there and does not go beyond the outer one. -/
  within : ∀ {position depth}, outer.Counts position depth →
    (find text position).start = position ∧ (find text position).span.stop ≤ outer.span.stop
  /-- If the outer block is closed, then the inner one is closed before. -/
  closed : ∀ {position depth}, outer.Counts position depth → outer.start < position →
    outer.closed = true →
      (find text position).closed = true ∧ (find text position).span.stop < outer.span.stop
  /-- Behind a closed block as many braces are open as before it, for the first time. -/
  returns : ∀ {position depth}, outer.Counts position depth → outer.start < position →
    (find text position).closed = true →
      outer.HasOpen (find text position).span.stop depth ∧
        ∀ {between other}, position < between → between < (find text position).span.stop →
          outer.HasOpen between other → depth < other
  /-- Of two blocks the second lies behind the first or inside it. -/
  nested : ∀ {first second depth other}, outer.Counts first depth → outer.Counts second other →
    first ≤ second →
      (find text first).span.stop ≤ second ∨
        (find text second).span.stop ≤ (find text first).span.stop

/-- A block that is not empty is a part of the text, and the reader comes to its end there. -/
structure Stands (block : Block) (text lead after : List Char) : Prop where
  text_eq : text = lead ++ (block.text ++ after)
  start_eq : block.start = byteSize lead
  opening : ∃ body, block.text = '\x7b' :: body
  ends : (⟨.code, 0⟩ : Reader).Ends block.text after block.closed

theorem exists_stands {text : List Char} {offset : Nat} (occupied : (find text offset).text ≠ []) :
    ∃ lead after, (find text offset).Stands text lead after := by
  obtain ⟨lead, rest, reached⟩ := (Place.start text).reaches_seek offset
  have isolated := isolated_following ((Place.start text).seek offset)
  rw [find] at occupied ⊢
  generalize following ((Place.start text).seek offset) = block at isolated occupied ⊢
  cases isolated with
  | empty => exact absurd rfl occupied
  | @opened skipped body after closed absent split ends =>
    refine ⟨lead ++ skipped, after, ?_, ?_, ⟨body, rfl⟩, ends⟩
    · have whole : text = lead ++ ((Place.start text).seek offset).rest := rest
      rw [split] at whole
      simpa using whole
    · rw [byteSize_append, reached]
      exact congrArg (· + byteSize skipped) (Nat.zero_add _)

section

variable {text lead tail : List Char} {outer : Block} (stands : outer.Stands text lead tail)

include stands

/-- A block that stands in a text is what is found at its start. -/
theorem Stands.find_eq : find text outer.start = outer := by
  obtain ⟨start, read, closed⟩ := outer
  obtain ⟨rfl, rfl, ⟨body, rfl⟩, ends⟩ := stands
  rw [find_eq_following, List.cons_append, following_of_ends ends]

section

variable {before inside : List Char} (own : outer.text = before ++ '\x7b' :: inside)
variable {reader : Reader} (ran : (⟨.code, 0⟩ : Reader).run before = some reader)
variable (further : before ≠ [])

include own ran further

/-- Inside a block at least one brace is open. -/
theorem Stands.depth_pos : 0 < reader.depth := by
  obtain ⟨body, opening⟩ := stands.opening
  cases before with
  | nil => contradiction
  | cons c before =>
    rw [own] at opening
    obtain ⟨rfl, -⟩ := List.cons.inj opening
    have inside : (⟨.code, 1⟩ : Reader).run before = some reader := ran
    exact Reader.depth_pos_of_run inside Nat.one_pos

/-- At a brace that counts inside a block another block stands, which is a part of it. -/
theorem Stands.exists_inner (inCode : reader.InCode) :
    ∃ body after rest, inside = body ++ rest ∧
      (find text (outer.start + byteSize before)).text = '\x7b' :: body ∧
      (find text (outer.start + byteSize before)).start = outer.start + byteSize before ∧
      (find text (outer.start + byteSize before)).Stands text (lead ++ before) after ∧
      (outer.closed = true →
        (find text (outer.start + byteSize before)).closed = true ∧ rest ≠ []) := by
  obtain ⟨body, after, closed, split, innerEnds⟩ := Reader.exists_ends_opening (inside ++ tail)
  have whole : text = (lead ++ before) ++ '\x7b' :: (body ++ after) := by
    rw [stands.text_eq, own, ← split]
    simp
  have offset : outer.start + byteSize before = byteSize (lead ++ before) := by
    rw [stands.start_eq, byteSize_append]
  have found : find text (outer.start + byteSize before) =
      ⟨outer.start + byteSize before, '\x7b' :: body, closed⟩ := by
    rw [offset, whole, find_eq_following, following_of_ends innerEnds]
  have ends := stands.ends
  rw [own] at ends
  obtain ⟨same, ran', ends⟩ := ends.exists_run (List.cons_ne_nil _ _)
  obtain rfl := Option.some.inj (ran.symm.trans ran')
  obtain ⟨⟨rest, rfl⟩, proper⟩ :=
    ends.inner inCode (stands.depth_pos own ran further) innerEnds split
  rw [found]
  refine ⟨body, after, rest, rfl, rfl, rfl, ⟨whole, offset, ⟨body, rfl⟩, innerEnds⟩, ?_⟩
  intro closed
  obtain ⟨innerClosed, differ⟩ := proper closed
  exact ⟨innerClosed, fun nothing => differ (by rw [nothing, List.append_nil])⟩

end

theorem Stands.within {position depth : Nat} (counts : outer.Counts position depth) :
    (find text position).start = position ∧ (find text position).span.stop ≤ outer.span.stop := by
  obtain ⟨before, inside, reader, own, rfl, ran, inCode, rfl⟩ := counts
  by_cases first : before = []
  · rw [first, byteSize_nil, Nat.add_zero, stands.find_eq]
    exact ⟨rfl, Nat.le_refl _⟩
  · obtain ⟨body, after, rest, rfl, read, start, -⟩ := stands.exists_inner own ran first inCode
    refine ⟨start, ?_⟩
    rw [stop_of_start start read, span, own]
    simp only [byteSize_append, byteSize_cons]
    omega

theorem Stands.closed_inner {position depth : Nat} (counts : outer.Counts position depth)
    (further : outer.start < position) (closed : outer.closed = true) :
    (find text position).closed = true ∧ (find text position).span.stop < outer.span.stop := by
  obtain ⟨before, inside, reader, own, rfl, ran, inCode, rfl⟩ := counts
  have notFirst : before ≠ [] := by
    rintro rfl
    simp at further
  obtain ⟨body, after, rest, rfl, read, start, -, proper⟩ :=
    stands.exists_inner own ran notFirst inCode
  obtain ⟨innerClosed, occupied⟩ := proper closed
  refine ⟨innerClosed, ?_⟩
  have size : byteSize rest ≠ 0 := fun none => occupied (byteSize_eq_zero_iff.mp none)
  rw [stop_of_start start read, span, own]
  simp only [byteSize_append, byteSize_cons]
  omega

theorem Stands.returns {position depth : Nat} (counts : outer.Counts position depth)
    (further : outer.start < position) (closed : (find text position).closed = true) :
    outer.HasOpen (find text position).span.stop depth ∧
      ∀ {between other}, position < between → between < (find text position).span.stop →
        outer.HasOpen between other → depth < other := by
  obtain ⟨before, inside, reader, own, rfl, ran, inCode, rfl⟩ := counts
  have notFirst : before ≠ [] := by
    rintro rfl
    simp at further
  obtain ⟨body, after, rest, rfl, read, start, inner, -⟩ :=
    stands.exists_inner own ran notFirst inCode
  have ends := inner.ends
  rw [read] at ends
  have stop := stop_of_start start read
  rw [stop]
  constructor
  · rw [closed] at ends
    cases ends with
    | closed closes =>
      refine ⟨_, rest, ⟨.code, reader.depth⟩, by simp [own], rfl, ?_, rfl⟩
      have through := inCode.run_closes (stands.depth_pos own ran notFirst) closes
      rw [Reader.run_append, ran, Option.bind_some, through]
  · rintro _ _ behind ahead ⟨front, back, state, whole, rfl, ranFront, rfl⟩
    obtain ⟨part, more, rfl, rfl, remains, -⟩ := exists_part (own.symm.trans whole)
      (Nat.lt_of_add_lt_add_left behind) (Nat.lt_of_add_lt_add_left ahead)
    obtain ⟨next, -, raised, positive⟩ := inCode.run_within ends remains
    rw [Reader.run_append, ran, Option.bind_some, raised] at ranFront
    obtain rfl := Option.some.inj ranFront
    exact Nat.lt_add_of_pos_left positive

theorem Stands.nested {first second depth other : Nat} (counts : outer.Counts first depth)
    (counted : outer.Counts second other) (order : first ≤ second) :
    (find text first).span.stop ≤ second ∨
      (find text second).span.stop ≤ (find text first).span.stop := by
  by_cases same : first = second
  · subst same
    exact .inr (Nat.le_refl _)
  have secondWithin := (stands.within counted).2
  obtain ⟨before, inside, reader, own, rfl, ran, inCode, rfl⟩ := counts
  by_cases notFirst : before = []
  · refine .inr ?_
    rwa [notFirst, byteSize_nil, Nat.add_zero, stands.find_eq]
  obtain ⟨body, after, rest, rfl, read, start, inner, -⟩ :=
    stands.exists_inner own ran notFirst inCode
  by_cases apart : (find text (outer.start + byteSize before)).span.stop ≤ second
  · exact .inl apart
  -- the second brace counts in the block at the first one too
  obtain ⟨front, back, state, whole, rfl, ranFront, stateInCode, rfl⟩ := counted
  have stop := stop_of_start start read
  rw [stop] at apart
  obtain ⟨part, more, rfl, rfl, remains, goesOn⟩ :=
    exists_part (own.symm.trans whole) (by omega) (by omega)
  have ends := inner.ends
  rw [read] at ends
  obtain ⟨next, ranPart, raised, -⟩ := inCode.run_within ends remains
  rw [Reader.run_append, ran, Option.bind_some, raised] at ranFront
  obtain rfl := Option.some.inj ranFront
  cases more with
  | nil => contradiction
  | cons c more =>
    obtain ⟨rfl, -⟩ := List.cons.inj goesOn
    refine .inr (inner.within ⟨'\x7b' :: part, more, next, read, ?_, ranPart, stateInCode, rfl⟩).2
    rw [start, byteSize_append, Nat.add_assoc]

end

/-- A block is found again at its start. -/
theorem find_start (text : List Char) (offset : Nat) :
    find text (find text offset).start = find text offset := by
  by_cases empty : (find text offset).text = []
  · have isolated : Isolated ((Place.start text).seek offset) (find text offset) :=
      isolated_following _
    generalize found : find text offset = block at isolated empty ⊢
    cases isolated with
    | empty =>
      rw [find, Place.seek_of_reaches ((Place.start text).reaches_seek offset)]
      exact found
    | opened => contradiction
  · obtain ⟨lead, after, stands⟩ := exists_stands empty
    exact stands.find_eq

/-- The blocks at the braces that count inside a block are parts of it, nested or apart. -/
theorem laminar_find (text : List Char) (offset : Nat) : (find text offset).Laminar text := by
  have stands {position depth : Nat} (counts : (find text offset).Counts position depth) :
      ∃ lead after, (find text offset).Stands text lead after := by
    obtain ⟨before, inside, reader, own, -⟩ := counts
    exact exists_stands (by simp [own])
  constructor
  · intro position depth counts
    obtain ⟨lead, after, stands⟩ := stands counts
    exact stands.within counts
  · intro position depth counts
    obtain ⟨lead, after, stands⟩ := stands counts
    exact stands.closed_inner counts
  · intro position depth counts
    obtain ⟨lead, after, stands⟩ := stands counts
    exact stands.returns counts
  · intro first second depth other counts
    obtain ⟨lead, after, stands⟩ := stands counts
    exact stands.nested counts

end ScriptDelta.Block

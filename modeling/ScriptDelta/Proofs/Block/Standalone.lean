import ScriptDelta.Proofs.Block.Reading

/-! # Blocks that stand alone

The reader of a block starts at an opening brace, remembers nothing from before it and looks at
nothing beyond the end of the block. So a block that is closed is found again wherever its
characters stand, whatever comes before and after them, and one that is not closed wherever they end
a text (`Isolated.standalone`). In particular no closed block begins with another one.
-/

namespace ScriptDelta.Block

open Text

namespace Reader

/-- The reader comes to the end of a body: it closes the block there, or nothing is left to read. -/
inductive Ends (reader : Reader) (body after : List Char) : Bool → Prop
  | closed : reader.Closes body → Ends reader body after true
  | unclosed {next : Reader} :
      reader.run body = some next → after = [] → Ends reader body after false

theorem run_append (reader : Reader) (first second : List Char) :
    reader.run (first ++ second) = (reader.run first).bind fun next => next.run second :=
  List.foldlM_append

variable {reader : Reader} {body after : List Char}

/-- Every text has a beginning at whose end the reader comes to its end. -/
theorem exists_ends (reader : Reader) (text : List Char) :
    ∃ body after closed, text = body ++ after ∧ reader.Ends body after closed := by
  rcases reader.run_or_closes text with ⟨next, ran⟩ | ⟨body, after, split, closes⟩
  · exact ⟨text, [], false, by simp, .unclosed ran rfl⟩
  · exact ⟨body, after, true, split, .closed closes⟩

/-- At an opening brace the reader reads at least the brace. -/
theorem exists_ends_opening (rest : List Char) :
    ∃ body after closed, rest = body ++ after ∧
      (⟨.code, 0⟩ : Reader).Ends ('\x7b' :: body) after closed := by
  obtain ⟨read, after, closed, split, ends⟩ := exists_ends ⟨.code, 0⟩ ('\x7b' :: rest)
  cases read with
  | cons c body =>
    obtain ⟨rfl, rfl⟩ := List.cons.inj split
    exact ⟨body, after, closed, rfl, ends⟩
  | nil =>
    -- neither a closed block nor a text that goes on is read to its end at once
    cases ends with
    | closed closes =>
      obtain ⟨inside, last, next, empty, -, -⟩ := closes
      simp at empty
    | unclosed ran nothing => simp [nothing] at split

/-- The reader comes to its end from any place on the way. -/
theorem Ends.exists_run {part rest : List Char} {closed : Bool}
    (ends : reader.Ends (part ++ rest) after closed) (occupied : rest ≠ []) :
    ∃ next, reader.run part = some next ∧ next.Ends rest after closed := by
  cases ends with
  | closed closes =>
    obtain ⟨inside, last, final, split, ran, stuck⟩ := closes
    obtain ⟨more, rfl⟩ : ∃ more, rest = more ++ [last] := by
      obtain ⟨more, other, rfl⟩ := (List.eq_nil_or_concat rest).resolve_left occupied
      rw [List.concat_eq_append, ← List.append_assoc] at split
      obtain rfl := (List.cons.inj (List.append_inj_right' split rfl)).1
      exact ⟨more, List.concat_eq_append⟩
    rw [← List.append_assoc] at split
    obtain rfl := List.append_cancel_right split
    rw [run_append] at ran
    obtain ⟨next, first, second⟩ := Option.bind_eq_some_iff.mp ran
    exact ⟨next, first, .closed ⟨more, last, final, rfl, second, stuck⟩⟩
  | unclosed ran nothing =>
    rw [run_append] at ran
    obtain ⟨next, first, second⟩ := Option.bind_eq_some_iff.mp ran
    exact ⟨next, first, .unclosed second nothing⟩

/-- No text that closes a block goes on to close it again. -/
theorem Closes.eq_nil {more : List Char} (closes : reader.Closes body)
    (longer : reader.Closes (body ++ more)) : more = [] := by
  have first := close?_of_closes closes more
  have second := close?_of_closes longer []
  rw [List.append_nil, first] at second
  exact Option.some.inj second

end Reader

theorem following_of_ends {body after : List Char} {closed : Bool}
    (ends : (⟨.code, 0⟩ : Reader).Ends ('\x7b' :: body) after closed) (offset : Nat) :
    following ⟨offset, '\x7b' :: (body ++ after)⟩ = ⟨offset, '\x7b' :: body, closed⟩ := by
  cases ends with
  | closed closes => exact following_of_closes rfl closes offset
  | unclosed ran nothing =>
    rw [nothing, List.append_nil]
    exact following_of_run ran offset

/-- A block starts at its brace. -/
theorem start_following (offset : Nat) (rest : List Char) :
    (following ⟨offset, '\x7b' :: rest⟩).start = offset := by
  obtain ⟨body, after, closed, rfl, ends⟩ := Reader.exists_ends_opening rest
  rw [following_of_ends ends]

theorem following_eq_find {text : List Char} {place : Place}
    (reaches : (Place.start text).Reaches place) : following place = find text place.offset := by
  rw [find, Place.seek_of_reaches reaches]

/-- What a block can be: nothing, if no brace is opened, or what the reader reads from the first
opening brace to its end. -/
inductive Isolated (place : Place) : Block → Prop
  | empty : '\x7b' ∉ place.rest → Isolated place ⟨place.offset, [], false⟩
  | opened {skipped body after : List Char} {closed : Bool} :
      '\x7b' ∉ skipped → place.rest = skipped ++ '\x7b' :: (body ++ after) →
      (⟨.code, 0⟩ : Reader).Ends ('\x7b' :: body) after closed →
      Isolated place ⟨place.offset + byteSize skipped, '\x7b' :: body, closed⟩

theorem isolated_following (place : Place) : Isolated place (following place) := by
  by_cases member : '\x7b' ∈ place.rest
  · obtain ⟨skipped, rest, split, absent⟩ := List.eq_append_cons_of_mem member
    obtain ⟨body, after, closed, rfl, ends⟩ := Reader.exists_ends_opening rest
    have found : following place = ⟨place.offset + byteSize skipped, '\x7b' :: body, closed⟩ := by
      have isPlace : place = ⟨place.offset, skipped ++ '\x7b' :: (body ++ after)⟩ := by
        rw [← split]
      rw [isPlace, following_append absent, following_of_ends ends]
    rw [found]
    exact .opened absent split ends
  · rw [following_of_not_mem member]
    exact .empty member

/-- A block that is found is a part of the text. -/
theorem exists_slice (text : List Char) (offset : Nat) :
    ∃ before after, text = before ++ ((find text offset).text ++ after) ∧
      (find text offset).start = byteSize before := by
  obtain ⟨opening, reaches, start, ⟨after, rest⟩, -⟩ :=
    exists_reaches_following ((Place.start text).seek offset)
  obtain ⟨before, split, reached⟩ := ((Place.start text).reaches_seek offset).trans reaches
  refine ⟨before, after, ?_, ?_⟩
  · rw [find, rest]
    exact split
  · rw [find, start, reached]
    exact Nat.zero_add _

/-- The characters of the block make the same block anywhere. -/
structure Standalone (block : Block) : Prop where
  closed : block.closed = true → ∀ front back,
    find (front ++ (block.text ++ back)) (byteSize front) = ⟨byteSize front, block.text, true⟩
  unclosed : block.closed = false → ∀ front,
    find (front ++ block.text) (byteSize front) = ⟨byteSize front, block.text, false⟩

theorem Isolated.standalone {place : Place} {block : Block} (isolated : Isolated place block) :
    block.Standalone := by
  cases isolated with
  | empty => exact ⟨nofun, fun _ front => by rw [find_eq_following]; rfl⟩
  | opened absent split ends =>
    cases ends with
    | closed closes =>
      refine ⟨fun _ front back => ?_, nofun⟩
      rw [find_eq_following]
      exact following_of_closes rfl closes _
    | unclosed ran =>
      refine ⟨nofun, fun _ front => ?_⟩
      rw [find_eq_following]
      exact following_of_run ran _

/-- Found again at the front of its own characters a block is the same. -/
theorem Standalone.find_text {block : Block} (standalone : block.Standalone) :
    find block.text 0 = ⟨0, block.text, block.closed⟩ := by
  cases closed : block.closed with
  | true => simpa using standalone.closed closed [] []
  | false => simpa using standalone.unclosed closed []

theorem Isolated.closes {place : Place} {block : Block} (isolated : Isolated place block)
    (closed : block.closed = true) : (⟨.code, 0⟩ : Reader).Closes block.text := by
  cases isolated with
  | empty => contradiction
  | opened absent split ends =>
    cases ends with
    | closed closes => exact closes
    | unclosed => contradiction

/-- No closed block is a proper beginning of another one. -/
theorem Isolated.text_eq {place otherPlace : Place} {block other : Block}
    (isolated : Isolated place block) (otherIsolated : Isolated otherPlace other)
    (closed : block.closed = true) (otherClosed : other.closed = true)
    (start : block.text <+: other.text) : block.text = other.text := by
  obtain ⟨more, split⟩ := start
  have longer := otherIsolated.closes otherClosed
  rw [← split] at longer
  rw [← split, (isolated.closes closed).eq_nil longer, List.append_nil]

end ScriptDelta.Block

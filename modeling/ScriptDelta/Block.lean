import ScriptDelta.Place

/-! # Brace-delimited blocks

A block runs from an opening brace to the brace that closes it, or to the end of the text. Braces
inside comments and strings do not count, and a backslash hides the one character after it. The
reader takes one character at a time and looks neither ahead nor behind: what it has to remember
of a half-read delimiter is part of its mode.
-/

namespace ScriptDelta

/-- A half-open range of byte offsets. -/
structure Span where
  start : Nat
  stop : Nat
deriving DecidableEq

/-- The part between the braces of a block that occupies the span; without a closing brace it
reaches to the end of the span. An empty span has no braces to leave out. -/
def Span.interior (span : Span) (closed : Bool) : Span :=
  if span.stop ≤ span.start then span
  else ⟨span.start + 1, if closed then span.stop - 1 else span.stop⟩

namespace Block

/-- What the characters read so far make of the next one. -/
inductive Mode where
  /-- Program text. -/
  | code
  /-- Program text after a slash, which may turn out to open a comment. -/
  | slash
  /-- Program text after a backslash. -/
  | escape
  /-- A comment that ends with the line. -/
  | lineComment
  /-- A comment that ends with a star and a slash. -/
  | blockComment
  /-- Such a comment after a star. -/
  | star
  /-- A string that the given quote ends. -/
  | quoted (quote : Char)
  /-- Such a string after a backslash. -/
  | quotedEscape (quote : Char)
deriving DecidableEq

/-- The state of reading a block: the mode and the number of open braces. -/
structure Reader where
  mode : Mode
  depth : Nat
deriving DecidableEq

namespace Reader

/-- Reads a character of program text; the result is `none` if it closes the block. -/
def code (depth : Nat) (c : Char) : Option Reader :=
  match c with
  | '/' => some ⟨.slash, depth⟩
  | '\\' => some ⟨.escape, depth⟩
  | '\x7b' => some ⟨.code, depth + 1⟩
  | '\x7d' => if depth ≤ 1 then none else some ⟨.code, depth - 1⟩
  | _ => if c == '"' || c == '\x27' || c == '\x60' then some ⟨.quoted c, depth⟩
    else some ⟨.code, depth⟩

/-- Reads one character; the result is `none` if it closes the block. -/
def step (reader : Reader) (c : Char) : Option Reader :=
  let depth := reader.depth
  match reader.mode with
  | .code => code depth c
  | .slash =>
    if c == '/' then some ⟨.lineComment, depth⟩
    else if c == '*' then some ⟨.blockComment, depth⟩
    else code depth c
  | .escape => some ⟨.code, depth⟩
  | .lineComment => some ⟨if c == '\n' then .code else .lineComment, depth⟩
  | .blockComment => some ⟨if c == '*' then .star else .blockComment, depth⟩
  | .star =>
    some ⟨if c == '/' then .code else if c == '*' then .star else .blockComment, depth⟩
  | .quoted quote =>
    some ⟨if c == '\\' then .quotedEscape quote else if c == quote then .code
      else .quoted quote, depth⟩
  | .quotedEscape quote => some ⟨.quoted quote, depth⟩

/-- What follows the brace that closes the block, if there is one. -/
def close? (reader : Reader) : List Char → Option (List Char)
  | [] => none
  | c :: rest =>
    match reader.step c with
    | none => some rest
    | some next => next.close? rest

end Reader

end Block

/-- A stretch of text from an opening brace to its closing brace or to the end of the text. It is
empty where a text has no opening brace. -/
structure Block where
  /-- The offset of the first byte. -/
  start : Nat
  /-- The characters, braces included. -/
  text : List Char
  /-- The closing brace was found. -/
  closed : Bool
deriving DecidableEq

namespace Block

/-- The bytes that the block occupies. -/
def span (block : Block) : Span :=
  ⟨block.start, block.start + Text.byteSize block.text⟩

/-- The bytes between the braces. -/
def interior (block : Block) : Span :=
  block.span.interior block.closed

/-- The characters between the braces. -/
def inner (block : Block) : List Char :=
  if block.closed then block.text.tail.dropLast else block.text.tail

/-- The block that the first opening brace at or after the place opens. -/
def following (place : Place) : Block :=
  let opening := place.skipWhile (· != '\x7b')
  if opening.rest.isEmpty then ⟨place.offset, [], false⟩
  else
    match (⟨.code, 0⟩ : Reader).close? opening.rest with
    | some rest => ⟨opening.offset, opening.rest.take (opening.rest.length - rest.length), true⟩
    | none => ⟨opening.offset, opening.rest, false⟩

/-- A block is what the text goes on with at a place further on, where a brace is opened unless the
block is empty. -/
theorem exists_reaches_following (place : Place) :
    ∃ opening, place.Reaches opening ∧ (following place).start = opening.offset ∧
      (following place).text <+: opening.rest ∧
        ((following place).text ≠ [] → opening.rest.head? = some '\x7b') := by
  have brace (text : List Char) (occupied : text.dropWhile (· != '\x7b') ≠ []) :
      (text.dropWhile (· != '\x7b')).head? = some '\x7b' := by
    have first := List.head_dropWhile_not _ occupied
    rw [List.head?_eq_some_head occupied]
    simpa using first
  fun_cases following place with
  | case1 => exact ⟨place, .refl place, rfl, List.nil_prefix, by simp⟩
  | case2 opening occupied rest _ =>
    refine ⟨opening, place.reaches_skipWhile _, rfl, List.take_prefix .., fun _ => ?_⟩
    exact brace _ (by simpa [opening, Place.skipWhile] using occupied)
  | case3 opening occupied _ =>
    refine ⟨opening, place.reaches_skipWhile _, rfl, List.prefix_refl _, fun _ => ?_⟩
    exact brace _ (by simpa [opening, Place.skipWhile] using occupied)

/-- The block that the first opening brace at or after a byte offset opens. An offset inside a
character counts as the start of that character, and one past the end as the end. -/
def find (text : List Char) (offset : Nat) : Block :=
  following ((Place.start text).seek offset)

end Block

end ScriptDelta

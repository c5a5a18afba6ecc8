import ScriptDelta.Proofs.Block.Bytes
import ScriptDelta.Proofs.Block.Grammar

/-! # Bytes and characters in step

The reader of characters remembers a slash or a star until it knows what follows; the walker over
bytes has looked ahead. `Agrees` relates the two between characters, and says of a reader after a
slash or a star that the delimiter was not completed. From one such point to the next the two go on
over one character or over the two of a delimiter (`Agrees.follows`), so they close the block at the
same brace or not at all (`locate_bytes`).
-/

namespace ScriptDelta.Block

open Text

/-- What the zone is after a byte that means nothing. -/
def Zone.settled : Zone → Zone
  | .escape => .code
  | .quotedEscape quote => .quoted quote
  | zone => zone

/-- The quote that ends the zone is below 80. -/
def Zone.Ascii : Zone → Prop
  | .quoted quote | .quotedEscape quote => quote.toNat < 0x80
  | _ => True

theorem Zone.Ascii.settled {zone : Zone} (ascii : zone.Ascii) : zone.settled.Ascii := by
  cases zone <;> exact ascii

theorem Zone.settled_settled (zone : Zone) : zone.settled.settled = zone.settled := by
  cases zone <;> rfl

namespace Walker

variable {index depth : Nat} {zone : Zone}

/-- The bytes of characters beyond ASCII mean nothing to the walker. -/
theorem step_foreign {byte : UInt8} (foreign : 0x80 ≤ byte.toNat) (ascii : zone.Ascii)
    (ahead : Option UInt8) :
    step ⟨index, depth, zone⟩ byte ahead = some ⟨index + 1, depth, zone.settled⟩ := by
  have other {d : Char} (small : IsAscii d) : byte ≠ byteOf d := by
    rintro rfl
    exact Nat.not_lt.mpr foreign (toNat_byteOf_lt small)
  have slash : byte ≠ byteOf '/' := other (by decide)
  have star : byte ≠ byteOf '*' := other (by decide)
  have backslash : byte ≠ byteOf '\\' := other (by decide)
  cases zone with
  | code =>
    have double : byte ≠ byteOf '"' := other (by decide)
    have single : byte ≠ byteOf '\x27' := other (by decide)
    have back : byte ≠ byteOf '\x60' := other (by decide)
    have opening : byte ≠ byteOf '\x7b' := other (by decide)
    have closing : byte ≠ byteOf '\x7d' := other (by decide)
    simp [step, slash, backslash, double, single, back, opening, closing, Zone.settled]
  | lineComment =>
    have newline : byte ≠ byteOf '\n' := other (by decide)
    simp [step, newline, Zone.settled]
  | blockComment => simp [step, star, Zone.settled]
  | quoted quote =>
    have inside : byte ≠ quote := by
      rintro rfl
      exact Nat.not_lt.mpr foreign ascii
    simp [step, backslash, inside, Zone.settled]
  | escape | quotedEscape => rfl

/-- So the walker goes over such a character byte by byte. -/
theorem goes_foreign (front : List UInt8) {run : List UInt8} (occupied : run ≠ [])
    (foreign : ∀ byte ∈ run, 0x80 ≤ byte.toNat) (ascii : zone.Ascii) (back : List UInt8)
    (depth : Nat) :
    Relation.ReflTransGen (Goes (front ++ (run ++ back))) ⟨front.length, depth, zone⟩
      ⟨front.length + run.length, depth, zone.settled⟩ := by
  induction run generalizing front zone with
  | nil => contradiction
  | cons byte run ih =>
    have here : (front ++ (byte :: run ++ back))[front.length]? = some byte := by simp
    have first : Goes (front ++ (byte :: run ++ back)) ⟨front.length, depth, zone⟩
        ⟨front.length + 1, depth, zone.settled⟩ :=
      ⟨byte, here, step_foreign (foreign byte (List.mem_cons_self ..)) ascii _⟩
    by_cases single : run = []
    · subst single
      exact .single first
    · have further := ih (front ++ [byte]) single
        (fun other member => foreign other (.tail _ member)) ascii.settled
      rw [Zone.settled_settled, List.length_append, List.append_assoc] at further
      have size : front.length + (byte :: run).length =
          front.length + [byte].length + run.length := by
        simp only [List.length_cons, List.length_nil]
        omega
      rw [size]
      exact .head first further

end Walker

/-- The reader and the walker are in the same place and make the same of it. -/
inductive Agrees : Mode → List Char → Zone → Prop
  | code {rest : List Char} : Agrees .code rest .code
  /-- No comment has begun. -/
  | slash {rest : List Char} :
      rest.head? ≠ some '/' → rest.head? ≠ some '*' → Agrees .slash rest .code
  | escape {rest : List Char} : Agrees .escape rest .escape
  | lineComment {rest : List Char} : Agrees .lineComment rest .lineComment
  | blockComment {rest : List Char} : Agrees .blockComment rest .blockComment
  /-- The comment has not ended. -/
  | star {rest : List Char} : rest.head? ≠ some '/' → Agrees .star rest .blockComment
  | quoted {rest : List Char} {quote : Char} :
      IsAscii quote → Agrees (.quoted quote) rest (.quoted (byteOf quote))
  | quotedEscape {rest : List Char} {quote : Char} :
      IsAscii quote → Agrees (.quotedEscape quote) rest (.quotedEscape (byteOf quote))

/-- Both close the block with the next character, or both go on to where they agree again. -/
inductive Follows (before : List Char) (reader : Reader) (zone : Zone) : List Char → Prop
  | closes {rest : List Char} :
      reader.step '\x7d' = none → zone = .code → reader.depth ≤ 1 →
      Follows before reader zone ('\x7d' :: rest)
  | goes (passed : List Char) {rest : List Char} {next : Reader} {other : Zone} :
      passed ≠ [] → reader.run passed = some next →
      Relation.ReflTransGen (Walker.Goes (bytes (before ++ (passed ++ rest))))
        ⟨byteSize before, reader.depth, zone⟩ ⟨byteSize (before ++ passed), next.depth, other⟩ →
      Agrees next.mode rest other → Follows before reader zone (passed ++ rest)

section

variable {before rest : List Char} {reader next : Reader} {zone other : Zone} {c d : Char}

theorem getElem?_bytes (ascii : IsAscii c) (before rest : List Char) :
    (bytes (before ++ c :: rest))[byteSize before]? = some (byteOf c) ∧
      (bytes (before ++ c :: rest))[byteSize before + 1]? = (bytes rest).head? := by
  rw [bytes_append, bytes_cons, encode_of_isAscii ascii, ← length_bytes]
  constructor
  · simp
  · rw [List.getElem?_append_right (by omega), List.head?_eq_getElem?]
    simp

/-- Both take one character. -/
theorem Follows.one (ascii : IsAscii c) (read : reader.step c = some next)
    (stepped : Walker.step ⟨byteSize before, reader.depth, zone⟩ (byteOf c) (bytes rest).head? =
      some ⟨byteSize before + 1, next.depth, other⟩)
    (agrees : Agrees next.mode rest other) : Follows before reader zone (c :: rest) := by
  obtain ⟨here, ahead⟩ := getElem?_bytes ascii before rest
  have size : byteSize (before ++ [c]) = byteSize before + 1 := by
    rw [← length_bytes, bytes_append, bytes_cons, encode_of_isAscii ascii]
    simp
  rw [← ahead] at stepped
  refine .goes [c] (by simp) (by simp [read]) ?_ agrees
  rw [size]
  exact .single ⟨byteOf c, here, stepped⟩

/-- Both take the two characters of a delimiter. -/
theorem Follows.two (ascii : IsAscii c) (asciiNext : IsAscii d)
    (read : reader.run [c, d] = some next)
    (stepped : Walker.step ⟨byteSize before, reader.depth, zone⟩ (byteOf c) (some (byteOf d)) =
      some ⟨byteSize before + 2, next.depth, other⟩)
    (agrees : Agrees next.mode rest other) : Follows before reader zone (c :: d :: rest) := by
  obtain ⟨here, ahead⟩ := getElem?_bytes ascii before (d :: rest)
  have ahead : (bytes (before ++ c :: d :: rest))[byteSize before + 1]? = some (byteOf d) := by
    rw [ahead, bytes_cons, encode_of_isAscii asciiNext]
    rfl
  have size : byteSize (before ++ [c, d]) = byteSize before + 2 := by
    rw [← length_bytes, bytes_append, bytes_cons, bytes_cons, encode_of_isAscii ascii,
      encode_of_isAscii asciiNext]
    simp
  rw [← ahead] at stepped
  refine .goes [c, d] (by simp) read ?_ agrees
  rw [size]
  exact .single ⟨byteOf c, here, stepped⟩

/-- Program text, after a slash or not, where the reader makes of the character what it makes of it
in program text. -/
theorem follows_code (ascii : IsAscii c) (inCode : reader.step c = Reader.code reader.depth c) :
    Follows before reader .code (c :: rest) := by
  have other {d : Char} (different : c ≠ d) (small : IsAscii d) : byteOf c ≠ byteOf d :=
    (byteOf_inj ascii small).not.mpr different
  obtain ⟨mode, depth⟩ := reader
  by_cases escape : c = '\\'
  · subst escape
    exact .one ascii inCode rfl .escape
  by_cases slash : c = '/'
  · subst slash
    by_cases line : rest.head? = some '/'
    · obtain ⟨later, rfl⟩ := List.head?_eq_some_iff.mp line
      have read : Reader.run ⟨mode, depth⟩ ['/', '/'] = some ⟨.lineComment, depth⟩ := by
        rw [Reader.run_cons, inCode]
        rfl
      exact .two ascii ascii read rfl .lineComment
    by_cases block : rest.head? = some '*'
    · obtain ⟨later, rfl⟩ := List.head?_eq_some_iff.mp block
      have read : Reader.run ⟨mode, depth⟩ ['/', '*'] = some ⟨.blockComment, depth⟩ := by
        rw [Reader.run_cons, inCode]
        rfl
      exact .two ascii (by decide) read rfl .blockComment
    have notLine : (bytes rest).head? ≠ some (byteOf '/') :=
      (head?_bytes_eq_iff (by decide)).not.mpr line
    have notBlock : (bytes rest).head? ≠ some (byteOf '*') :=
      (head?_bytes_eq_iff (by decide)).not.mpr block
    refine .one ascii inCode ?_ (.slash line block)
    simp only [Walker.step, notLine, notBlock, and_false, ↓reduceIte]
    rfl
  by_cases quote : c = '"' ∨ c = '\x27' ∨ c = '\x60'
  · rcases quote with rfl | rfl | rfl <;> exact .one ascii inCode rfl (.quoted (by decide))
  by_cases opening : c = '\x7b'
  · subst opening
    exact .one ascii inCode rfl .code
  by_cases closing : c = '\x7d'
  · subst closing
    by_cases last : depth ≤ 1
    · exact .closes (by simp [inCode, Reader.code, last]) rfl last
    · have more : ¬ depth - 1 = 0 := by omega
      have read : Reader.step ⟨mode, depth⟩ '\x7d' = some ⟨.code, depth - 1⟩ := by
        simp [inCode, Reader.code, last]
      refine .one ascii read ?_ .code
      simp [Walker.step, byteOf, more]
  · simp only [not_or] at quote
    have same : Reader.code depth c = some ⟨.code, depth⟩ :=
      Reader.code_other (by simp [Token.quotes, escape, slash, quote, opening, closing]) depth
    refine .one ascii (inCode.trans same) ?_ .code
    simp [Walker.step, other escape (by decide), other slash (by decide),
      other quote.1 (by decide), other quote.2.1 (by decide), other quote.2.2 (by decide),
      other opening (by decide), other closing (by decide)]

/-- A comment, after a star or not, that goes on unless the star and the slash that end it come
next. -/
theorem follows_comment (ascii : IsAscii c)
    (inComment : reader.step c =
      some ⟨if c == '*' then .star else .blockComment, reader.depth⟩) :
    Follows before reader .blockComment (c :: rest) := by
  obtain ⟨mode, depth⟩ := reader
  by_cases star : c = '*'
  · subst star
    by_cases slash : rest.head? = some '/'
    · obtain ⟨later, rfl⟩ := List.head?_eq_some_iff.mp slash
      have read : Reader.run ⟨mode, depth⟩ ['*', '/'] = some ⟨.code, depth⟩ := by
        rw [Reader.run_cons, inComment]
        rfl
      exact .two ascii (by decide) read rfl .code
    · have goesOn : (bytes rest).head? ≠ some (byteOf '/') :=
        (head?_bytes_eq_iff (by decide)).not.mpr slash
      exact .one ascii inComment (by simp [Walker.step, goesOn]) (.star slash)
  · have notStar : byteOf c ≠ byteOf '*' := (byteOf_inj ascii (by decide)).not.mpr star
    have read : Reader.step ⟨mode, depth⟩ c = some ⟨.blockComment, depth⟩ := by
      simp [inComment, star]
    refine .one ascii read ?_ .blockComment
    simp [Walker.step, notStar]

/-- A character beyond ASCII, which means nothing to either. -/
theorem Agrees.follows_foreign (agrees : Agrees reader.mode (c :: rest) zone)
    (foreign : ¬ IsAscii c) : Follows before reader zone (c :: rest) := by
  have other {d : Char} (ascii : IsAscii d) : c ≠ d := by
    rintro rfl
    exact foreign ascii
  obtain ⟨mode, depth⟩ := reader
  have zoneAscii : zone.Ascii := by
    cases agrees with
    | quoted ascii | quotedEscape ascii => exact toNat_byteOf_lt ascii
    | _ => trivial
  have further : Agrees ((⟨mode, depth⟩ : Reader).afterGap false).mode rest zone.settled := by
    cases agrees with
    | quoted ascii | quotedEscape ascii => exact .quoted ascii
    | _ => constructor
  have read : (⟨mode, depth⟩ : Reader).step c = some ((⟨mode, depth⟩ : Reader).afterGap false) := by
    have notNewline : (c == '\n') = false := beq_eq_false_iff_ne.mpr (other (by decide))
    rw [← notNewline]
    have small : ∀ d ∈ Reader.specials, IsAscii d := Reader.forall_specials.mpr (by decide)
    refine Reader.step_inert (fun d special => other (small d special)) fun quote inside => ?_
    obtain rfl : mode = .quoted quote := inside
    cases agrees with
    | quoted ascii => exact other ascii
  have level : ((⟨mode, depth⟩ : Reader).afterGap false).depth = depth := by
    cases mode <;> rfl
  obtain ⟨lead, tail, encoded, large, inside⟩ := encode_of_not_isAscii foreign
  have bytesForeign : ∀ byte ∈ String.utf8EncodeChar c, 0x80 ≤ byte.toNat := by
    intro byte member
    rw [encoded] at member
    rcases List.mem_cons.mp member with rfl | member
    · omega
    · exact (continues_iff.mp (inside byte member)).1
  have occupied : String.utf8EncodeChar c ≠ [] := by simp [encoded]
  have goes := Walker.goes_foreign (bytes before) occupied bytesForeign zoneAscii (bytes rest) depth
  rw [String.length_utf8EncodeChar, length_bytes] at goes
  refine .goes [c] (by simp) (by simp [read]) ?_ further
  rw [level, byteSize_append, bytes_append, bytes_append]
  simpa using goes

/-- Where reader and walker agree, both close the block or come to agree again. -/
theorem Agrees.follows (agrees : Agrees reader.mode (c :: rest) zone) :
    Follows before reader zone (c :: rest) := by
  by_cases ascii : IsAscii c
  · have same {d : Char} (small : IsAscii d) : byteOf c = byteOf d ↔ c = d := byteOf_inj ascii small
    obtain ⟨mode, depth⟩ := reader
    cases agrees with
    | code => exact follows_code ascii rfl
    | slash notLine notBlock =>
      simp only [List.head?_cons, ne_eq, Option.some.injEq] at notLine notBlock
      exact follows_code ascii (by simp [Reader.step, notLine, notBlock])
    | escape => exact .one ascii rfl rfl .code
    | lineComment =>
      by_cases newline : c = '\n'
      · subst newline
        exact .one ascii rfl rfl .code
      · have goesOn : byteOf c ≠ byteOf '\n' := (same (by decide)).not.mpr newline
        have read : Reader.step ⟨.lineComment, depth⟩ c = some ⟨.lineComment, depth⟩ := by
          simp [Reader.step, newline]
        refine .one ascii read ?_ .lineComment
        simp [Walker.step, goesOn]
    | blockComment => exact follows_comment ascii rfl
    | star notSlash =>
      simp only [List.head?_cons, ne_eq, Option.some.injEq] at notSlash
      exact follows_comment ascii (by simp [Reader.step, notSlash])
    | @quoted _ quote small =>
      by_cases escape : c = '\\'
      · subst escape
        exact .one ascii rfl rfl (.quotedEscape small)
      have notEscape : byteOf c ≠ byteOf '\\' := (same (by decide)).not.mpr escape
      by_cases ends : c = quote
      · subst ends
        have read : Reader.step ⟨.quoted c, depth⟩ c = some ⟨.code, depth⟩ := by
          simp [Reader.step, escape]
        refine .one ascii read ?_ .code
        simp [Walker.step, notEscape]
      · have goesOn : byteOf c ≠ byteOf quote := (same small).not.mpr ends
        have read : Reader.step ⟨.quoted quote, depth⟩ c = some ⟨.quoted quote, depth⟩ := by
          simp [Reader.step, escape, ends]
        refine .one ascii read ?_ (.quoted small)
        simp [Walker.step, notEscape, goesOn]
    | quotedEscape small => exact .one ascii rfl rfl (.quoted small)
  · exact agrees.follows_foreign ascii

/-- From where they agree the walker over the bytes and the reader of characters come to the same
end. The induction is on what is left of the text, since one step may take two characters. -/
theorem Agrees.walk_eq (agrees : Agrees reader.mode rest zone) (before : List Char) :
    Walker.walk (bytes (before ++ rest)) ⟨byteSize before, reader.depth, zone⟩ =
      match reader.close? rest with
      | some after => (byteSize (before ++ rest) - byteSize after, true)
      | none => (byteSize (before ++ rest), false) := by
  induction length : rest.length using Nat.strong_induction_on
    generalizing before rest reader zone with
  | _ size ih =>
    cases rest with
    | nil =>
      have atEnd : (bytes (before ++ [])).length ≤ byteSize before := by simp
      rw [Walker.walk_of_length_le atEnd, length_bytes]
      rfl
    | cons c rest =>
      have follows : Follows before reader zone (c :: rest) := agrees.follows
      generalize whole : c :: rest = text at follows length ⊢
      cases follows with
      | @closes rest stuck inCode last =>
        have brace : IsAscii '\x7d' := by decide
        have here := (getElem?_bytes brace before rest).1
        have closes (ahead : Option UInt8) :
            Walker.step ⟨byteSize before, reader.depth, zone⟩ (byteOf '\x7d') ahead = none :=
          Walker.step_eq_none_iff.mpr ⟨inCode, rfl, last⟩
        have sized : byteSize (before ++ '\x7d' :: rest) = byteSize before + 1 + byteSize rest := by
          rw [byteSize_append, byteSize_cons, Nat.add_assoc]
          rfl
        rw [Walker.walk_of_closes here (closes _), Reader.close?, stuck, sized]
        simp
      | @goes passed rest next other occupied ran goes further =>
        have shorter : rest.length < size := by
          have positive := List.length_pos_iff.mpr occupied
          rw [← length, List.length_append]
          omega
        rw [Walker.walk_of_goes_all goes, ← List.append_assoc, Reader.close?_append ran]
        exact ih _ shorter further _ rfl

end

/-- The extent of the block that the first opening brace at or after an offset opens, and whether it
is closed, found byte by byte. -/
def locate (bytes : List UInt8) (offset : Nat) : Span × Bool :=
  let start := floorBoundary bytes (min offset bytes.length)
  let rest := bytes.drop start
  if byteOf '\x7b' ∈ rest then
    let brace := start + rest.idxOf (byteOf '\x7b')
    let (stop, closed) := Walker.walk bytes ⟨brace, 0, .code⟩
    (⟨brace, stop⟩, closed)
  else (⟨start, start⟩, false)

/-- In the bytes of a text the same block is found. -/
theorem locate_bytes (text : List Char) (offset : Nat) :
    locate (bytes text) offset = ((find text offset).span, (find text offset).closed) := by
  obtain ⟨before, after, rfl, floor, sought⟩ := Place.seek_start text offset
  have brace : IsAscii '\x7b' := by decide
  have rest : (bytes (before ++ after)).drop (byteSize before) = bytes after := by
    rw [bytes_append, ← length_bytes, List.drop_left]
  rw [find, sought, locate, floor.floorBoundary, rest]
  simp only [byteOf_mem_bytes_iff brace]
  by_cases member : '\x7b' ∈ after
  · obtain ⟨skipped, opened, rfl, clear⟩ := List.eq_append_cons_of_mem member
    have absent : byteOf '\x7b' ∉ bytes skipped := (byteOf_mem_bytes_iff brace).not.mpr clear
    have index : (bytes (skipped ++ '\x7b' :: opened)).idxOf (byteOf '\x7b') = byteSize skipped := by
      rw [bytes_append, bytes_cons, encode_of_isAscii brace, List.idxOf_append_of_notMem absent]
      simp
    obtain ⟨body, later, closed, rfl, ends⟩ := Reader.exists_ends_opening opened
    rw [if_pos member, index, following_append clear, following_of_ends ends, ← byteSize_append,
      ← List.append_assoc]
    have agrees : Agrees (⟨.code, 0⟩ : Reader).mode ('\x7b' :: (body ++ later)) .code := .code
    rw [agrees.walk_eq (before ++ skipped)]
    cases ends with
    | closed closes =>
      have found : (⟨.code, 0⟩ : Reader).close? ('\x7b' :: (body ++ later)) = some later :=
        Reader.close?_of_closes closes later
      have sized : byteSize (before ++ skipped ++ '\x7b' :: (body ++ later)) =
          byteSize (before ++ skipped) + byteSize ('\x7b' :: body) + byteSize later := by
        rw [← List.cons_append, byteSize_append _ ('\x7b' :: body ++ later), byteSize_append _ later,
          Nat.add_assoc]
      rw [found, sized]
      simp [span]
    | unclosed ran nothing =>
      subst nothing
      have unclosed := Reader.close?_of_run ran
      rw [List.append_nil, unclosed, span, byteSize_append _ ('\x7b' :: body)]
  · rw [if_neg member, following_of_not_mem member]
    rfl

end ScriptDelta.Block

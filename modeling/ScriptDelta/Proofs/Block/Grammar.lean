import ScriptDelta.Proofs.Block.Reading
import ScriptDelta.Proofs.Place.Seeking

/-! # The grammar of blocks

A text is cut from left to right into comments, strings, escaped characters, braces and other
characters. `Token.Leads` says which token a text begins with and `Cut` how a whole text is cut; a
brace inside a comment, a string or an escape is no token of its own. The reader of blocks takes one
character at a time and knows no tokens. What it finds is nevertheless the block of the
grammar: the shortest beginning of the cut with as many closing as opening braces.
-/

namespace ScriptDelta

namespace Block

/-- A piece of text that braces are looked for between. -/
inductive Token where
  /-- Two slashes and the rest of the line, with the newline. -/
  | lineComment (text : List Char)
  /-- From a slash and a star to the next star and slash. -/
  | blockComment (text : List Char)
  /-- From a quote to the next quote of the same kind. -/
  | string (text : List Char)
  /-- A backslash and the character after it. -/
  | escape (hidden : Char)
  | opening
  | closing
  | other (c : Char)
deriving DecidableEq

namespace Token

/-- The characters of the token. -/
def text : Token → List Char
  | lineComment text | blockComment text | string text => text
  | escape hidden => ['\\', hidden]
  | opening => ['\x7b']
  | closing => ['\x7d']
  | other c => [c]

/-- The characters that begin and end a string. -/
def quotes : List Char :=
  ['"', '\x27', '\x60']

/-- The inside of a string: pairs of a backslash and a character, and characters that are neither
a backslash nor the quote. -/
inductive Quoted (quote : Char) : List Char → Prop
  | nil : Quoted quote []
  | char {c : Char} {inside : List Char} :
      c ≠ '\\' → c ≠ quote → Quoted quote inside → Quoted quote (c :: inside)
  | pair {c : Char} {inside : List Char} : Quoted quote inside → Quoted quote ('\\' :: c :: inside)

/-- A comment or a string stops with its closing delimiter, or with the text. -/
def Stops (delimiter tail rest : List Char) : Prop :=
  tail = delimiter ∨ tail = [] ∧ rest = []

/-- A text begins with a token, and the rest follows it. -/
inductive Leads : List Char → Token → List Char → Prop
  | lineComment {inside tail rest : List Char} :
      '\n' ∉ inside → Stops ['\n'] tail rest →
      Leads ('/' :: '/' :: (inside ++ (tail ++ rest)))
        (.lineComment ('/' :: '/' :: (inside ++ tail))) rest
  | blockComment {inside tail rest : List Char} :
      ¬ ['*', '/'] <:+: inside → Stops ['*', '/'] tail rest →
      Leads ('/' :: '*' :: (inside ++ (tail ++ rest)))
        (.blockComment ('/' :: '*' :: (inside ++ tail))) rest
  | string {quote : Char} {inside tail rest : List Char} :
      quote ∈ quotes → Quoted quote inside → Stops [quote] tail rest →
      Leads (quote :: (inside ++ (tail ++ rest))) (.string (quote :: (inside ++ tail))) rest
  /-- The text ends after a backslash in a string. -/
  | brokenString {quote : Char} {inside : List Char} :
      quote ∈ quotes → Quoted quote inside →
      Leads (quote :: (inside ++ ['\\'])) (.string (quote :: (inside ++ ['\\']))) []
  | escape {hidden : Char} {rest : List Char} : Leads ('\\' :: hidden :: rest) (.escape hidden) rest
  | opening {rest : List Char} : Leads ('\x7b' :: rest) .opening rest
  | closing {rest : List Char} : Leads ('\x7d' :: rest) .closing rest
  | other {c : Char} {rest : List Char} :
      c ∉ '\x7b' :: '\x7d' :: quotes → (c = '\\' → rest = []) →
      (c = '/' → rest.head? ≠ some '/' ∧ rest.head? ≠ some '*') →
      Leads (c :: rest) (.other c) rest

end Token

/-- A text cut into tokens from left to right. -/
inductive Cut : List Char → List Token → Prop
  | nil : Cut [] []
  | cons {text rest : List Char} {token : Token} {tokens : List Token} :
      token.Leads text rest → Cut rest tokens → Cut text (token :: tokens)

namespace Reader

theorem run_lineComment {inside : List Char} (within : '\n' ∉ inside) (depth : Nat) :
    (⟨.lineComment, depth⟩ : Reader).run inside = some ⟨.lineComment, depth⟩ := by
  induction inside with
  | nil => rfl
  | cons c inside ih =>
    rw [List.mem_cons, not_or] at within
    simp [step, Ne.symm within.1, ih within.2]

/-- A comment that no star and slash has ended goes on, after a star or not. -/
theorem run_blockComment {inside : List Char} (depth : Nat) :
    (¬ ['*', '/'] <:+: inside → ∃ mode, (mode = .blockComment ∨ mode = .star) ∧
      (⟨.blockComment, depth⟩ : Reader).run inside = some ⟨mode, depth⟩) ∧
    (¬ ['*', '/'] <:+: '*' :: inside → ∃ mode, (mode = .blockComment ∨ mode = .star) ∧
      (⟨.star, depth⟩ : Reader).run inside = some ⟨mode, depth⟩) := by
  induction inside with
  | nil => exact ⟨fun _ => ⟨_, .inl rfl, rfl⟩, fun _ => ⟨_, .inr rfl, rfl⟩⟩
  | cons c inside ih =>
    have later (before : List Char) (within : ¬ ['*', '/'] <:+: before ++ c :: inside) :
        ¬ ['*', '/'] <:+: c :: inside := fun found =>
      within (found.trans (List.suffix_append ..).isInfix)
    constructor
    · intro within
      by_cases star : c = '*'
      · subst star
        simpa [step] using ih.2 within
      · simpa [step, star] using ih.1 fun found => within (found.trans (List.infix_cons List.infix_rfl))
    · intro within
      have notSlash : c ≠ '/' := by
        rintro rfl
        exact within (List.prefix_append ['*', '/'] inside).isInfix
      by_cases star : c = '*'
      · subst star
        simpa [step] using ih.2 (later ['*'] within)
      · simpa [step, notSlash, star] using ih.1 fun found =>
          within (found.trans (List.suffix_append ['*', c] inside).isInfix)

theorem run_quoted {quote : Char} {inside : List Char} (quoted : Token.Quoted quote inside)
    (depth : Nat) :
    (⟨.quoted quote, depth⟩ : Reader).run inside = some ⟨.quoted quote, depth⟩ := by
  induction quoted with
  | nil => rfl
  | char notEscape notQuote _ ih => simp [step, notEscape, notQuote, ih]
  | pair _ ih => simp [step, ih]

theorem code_other {c : Char} (other : c ∉ '/' :: '\\' :: '\x7b' :: '\x7d' :: Token.quotes)
    (depth : Nat) : code depth c = some ⟨.code, depth⟩ := by
  simp only [Token.quotes, List.mem_cons, List.not_mem_nil, or_false, not_or] at other
  unfold code
  split <;> simp_all

theorem code_quote {quote : Char} (member : quote ∈ Token.quotes) (depth : Nat) :
    code depth quote = some ⟨.quoted quote, depth⟩ := by
  simp only [Token.quotes, List.mem_cons, List.not_mem_nil, or_false] at member
  rcases member with rfl | rfl | rfl <;> rfl

/-- A delimiter takes the reader back to program text, and at the end of the text it is not
missed. -/
theorem close?_of_stops {reader next : Reader} {inside delimiter tail rest : List Char}
    (ran : reader.run inside = some next) {depth : Nat}
    (delimited : next.run delimiter = some ⟨.code, depth⟩)
    (stops : Token.Stops delimiter tail rest) :
    reader.close? (inside ++ (tail ++ rest)) = (⟨.code, depth⟩ : Reader).close? rest := by
  rw [close?_append ran]
  rcases stops with rfl | ⟨rfl, rfl⟩
  · exact close?_append delimited rest
  · rfl

end Reader

/-- What a token does to the depth; a closing brace at depth one or less closes the block. -/
theorem Token.Leads.close? {text rest : List Char} {token : Token} (leads : token.Leads text rest)
    (depth : Nat) :
    (⟨.code, depth⟩ : Reader).close? text =
      match token with
      | .opening => (⟨.code, depth + 1⟩ : Reader).close? rest
      | .closing => if depth ≤ 1 then some rest else (⟨.code, depth - 1⟩ : Reader).close? rest
      | _ => (⟨.code, depth⟩ : Reader).close? rest := by
  cases leads with
  | @lineComment inside tail _ within stops =>
    have ran := Reader.run_lineComment within depth
    exact Reader.close?_of_stops ran rfl stops
  | @blockComment inside tail _ within stops =>
    obtain ⟨mode, modes, ran⟩ := (Reader.run_blockComment depth).1 within
    have delimited : (⟨mode, depth⟩ : Reader).run ['*', '/'] = some ⟨.code, depth⟩ := by
      rcases modes with rfl | rfl <;> rfl
    exact Reader.close?_of_stops ran delimited stops
  | @string quote inside tail _ member quoted stops =>
    have ran := Reader.run_quoted quoted depth
    have notEscape : quote ≠ '\\' := by rintro rfl; simp [quotes] at member
    have opened : (⟨.code, depth⟩ : Reader).step quote = some ⟨.quoted quote, depth⟩ :=
      Reader.code_quote member depth
    simp only [Reader.close?, opened]
    exact Reader.close?_of_stops ran (by simp [Reader.step, notEscape]) stops
  | @brokenString quote inside member quoted =>
    have ran := Reader.run_quoted quoted depth
    have opened : (⟨.code, depth⟩ : Reader).step quote = some ⟨.quoted quote, depth⟩ :=
      Reader.code_quote member depth
    simp only [Reader.close?, opened]
    rw [Reader.close?_append ran]
    rfl
  | escape => rfl
  | opening => rfl
  | closing =>
    by_cases last : depth ≤ 1 <;> simp [Reader.close?, Reader.step, Reader.code, last]
  | @other c _ special escape slash =>
    by_cases isEscape : c = '\\'
    · obtain rfl := escape isEscape
      subst isEscape
      rfl
    · by_cases isSlash : c = '/'
      · -- the reader waits for the next character to tell a comment from a slash
        subst isSlash
        obtain ⟨notSlash, notStar⟩ := slash rfl
        cases rest with
        | nil => rfl
        | cons d rest =>
          have code : (⟨.slash, depth⟩ : Reader).step d = Reader.code depth d := by
            simp_all [Reader.step]
          change (⟨.slash, depth⟩ : Reader).close? (d :: rest) = _
          simp only [Reader.close?, code]
          rfl
      · have code : (⟨.code, depth⟩ : Reader).step c = some ⟨.code, depth⟩ := by
          refine Reader.code_other ?_ depth
          simp_all
        simp only [Reader.close?, code]


namespace Token

theorem text_ne_nil {text rest : List Char} {token : Token} (leads : token.Leads text rest) :
    token.text ≠ [] := by
  cases leads <;> simp [Token.text]

/-- A token and its rest are the whole text. -/
theorem Leads.eq_append {text rest : List Char} {token : Token} (leads : token.Leads text rest) :
    text = token.text ++ rest := by
  cases leads <;> simp [Token.text]

theorem exists_line (text : List Char) :
    ∃ inside tail rest, text = inside ++ (tail ++ rest) ∧ '\n' ∉ inside ∧ Stops ['\n'] tail rest := by
  by_cases member : '\n' ∈ text
  · obtain ⟨inside, rest, rfl, within⟩ := List.eq_append_cons_of_mem member
    exact ⟨inside, ['\n'], rest, rfl, within, .inl rfl⟩
  · exact ⟨text, [], [], by simp, member, .inr ⟨rfl, rfl⟩⟩

theorem exists_comment (text : List Char) :
    ∃ inside tail rest, text = inside ++ (tail ++ rest) ∧ ¬ ['*', '/'] <:+: inside ∧
      Stops ['*', '/'] tail rest := by
  induction text with
  | nil => exact ⟨[], [], [], rfl, by simp, .inr ⟨rfl, rfl⟩⟩
  | cons c text ih =>
    by_cases ends : ['*', '/'] <+: c :: text
    · obtain ⟨rest, split⟩ := ends
      exact ⟨[], ['*', '/'], rest, split.symm, by simp, .inl rfl⟩
    · obtain ⟨inside, tail, rest, rfl, within, stops⟩ := ih
      refine ⟨c :: inside, tail, rest, rfl, ?_, stops⟩
      rw [List.infix_cons_iff, not_or]
      refine ⟨fun found => ends ?_, within⟩
      exact found.trans (List.prefix_append (c :: inside) _)

theorem exists_quoted (quote : Char) : ∀ text : List Char,
    ∃ inside, Quoted quote inside ∧
      ((∃ tail rest, text = inside ++ (tail ++ rest) ∧ Stops [quote] tail rest) ∨
        text = inside ++ ['\\'])
  | [] => ⟨[], .nil, .inl ⟨[], [], rfl, .inr ⟨rfl, rfl⟩⟩⟩
  | c :: text => by
    by_cases atQuote : c = quote
    · subst atQuote
      exact ⟨[], .nil, .inl ⟨[c], text, rfl, .inl rfl⟩⟩
    · by_cases atEscape : c = '\\'
      · subst atEscape
        cases text with
        | nil => exact ⟨[], .nil, .inr rfl⟩
        | cons hidden text =>
          obtain ⟨inside, quoted, ends⟩ := exists_quoted quote text
          refine ⟨'\\' :: hidden :: inside, quoted.pair, ends.imp ?_ ?_⟩
          · rintro ⟨tail, rest, rfl, stops⟩
            exact ⟨tail, rest, rfl, stops⟩
          · rintro rfl
            rfl
      · obtain ⟨inside, quoted, ends⟩ := exists_quoted quote text
        refine ⟨c :: inside, quoted.char atEscape atQuote, ends.imp ?_ ?_⟩
        · rintro ⟨tail, rest, rfl, stops⟩
          exact ⟨tail, rest, rfl, stops⟩
        · rintro rfl
          rfl

/-- Every text that is left begins with a token. -/
theorem exists_leads (c : Char) (text : List Char) :
    ∃ token rest, Leads (c :: text) token rest := by
  by_cases member : c ∈ quotes
  · obtain ⟨inside, quoted, ⟨tail, rest, rfl, stops⟩ | rfl⟩ := exists_quoted c text
    · exact ⟨_, rest, .string member quoted stops⟩
    · exact ⟨_, [], .brokenString member quoted⟩
  by_cases atOpening : c = '\x7b'
  · subst atOpening
    exact ⟨_, _, .opening⟩
  by_cases atClosing : c = '\x7d'
  · subst atClosing
    exact ⟨_, _, .closing⟩
  have special : c ∉ '\x7b' :: '\x7d' :: quotes := by simp [atOpening, atClosing, member]
  cases text with
  | nil => exact ⟨_, _, .other special (fun _ => rfl) (by simp)⟩
  | cons d text =>
    by_cases atEscape : c = '\\'
    · subst atEscape
      exact ⟨_, _, .escape⟩
    by_cases line : c = '/' ∧ d = '/'
    · obtain ⟨rfl, rfl⟩ := line
      obtain ⟨inside, tail, rest, rfl, within, stops⟩ := exists_line text
      exact ⟨_, rest, .lineComment within stops⟩
    by_cases comment : c = '/' ∧ d = '*'
    · obtain ⟨rfl, rfl⟩ := comment
      obtain ⟨inside, tail, rest, rfl, within, stops⟩ := exists_comment text
      exact ⟨_, rest, .blockComment within stops⟩
    refine ⟨_, _, .other special (fun same => absurd same atEscape) fun same => ?_⟩
    simp only [List.head?_cons, ne_eq, Option.some.injEq]
    exact ⟨fun next => line ⟨same, next⟩, fun next => comment ⟨same, next⟩⟩

end Token

namespace Cut

/-- Every text can be cut. -/
theorem exists_tokens (text : List Char) : ∃ tokens, Cut text tokens := by
  induction length : text.length using Nat.strong_induction_on generalizing text with
  | _ size ih =>
    cases text with
    | nil => exact ⟨[], .nil⟩
    | cons c text =>
      obtain ⟨token, rest, leads⟩ := Token.exists_leads c text
      have shorter : rest.length < size := by
        have occupied := List.length_pos_iff.mpr (Token.text_ne_nil leads)
        rw [← length, leads.eq_append, List.length_append]
        omega
      obtain ⟨tokens, cut⟩ := ih _ shorter rest rfl
      exact ⟨token :: tokens, .cons leads cut⟩

/-- Cutting loses nothing. -/
theorem flatMap_text {text : List Char} {tokens : List Token} (cut : Cut text tokens) :
    tokens.flatMap Token.text = text := by
  induction cut with
  | nil => rfl
  | cons leads _ ih => rw [List.flatMap_cons, ih, leads.eq_append]

end Cut


/-- Some tokens, at least one, close the braces that they open and `depth` more. -/
def Levels (depth : Nat) (tokens : List Token) : Prop :=
  tokens ≠ [] ∧ tokens.count .closing = depth + tokens.count .opening

/-- A beginning of the tokens closes `depth` braces more than it opens, and no shorter one does. -/
def LevelsFirst (depth : Nat) (inside tokens : List Token) : Prop :=
  inside <+: tokens ∧ Levels depth inside ∧
    ∀ shorter, shorter <+: tokens → Levels depth shorter → inside <+: shorter

theorem levels_opening (depth : Nat) (tokens : List Token) :
    Levels depth (.opening :: tokens) ↔ Levels (depth + 1) tokens := by
  cases tokens with
  | nil => simp [Levels]
  | cons token tokens =>
    simp only [Levels, ne_eq, reduceCtorEq, not_false_eq_true, true_and, List.count_cons_self,
      List.count_cons_of_ne]
    omega

theorem levels_closing {depth : Nat} (deep : 1 < depth) (tokens : List Token) :
    Levels depth (.closing :: tokens) ↔ Levels (depth - 1) tokens := by
  cases tokens with
  | nil => simp [Levels]; omega
  | cons token tokens =>
    simp only [Levels, ne_eq, reduceCtorEq, not_false_eq_true, true_and, List.count_cons_self,
      List.count_cons_of_ne]
    omega

theorem levels_cons {depth : Nat} (positive : 0 < depth) {token : Token}
    (notOpening : token ≠ .opening) (notClosing : token ≠ .closing) (tokens : List Token) :
    Levels depth (token :: tokens) ↔ Levels depth tokens := by
  cases tokens with
  | nil => simp [Levels, notOpening, notClosing]; omega
  | cons next tokens => simp [Levels, List.count_cons_of_ne notOpening, List.count_cons_of_ne notClosing]

section

variable {depth deeper : Nat} {token : Token} {tokens : List Token}

theorem LevelsFirst.cons {inside : List Token}
    (shift : ∀ tokens, Levels depth (token :: tokens) ↔ Levels deeper tokens)
    (first : LevelsFirst deeper inside tokens) :
    LevelsFirst depth (token :: inside) (token :: tokens) := by
  obtain ⟨start, levels, least⟩ := first
  refine ⟨List.cons_prefix_cons.mpr ⟨rfl, start⟩, (shift inside).mpr levels, ?_⟩
  intro shorter start levels
  cases shorter with
  | nil => exact absurd rfl levels.1
  | cons other shorter =>
    obtain ⟨rfl, start'⟩ := List.cons_prefix_cons.mp start
    exact List.cons_prefix_cons.mpr ⟨rfl, least shorter start' ((shift shorter).mp levels)⟩

theorem not_levels_cons (shift : ∀ tokens, Levels depth (token :: tokens) ↔ Levels deeper tokens)
    (never : ∀ inside, inside <+: tokens → ¬ Levels deeper inside) :
    ∀ inside, inside <+: token :: tokens → ¬ Levels depth inside := by
  intro inside start levels
  cases inside with
  | nil => exact levels.1 rfl
  | cons other inside =>
    obtain ⟨rfl, start'⟩ := List.cons_prefix_cons.mp start
    exact never inside start' ((shift inside).mp levels)

end

/-- The reader closes the block after the first tokens that level the braces, and not at all if
there are none. -/
def ClosesAfter (depth : Nat) (tokens : List Token) (found : Option (List Char)) : Prop :=
  (∃ inside after, LevelsFirst depth inside tokens ∧ tokens = inside ++ after ∧
    found = some (after.flatMap Token.text)) ∨
  (∀ inside, inside <+: tokens → ¬ Levels depth inside) ∧ found = none

theorem ClosesAfter.cons {depth deeper : Nat} {token : Token} {tokens : List Token}
    {found : Option (List Char)}
    (shift : ∀ tokens, Levels depth (token :: tokens) ↔ Levels deeper tokens)
    (closes : ClosesAfter deeper tokens found) : ClosesAfter depth (token :: tokens) found := by
  rcases closes with ⟨inside, after, first, rfl, result⟩ | ⟨never, result⟩
  · exact .inl ⟨token :: inside, after, first.cons shift, rfl, result⟩
  · exact .inr ⟨not_levels_cons shift never, result⟩

theorem Cut.closesAfter {text : List Char} {tokens : List Token} (cut : Cut text tokens)
    {depth : Nat} (positive : 0 < depth) :
    ClosesAfter depth tokens ((⟨.code, depth⟩ : Reader).close? text) := by
  induction cut generalizing depth with
  | nil => exact .inr ⟨fun inside start levels => levels.1 (List.prefix_nil.mp start), rfl⟩
  | @cons text rest token tokens leads cut ih =>
    rw [leads.close?]
    cases token with
    | opening => exact (ih (Nat.succ_pos depth)).cons (levels_opening depth)
    | closing =>
      dsimp only
      split_ifs with last
      · obtain rfl : depth = 1 := by omega
        refine .inl ⟨[.closing], tokens, ⟨⟨tokens, rfl⟩, by simp [Levels], ?_⟩, rfl, ?_⟩
        · intro shorter start levels
          cases shorter with
          | nil => exact absurd rfl levels.1
          | cons other shorter =>
            obtain ⟨rfl, -⟩ := List.cons_prefix_cons.mp start
            exact ⟨shorter, rfl⟩
        · rw [cut.flatMap_text]
      · have deep : 1 < depth := by omega
        exact (ih (Nat.sub_pos_of_lt deep)).cons (levels_closing deep)
    | lineComment | blockComment | string | escape | other =>
      exact (ih positive).cons (levels_cons positive (by simp) (by simp))

/-- The block at an opening brace is the shortest beginning of the cut with as many closing as
opening braces, or the whole text. -/
theorem following_of_cut {opened : List Char} {tokens : List Token}
    (cut : Cut ('\x7b' :: opened) tokens) (offset : Nat) :
    (∃ inside, LevelsFirst 0 inside tokens ∧
      following ⟨offset, '\x7b' :: opened⟩ = ⟨offset, inside.flatMap Token.text, true⟩) ∨
    (∀ inside, inside <+: tokens → ¬ Levels 0 inside) ∧
      following ⟨offset, '\x7b' :: opened⟩ = ⟨offset, '\x7b' :: opened, false⟩ := by
  cases cut with
  | @cons _ rest token tokens leads cut =>
    obtain ⟨rfl, rfl⟩ : token = .opening ∧ rest = opened := by
      cases leads <;> simp_all [Token.quotes]
    have closes := (cut.closesAfter Nat.one_pos).cons (levels_opening 0)
    rcases closes with ⟨inside, after, first, split, found⟩ | ⟨never, unclosed⟩
    · refine .inl ⟨inside, first, ?_⟩
      have found : (⟨.code, 0⟩ : Reader).close? ('\x7b' :: rest) =
          some (after.flatMap Token.text) := found
      obtain ⟨body, parts, closes⟩ := Reader.close?_eq_some_iff.mp found
      have whole := (Cut.cons leads cut).flatMap_text
      rw [split, List.flatMap_append] at whole
      obtain rfl := List.append_cancel_right (whole.trans parts)
      exact following_of_closes parts closes offset
    · have unclosed : (⟨.code, 0⟩ : Reader).close? ('\x7b' :: rest) = none := unclosed
      obtain ⟨next, ran⟩ := Reader.close?_eq_none_iff.mp unclosed
      exact .inr ⟨never, following_of_run ran offset⟩

/-- The block found from an offset is the block of the grammar. The offset is taken back to the
start of a character. Without a brace from there on the block is empty and not closed. Otherwise it
starts at the first brace; however the text from there is cut, the block consists of the shortest
beginning of the cut that has as many closing as opening braces, and without one it is not closed
and reaches to the end of the text. -/
theorem find_eq_grammar (text : List Char) (offset : Nat) :
    ∃ before after, text = before ++ after ∧ Text.Floor text offset before ∧
      (('\x7b' ∉ after ∧ find text offset = ⟨Text.byteSize before, [], false⟩) ∨
        ∃ skipped opened, after = skipped ++ '\x7b' :: opened ∧ '\x7b' ∉ skipped ∧
          (∃ tokens, Cut ('\x7b' :: opened) tokens) ∧
          ∀ tokens, Cut ('\x7b' :: opened) tokens →
            (∃ inside, LevelsFirst 0 inside tokens ∧
              find text offset =
                ⟨Text.byteSize (before ++ skipped), inside.flatMap Token.text, true⟩) ∨
            (∀ inside, inside <+: tokens → ¬ Levels 0 inside) ∧
              find text offset = ⟨Text.byteSize (before ++ skipped), '\x7b' :: opened, false⟩ ∧
                (find text offset).span.stop = Text.byteSize text) := by
  obtain ⟨before, after, rfl, floor, sought⟩ := Place.seek_start text offset
  refine ⟨before, after, rfl, floor, ?_⟩
  by_cases member : '\x7b' ∈ after
  · obtain ⟨skipped, opened, rfl, absent⟩ := List.eq_append_cons_of_mem member
    refine .inr ⟨skipped, opened, rfl, absent, Cut.exists_tokens _, fun tokens cut => ?_⟩
    have found : find (before ++ (skipped ++ '\x7b' :: opened)) offset =
        following ⟨Text.byteSize (before ++ skipped), '\x7b' :: opened⟩ := by
      rw [find, sought, following_append absent, Text.byteSize_append]
    rw [found]
    rcases following_of_cut cut (Text.byteSize (before ++ skipped)) with
      ⟨inside, first, block⟩ | ⟨never, block⟩
    · exact .inl ⟨inside, first, block⟩
    · refine .inr ⟨never, block, ?_⟩
      rw [block]
      simp [span, Nat.add_assoc]
  · refine .inl ⟨member, ?_⟩
    rw [find, sought, following_of_not_mem member]

/-- A slash, a star and a slash do not make a whole comment. -/
example : find "x\x7b/*/\x7d*/\x7dy".toList 0 = ⟨1, "\x7b/*/\x7d*/\x7d".toList, true⟩ := by decide

end Block

end ScriptDelta

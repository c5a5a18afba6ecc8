import Mathlib.Data.List.Basic
import ScriptDelta.Json

/-! # The tokens of JSON

A JSON text is a row of tokens with blanks between them, and the tokens are found by going through
its characters once (`lex`). Texts may hold any character but those below U+0020, a quotation mark
and a backslash, which have to be escaped; numbers are unsigned and have no zeros in front. A
document that is written in either layout has the tokens of the document, one after the other
(`lex_write`). Signs, fractions, nulls and escaped surrogates, which no report holds, are not read.
-/

namespace ScriptDelta.Json

/-- A piece of a JSON text. -/
inductive Token where
  | openArray
  | closeArray
  | openObject
  | closeObject
  | comma
  | colon
  | text (value : String)
  | number (value : Nat)
  | flag (value : Bool)
deriving DecidableEq

/-- What has been read of a token. -/
inductive Lexer where
  /-- Nothing. -/
  | between
  /-- The front of a text, the last character in front. -/
  | quoted (front : List Char)
  /-- The front of a text and a backslash. -/
  | escaped (front : List Char)
  /-- The front of a text, and the front of a code point with so many digits to come. -/
  | coded (front : List Char) (code digits : Nat)
  /-- The front of a number. -/
  | counted (value : Nat)
  /-- The front of a word that has the given characters to come. -/
  | spelled (value : Bool) (back : List Char)
deriving DecidableEq

namespace Lexer

/-- A character that may stand between tokens. -/
def isBlank (c : Char) : Bool :=
  c = ' ' || c = '\n' || c = '\r' || c = '\t'

/-- The token that is one character long. -/
def mark? : Char → Option Token
  | '[' => some .openArray
  | ']' => some .closeArray
  | '\x7b' => some .openObject
  | '\x7d' => some .closeObject
  | ',' => some .comma
  | ':' => some .colon
  | _ => none

/-- The value of a decimal digit. -/
def digit? (c : Char) : Option Nat :=
  if c.isDigit then some (c.toNat - '0'.toNat) else none

/-- The value of a hexadecimal digit. -/
def hexDigit? (c : Char) : Option Nat :=
  if c.isDigit then some (c.toNat - '0'.toNat)
  else if 'a' ≤ c ∧ c ≤ 'f' then some (c.toNat - 'a'.toNat + 10)
  else if 'A' ≤ c ∧ c ≤ 'F' then some (c.toNat - 'A'.toNat + 10)
  else none

/-- The character that is written as a backslash and the given one. -/
def unescape? : Char → Option Char
  | '"' => some '"'
  | '\\' => some '\\'
  | '/' => some '/'
  | 'b' => some '\x08'
  | 'f' => some '\x0c'
  | 'n' => some '\n'
  | 'r' => some '\r'
  | 't' => some '\t'
  | _ => none

/-- Reads a character where a token may begin. -/
def start? (c : Char) : Option (List Token × Lexer) :=
  if isBlank c then some ([], between)
  else if c = '"' then some ([], quoted [])
  else if c = 't' then some ([], spelled true ['r', 'u', 'e'])
  else if c = 'f' then some ([], spelled false ['a', 'l', 's', 'e'])
  else
    match digit? c, mark? c with
    | some value, _ => some ([], counted value)
    | none, some token => some ([token], between)
    | none, none => none

/-- Reads a character; the tokens that are complete then are given out. -/
def step? (c : Char) : Lexer → Option (List Token × Lexer)
  | between => start? c
  | quoted front =>
    if c = '"' then some ([.text (String.ofList front.reverse)], between)
    else if c = '\\' then some ([], escaped front)
    else if c.toNat < 0x20 then none
    else some ([], quoted (c :: front))
  | escaped front =>
    if c = 'u' then some ([], coded front 0 4)
    else (unescape? c).map fun char => ([], quoted (char :: front))
  | coded front code digits => do
    let code := 16 * code + (← hexDigit? c)
    if 1 < digits then return ([], coded front code (digits - 1))
    else if code.isValidChar then return ([], quoted (Char.ofNat code :: front))
    else none
  | counted value =>
    match digit? c with
    | some digit => if value = 0 then none else some ([], counted (10 * value + digit))
    | none => (start? c).map fun (tokens, lexer) => (.number value :: tokens, lexer)
  | spelled value back =>
    match back with
    | [] => none
    | first :: rest =>
      if c ≠ first then none
      else if rest.isEmpty then some ([.flag value], between)
      else some ([], spelled value rest)

/-- The tokens that are complete when the text ends. -/
def finish? : Lexer → Option (List Token)
  | between => some []
  | counted value => some [.number value]
  | _ => none

/-- The tokens of what is left of a text. -/
def lex (lexer : Lexer) : List Char → Option (List Token)
  | [] => lexer.finish?
  | c :: rest => do
    let (tokens, next) ← lexer.step? c
    return tokens ++ (← lex next rest)

end Lexer

mutual

/-- The tokens of a document. -/
def tokens : Json → List Token
  | .text value => [.text value]
  | .number value => [.number value]
  | .flag value => [.flag value]
  | .array [] => [.openArray, .closeArray]
  | .array (first :: rest) => .openArray :: tokens first ++ itemTokens rest ++ [.closeArray]
  | .object [] => [.openObject, .closeObject]
  | .object ((name, value) :: rest) =>
    .openObject :: .text name :: .colon :: tokens value ++ memberTokens rest ++ [.closeObject]

/-- The tokens of the items of an array after its first. -/
def itemTokens : List Json → List Token
  | [] => []
  | item :: rest => .comma :: tokens item ++ itemTokens rest

/-- The tokens of the members of an object after its first. -/
def memberTokens : List (String × Json) → List Token
  | [] => []
  | (name, value) :: rest => .comma :: .text name :: .colon :: tokens value ++ memberTokens rest

end

namespace Lexer

section characters

variable {c : Char} {rest : List Char}

theorem lex_cons (lexer : Lexer) (c : Char) (rest : List Char) :
    lex lexer (c :: rest) =
      (lexer.step? c).bind fun (tokens, next) => (lex next rest).map (tokens ++ ·) := by
  rw [lex]
  cases lexer.step? c with
  | none => rfl
  | some step => exact Option.map_eq_bind.symm

/-- A character after which no token is complete. -/
theorem lex_silent {lexer next : Lexer} (step : lexer.step? c = some ([], next)) :
    lex lexer (c :: rest) = lex next rest := by
  simp [lex_cons, step]

/-- A character after which a token is complete. -/
theorem lex_single {lexer next : Lexer} {token : Token}
    (step : lexer.step? c = some ([token], next)) :
    lex lexer (c :: rest) = (lex next rest).map (token :: ·) := by
  simp [lex_cons, step]

theorem lex_mark {token : Token} (isMark : start? c = some ([token], between)) :
    lex between (c :: rest) = (lex between rest).map (token :: ·) :=
  lex_single isMark

theorem lex_spaces (count : Nat) :
    lex between (List.replicate count ' ' ++ rest) = lex between rest := by
  induction count with
  | zero => rfl
  | succ count ih => rw [List.replicate_succ, List.cons_append, lex_silent rfl, ih]

theorem lex_lineBreak (layout : Layout) :
    lex between (layout.lineBreak ++ rest) = lex between rest := by
  cases layout with
  | compact => rfl
  | indented depth => rw [Layout.lineBreak, List.cons_append, lex_silent rfl, lex_spaces]

theorem lex_colon (layout : Layout) :
    lex between (layout.colon ++ rest) = (lex between rest).map (.colon :: ·) := by
  cases layout with
  | compact => exact lex_mark rfl
  | indented depth =>
    rw [Layout.colon, List.cons_append, lex_mark rfl, List.singleton_append, lex_silent rfl]

theorem lex_flag (value : Bool) :
    lex between ((if value then "true" else "false").toList ++ rest) =
      (lex between rest).map (.flag value :: ·) := by
  cases value with
  | true =>
    change lex between ('t' :: 'r' :: 'u' :: 'e' :: rest) = _
    rw [lex_silent rfl, lex_silent rfl, lex_silent rfl, lex_single rfl]
  | false =>
    change lex between ('f' :: 'a' :: 'l' :: 's' :: 'e' :: rest) = _
    rw [lex_silent rfl, lex_silent rfl, lex_silent rfl, lex_silent rfl, lex_single rfl]

end characters

section quoted

theorem hexDigit?_digitChar : ∀ digit < 16, hexDigit? (Nat.digitChar digit) = some digit := by
  decide

/-- The digits of the code of a character below U+0020. -/
theorem lex_coded (front : List Char) {c : Char} (control : c.toNat < 0x20) (rest : List Char) :
    lex (coded front 0 4)
        ('0' :: '0' :: Nat.digitChar (c.toNat / 16) :: Nat.digitChar (c.toNat % 16) :: rest) =
      lex (quoted (c :: front)) rest := by
  have high := hexDigit?_digitChar (c.toNat / 16) (by omega)
  have low := hexDigit?_digitChar (c.toNat % 16) (by omega)
  have whole : 16 * (c.toNat / 16) + c.toNat % 16 = c.toNat := Nat.div_add_mod _ _
  have valid : c.toNat.isValidChar := .inl (by omega)
  have third : step? (Nat.digitChar (c.toNat / 16)) (coded front 0 2) =
      some ([], coded front (c.toNat / 16) 1) := by simp [step?, high]
  have fourth : step? (Nat.digitChar (c.toNat % 16)) (coded front (c.toNat / 16) 1) =
      some ([], quoted (c :: front)) := by simp [step?, low, whole, valid]
  calc lex (coded front 0 4) _
      = lex (coded front 0 2) _ := (lex_silent rfl).trans (lex_silent rfl)
    _ = lex (coded front (c.toNat / 16) 1) _ := lex_silent third
    _ = lex (quoted (c :: front)) rest := lex_silent fourth

/-- A character is told from what is written for it. -/
theorem lex_escape (front : List Char) (c : Char) (rest : List Char) :
    lex (quoted front) (escape c ++ rest) = lex (quoted (c :: front)) rest := by
  unfold escape
  split
  case h_8 noQuote noBackslash _ _ _ _ _ =>
    split
    next control =>
      rw [List.cons_append, List.cons_append, lex_silent rfl, lex_silent rfl]
      exact lex_coded front control rest
    next plain =>
      have step : step? c (quoted front) = some ([], quoted (c :: front)) := by
        rw [step?, if_neg noQuote, if_neg noBackslash, if_neg plain]
      rw [List.singleton_append, lex_silent step]
  all_goals rw [List.cons_append, lex_silent rfl, List.singleton_append, lex_silent rfl]

theorem lex_flatMap_escape (front chars rest : List Char) :
    lex (quoted front) (chars.flatMap escape ++ rest) =
      lex (quoted (chars.reverse ++ front)) rest := by
  induction chars generalizing front with
  | nil => rfl
  | cons c chars ih =>
    rw [List.flatMap_cons, List.append_assoc, lex_escape, ih, List.reverse_cons, List.append_assoc,
      List.singleton_append]

theorem lex_quote (text : String) (rest : List Char) :
    lex between (quote text ++ rest) = (lex between rest).map (.text text :: ·) := by
  rw [quote, List.cons_append, List.cons_append, List.append_assoc, lex_silent rfl,
    lex_flatMap_escape, List.singleton_append, lex_single rfl]
  simp

end quoted

section number

theorem digit?_digitChar : ∀ digit < 10, digit? (Nat.digitChar digit) = some digit := by
  decide

theorem start?_digitChar : ∀ digit < 10,
    start? (Nat.digitChar digit) = some ([], counted digit) := by
  decide

/-- The digits of a number are read up to the end of the number. -/
theorem lex_toDigits (value : Nat) (rest : List Char) :
    lex between (Nat.toDigits 10 value ++ rest) = lex (counted value) rest := by
  induction value using Nat.strongRecOn generalizing rest with
  | ind value ih =>
    by_cases small : value < 10
    · rw [Nat.toDigits_of_lt_base small]
      exact lex_silent (start?_digitChar value small)
    · have large : 10 ≤ value := Nat.le_of_not_lt small
      have digit := digit?_digitChar (value % 10) (Nat.mod_lt _ (by decide))
      have proper : value / 10 ≠ 0 := by omega
      have whole : 10 * (value / 10) + value % 10 = value := Nat.div_add_mod _ _
      rw [Nat.toDigits_of_base_le (by decide) large, List.append_assoc,
        ih (value / 10) (by omega), List.singleton_append, lex_silent]
      simp [step?, digit, proper, whole]

/-- A number ends where a text does not begin with a digit. -/
def Apart (rest : List Char) : Prop :=
  ∀ c ∈ rest.head?, c.isDigit = false

theorem apart_cons {c : Char} (other : c.isDigit = false) (rest : List Char) :
    Apart (c :: rest) := by
  intro first isFirst
  obtain rfl := Option.mem_some.mp isFirst
  exact other

theorem lex_counted {rest : List Char} (apart : Apart rest) (value : Nat) :
    lex (counted value) rest = (lex between rest).map (.number value :: ·) := by
  cases rest with
  | nil => rfl
  | cons c rest =>
    have noDigit : digit? c = none := by simp [digit?, apart c rfl]
    have ended : step? c (counted value) =
        (start? c).map fun (tokens, lexer) => (.number value :: tokens, lexer) := by
      simp only [step?, noDigit]
    have anew : step? c between = start? c := rfl
    rw [lex_cons, lex_cons, ended, anew]
    cases start? c with
    | none => rfl
    | some step => simp [Function.comp_def]

end number

section write

variable {rest : List Char}

theorem apart_lineBreak (layout : Layout) (apart : Apart rest) :
    Apart (layout.lineBreak ++ rest) := by
  cases layout with
  | compact => exact apart
  | indented depth => exact apart_cons rfl _

theorem apart_writeItems (layout : Layout) (items : List Json) (apart : Apart rest) :
    Apart (writeItems layout items ++ rest) := by
  cases items with
  | nil => simpa [writeItems] using apart
  | cons item items =>
    rw [writeItems]
    exact apart_cons rfl _

theorem apart_writeMembers (layout : Layout) (members : List (String × Json)) (apart : Apart rest) :
    Apart (writeMembers layout members ++ rest) := by
  cases members with
  | nil => simpa [writeMembers] using apart
  | cons member members =>
    rw [writeMembers]
    exact apart_cons rfl _

mutual

/-- What is written for a document has the tokens of the document. -/
theorem lex_write (layout : Layout) (json : Json) (rest : List Char) (apart : Apart rest) :
    lex between (write layout json ++ rest) = (lex between rest).map (tokens json ++ ·) := by
  match json with
  | .text value =>
    rw [write, tokens]
    exact lex_quote value rest
  | .number value =>
    rw [write, lex_toDigits, lex_counted apart, tokens]
    rfl
  | .flag value =>
    rw [write, tokens]
    exact lex_flag value
  | .array [] =>
    simp only [write, tokens, List.cons_append, List.nil_append]
    rw [lex_mark rfl, lex_mark rfl, Option.map_map]
    rfl
  | .array (first :: items) =>
    have closing : Apart (']' :: rest) := apart_cons rfl rest
    have behind := apart_writeItems layout.deeper items (apart_lineBreak layout closing)
    simp only [write, tokens, List.cons_append, List.append_assoc, List.nil_append]
    rw [lex_mark rfl, lex_lineBreak, lex_write layout.deeper first _ behind,
      lex_writeItems layout.deeper items _ (apart_lineBreak layout closing), lex_lineBreak,
      lex_mark rfl]
    simp [Function.comp_def]
  | .object [] =>
    simp only [write, tokens, List.cons_append, List.nil_append]
    rw [lex_mark rfl, lex_mark rfl, Option.map_map]
    rfl
  | .object ((name, value) :: members) =>
    have closing : Apart ('\x7d' :: rest) := apart_cons rfl rest
    have behind := apart_writeMembers layout.deeper members (apart_lineBreak layout closing)
    simp only [write, tokens, List.cons_append, List.append_assoc, List.nil_append]
    rw [lex_mark rfl, lex_lineBreak, lex_quote, lex_colon, lex_write layout.deeper value _ behind,
      lex_writeMembers layout.deeper members _ (apart_lineBreak layout closing), lex_lineBreak,
      lex_mark rfl]
    simp [Function.comp_def]

theorem lex_writeItems (layout : Layout) (items : List Json) (rest : List Char)
    (apart : Apart rest) :
    lex between (writeItems layout items ++ rest) =
      (lex between rest).map (itemTokens items ++ ·) := by
  match items with
  | [] => simp [writeItems, itemTokens]
  | item :: items =>
    have behind := apart_writeItems layout items apart
    simp only [writeItems, itemTokens, List.cons_append, List.append_assoc]
    rw [lex_mark rfl, lex_lineBreak, lex_write layout item _ behind,
      lex_writeItems layout items _ apart]
    simp [Function.comp_def]

theorem lex_writeMembers (layout : Layout) (members : List (String × Json)) (rest : List Char)
    (apart : Apart rest) :
    lex between (writeMembers layout members ++ rest) =
      (lex between rest).map (memberTokens members ++ ·) := by
  match members with
  | [] => simp [writeMembers, memberTokens]
  | (name, value) :: members =>
    have behind := apart_writeMembers layout members apart
    simp only [writeMembers, memberTokens, List.cons_append, List.append_assoc]
    rw [lex_mark rfl, lex_lineBreak, lex_quote, lex_colon, lex_write layout value _ behind,
      lex_writeMembers layout members _ apart]
    simp [Function.comp_def]

end

end write

end Lexer

end ScriptDelta.Json

/-! # Glob patterns

A question mark stands for any character and a star for any text, slashes included. Two stars that
fill the place between two slashes stand for any number of folders, and brackets for one character
of a class. There is no escape character. Positions in a pattern count characters from zero.
-/

namespace ScriptDelta

namespace Glob

/-- What a piece of a pattern stands for. -/
inductive Token where
  /-- The character itself. -/
  | literal (c : Char)
  /-- Any character. -/
  | anyChar
  /-- Any text. -/
  | anyText
  /-- Nothing, any text that ends with a slash, or all that is left. -/
  | anyFolders
  /-- A character in one of the ranges. -/
  | oneOf (ranges : List (Char × Char))
  /-- A character in none of the ranges. -/
  | noneOf (ranges : List (Char × Char))
deriving DecidableEq

/-- Why a text is no pattern, and where. -/
inductive Fault where
  /-- Three or more stars in a row. -/
  | tooManyStars (position : Nat)
  /-- Two stars beside a character other than a slash. -/
  | starsInName (position : Nat)
  /-- A bracket that opens no class. -/
  | openBracket (position : Nat)
deriving DecidableEq

namespace Fault

/-- The position that the fault is reported at. -/
def position : Fault → Nat
  | .tooManyStars position | .starsInName position | .openBracket position => position

/-- What is wrong at that position. -/
def description : Fault → String
  | .tooManyStars _ => "wildcards are either regular `*` or recursive `**`"
  | .starsInName _ => "recursive wildcards must form a single path component"
  | .openBracket _ => "invalid range pattern"

/-- The fault as shown to a user. -/
def message (fault : Fault) : String :=
  "Pattern syntax error near position " ++ toString fault.position ++ ": " ++ fault.description

end Fault

/-- The ranges of a class: two characters with a hyphen between them, or single characters. -/
def ranges : List Char → List (Char × Char)
  | low :: '-' :: high :: rest => (low, high) :: ranges rest
  | c :: rest => (c, c) :: ranges rest
  | [] => []

/-- The class that the text after an opening bracket begins with, and the number of characters up
to and including its closing bracket. The first character of a class is taken as it is. -/
def class? (text : List Char) : Option (Token × Nat) :=
  match text with
  | '!' :: first :: rest => (rest.findIdx? (· == ']')).map fun length =>
      (.noneOf (ranges (first :: rest.take length)), length + 3)
  | '!' :: _ => none
  | first :: rest => (rest.findIdx? (· == ']')).map fun length =>
      (.oneOf (ranges (first :: rest.take length)), length + 2)
  | [] => none

/-- The token at a position, given the character before it and the text from there on, and the
number of characters that it takes up beyond the first. -/
def token? (position : Nat) (before : Option Char) (c : Char) (rest : List Char) :
    Except Fault (Token × Nat) :=
  match c with
  | '?' => .ok (.anyChar, 0)
  | '[' =>
    match class? rest with
    | some found => .ok found
    | none => .error (.openBracket position)
  | '*' =>
    match rest with
    | '*' :: '*' :: _ => .error (.tooManyStars (position + 2))
    | '*' :: rest =>
      if before.any (· != '/') then .error (.starsInName (position - 1))
      else
        match rest with
        | [] => .ok (.anyFolders, 1)
        | '/' :: _ => .ok (.anyFolders, 2)
        | _ => .error (.starsInName (position + 2))
    | _ => .ok (.anyText, 0)
  | c => .ok (.literal c, 0)

/-- The tokens of a pattern from a position on, after those done already, the last one in front.
Folders after folders add nothing and are left out, except right at the beginning. -/
def tokenize (position : Nat) (before : Option Char) (done : List Token) (text : List Char) :
    Except Fault (List Token) :=
  match text with
  | [] => .ok done.reverse
  | c :: rest => do
    let (token, more) ← token? position before c rest
    let repeated :=
      token == .anyFolders && done.head? == some .anyFolders && 1 < done.length
    tokenize (position + more + 1) ((c :: rest)[more]?)
      (if repeated then done else token :: done) (rest.drop more)
termination_by text.length
decreasing_by
  simp only [List.length_drop, List.length_cons]
  omega

/-- The ends of a text, from the whole of it to nothing. -/
def suffixes : List Char → List (List Char)
  | [] => [[]]
  | c :: rest => (c :: rest) :: suffixes rest

/-- The ends of a text that begin just after a slash. -/
def afterSlashes : List Char → List (List Char)
  | [] => []
  | c :: rest => if c = '/' then rest :: afterSlashes rest else afterSlashes rest

/-- The rest of a text after its first character, if that satisfies `accept`. -/
def afterChar (accept : Char → Bool) : List Char → List (List Char)
  | [] => []
  | c :: rest => if accept c then [rest] else []

/-- The character is in one of the ranges. -/
def inRanges (ranges : List (Char × Char)) (c : Char) : Bool :=
  ranges.any fun (low, high) => low ≤ c && c ≤ high

/-- What may be left of a text after the part that a token stands for. -/
def Token.rests (token : Token) (text : List Char) : List (List Char) :=
  match token with
  | .literal c => afterChar (· == c) text
  | .anyChar => afterChar (fun _ => true) text
  | .anyText => suffixes text
  | .anyFolders => text :: afterSlashes text ++ [[]]
  | .oneOf ranges => afterChar (inRanges ranges) text
  | .noneOf ranges => afterChar (fun c => !inRanges ranges c) text

/-- The tokens stand, one after the other, for the whole of a text. -/
def stand : List Token → List Char → Bool
  | [], text => text.isEmpty
  | token :: tokens, text => (token.rests text).any (stand tokens)

/-- Marks the ends of a text whose first character satisfies `accept` and whose rest is marked. -/
def markBefore (accept : Char → Bool) (text : List Char) (marks : List Bool) : List Bool :=
  List.zipWith (fun c mark => accept c && mark) text marks.tail ++ [false]

/-- Marks whatever has a mark at or after it. -/
def markAllBefore : List Bool → List Bool
  | [] => []
  | mark :: marks =>
    let later := markAllBefore marks
    (mark || later.headD false) :: later

/-- Marks the ends of a text that begin with a part for which the token stands and go on with a
marked end. There is a mark for every end, the one of the whole text in front. -/
def Token.markStarts (token : Token) (text : List Char) (marks : List Bool) : List Bool :=
  match token with
  | .literal c => markBefore (· == c) text marks
  | .anyChar => markBefore (fun _ => true) text marks
  | .anyText => markAllBefore marks
  | .anyFolders =>
    let folders := markAllBefore (markBefore (· == '/') text marks)
    List.zipWith (fun here inside => here || (inside || marks.getLastD false)) marks folders
  | .oneOf ranges => markBefore (inRanges ranges) text marks
  | .noneOf ranges => markBefore (fun c => !inRanges ranges c) text marks

theorem markBefore_map_suffixes (accept : Char → Bool) (text : List Char)
    (good : List Char → Bool) :
    markBefore accept text ((suffixes text).map good) =
      (suffixes text).map fun rest => (afterChar accept rest).any good := by
  induction text with
  | nil => rfl
  | cons c text ih =>
    have first : ((suffixes text).map good) = good text :: ((suffixes text).map good).tail := by
      cases text <;> rfl
    have step : markBefore accept (c :: text) ((suffixes (c :: text)).map good) =
        (accept c && good text) :: markBefore accept text ((suffixes text).map good) := by
      rw [markBefore, suffixes, List.map_cons, List.tail_cons, first]
      rfl
    rw [step, ih, suffixes, List.map_cons]
    cases accepted : accept c <;> simp [afterChar, accepted]

theorem markAllBefore_map_suffixes (text : List Char) (good : List Char → Bool) :
    markAllBefore ((suffixes text).map good) =
      (suffixes text).map fun rest => (suffixes rest).any good := by
  induction text with
  | nil => simp [suffixes, markAllBefore]
  | cons c text ih =>
    have first : ((suffixes text).map fun rest => (suffixes rest).any good).headD false =
        (suffixes text).any good := by
      cases text <;> rfl
    rw [suffixes, List.map_cons, List.map_cons, markAllBefore, ih]
    simp only [first, suffixes, List.any_cons]

theorem any_afterSlashes (text : List Char) (good : List Char → Bool) :
    (afterSlashes text).any good =
      (suffixes text).any fun rest => (afterChar (· == '/') rest).any good := by
  induction text with
  | nil => rfl
  | cons c text ih =>
    by_cases slash : c = '/' <;> simp [afterSlashes, suffixes, afterChar, slash, ih]

theorem getLastD_map_suffixes (text : List Char) (good : List Char → Bool) :
    ((suffixes text).map good).getLastD false = good [] := by
  induction text with
  | nil => rfl
  | cons c text ih =>
    cases text with
    | nil => rfl
    | cons d text => simpa [suffixes] using ih

theorem Token.markStarts_map_suffixes (token : Token) (text : List Char)
    (good : List Char → Bool) :
    token.markStarts text ((suffixes text).map good) =
      (suffixes text).map fun rest => (token.rests rest).any good := by
  cases token with
  | anyText => exact markAllBefore_map_suffixes text good
  | anyFolders =>
    simp only [markStarts, rests, markBefore_map_suffixes, markAllBefore_map_suffixes,
      getLastD_map_suffixes]
    simp [List.zipWith_map, List.zipWith_self, any_afterSlashes]
  | _ => exact markBefore_map_suffixes ..

end Glob

/-- A pattern and its tokens. -/
structure Glob where
  text : String
  tokens : List Glob.Token
deriving DecidableEq

namespace Glob

/-- The pattern that a text describes. -/
def parse (text : String) : Except Fault Glob := do
  return ⟨text, ← tokenize 0 none [] text.toList⟩

/-- The pattern stands for the whole of the text. The ends of the text for which the last tokens
stand are marked, for one token more each time. -/
def accepts (glob : Glob) (text : String) : Bool :=
  let ends := (suffixes text.toList).map List.isEmpty
  (glob.tokens.foldr (fun token marks => token.markStarts text.toList marks) ends).headD false

theorem accepts_eq_stand (glob : Glob) (text : String) :
    glob.accepts text = stand glob.tokens text.toList := by
  have marked (tokens : List Token) :
      tokens.foldr (fun token marks => token.markStarts text.toList marks)
        ((suffixes text.toList).map List.isEmpty) =
          (suffixes text.toList).map (stand tokens) := by
    induction tokens with
    | nil => rfl
    | cons token tokens ih =>
      rw [List.foldr_cons, ih, token.markStarts_map_suffixes]
      rfl
  rw [accepts, marked]
  cases text.toList <;> rfl

end Glob

end ScriptDelta

/-! # Lines

A line ends with a line feed, with a carriage return and a line feed, or with a carriage return
alone, and the line end belongs to it. Only the last line of a text may lack one. Put one after the
other, the lines are the text.
-/

namespace ScriptDelta.Text

/-- The lines of a character followed by the given lines. -/
def consLine (c : Char) (later : List (List Char)) : List (List Char) :=
  match c, later with
  | '\n', later => ['\n'] :: later
  | '\r', ['\n'] :: more => ['\r', '\n'] :: more
  | '\r', later => ['\r'] :: later
  | c, [] => [[c]]
  | c, line :: more => (c :: line) :: more

/-- The lines of a text. -/
def lines (text : List Char) : List (List Char) :=
  text.foldr consLine []

theorem flatten_consLine (c : Char) (later : List (List Char)) :
    (consLine c later).flatten = c :: later.flatten := by
  unfold consLine
  split <;> simp_all

/-- No character is lost or added between the lines. -/
theorem flatten_lines (text : List Char) : (lines text).flatten = text := by
  induction text with
  | nil => rfl
  | cons c rest ih => rw [lines, List.foldr_cons, flatten_consLine, ← lines, ih]

/-- The line has a line end. -/
def isEnded (line : List Char) : Bool :=
  line.getLast?.any fun c => c == '\n' || c == '\r'

/-- The line with a line end: its own, or else a line feed. -/
def ended (line : List Char) : List Char :=
  if isEnded line then line else line ++ ['\n']

end ScriptDelta.Text

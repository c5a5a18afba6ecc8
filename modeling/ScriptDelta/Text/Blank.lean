/-! # Blanks and words

A blank is a character with the Unicode property White_Space. A text is read as its words, the
maximal runs of other characters, and `collapse` keeps the words and forgets the layout around
them: the result is the words joined by single spaces.
-/

namespace ScriptDelta.Text

/-- The Unicode property White_Space. -/
def isBlank (c : Char) : Bool :=
  let n := c.toNat
  (0x09 ≤ n && n ≤ 0x0D) || n == 0x20 || n == 0x85 || n == 0xA0 || n == 0x1680 ||
    (0x2000 ≤ n && n ≤ 0x200A) || n == 0x2028 || n == 0x2029 || n == 0x202F || n == 0x205F ||
    n == 0x3000

/-- The maximal runs of non-blank characters, in order. -/
def words (text : List Char) : List (List Char) :=
  (text.splitOnP isBlank).filter fun run => !run.isEmpty

/-- The words joined by single spaces. -/
def collapse (text : List Char) : List Char :=
  [' '].intercalate (words text)

/-- The text from its first non-blank character on. -/
def trimStart (text : List Char) : List Char :=
  text.dropWhile isBlank

/-- The text up to its last non-blank character. -/
def trimEnd (text : List Char) : List Char :=
  (text.reverse.dropWhile isBlank).reverse

/-- The text without the blanks around it. -/
def trim (text : List Char) : List Char :=
  trimEnd (trimStart text)

end ScriptDelta.Text

/-! # JSON documents

A document is a value of the JSON data model with the kinds of value that reports hold. It is
written either without blanks or with one member or item a line, each level indented by two spaces.
A quoted text escapes the quotation mark, the backslash and the characters below U+0020.
-/

namespace ScriptDelta

/-- A JSON value; the members of an object are in the order in which they are written. -/
inductive Json where
  | text (value : String)
  | number (value : Nat)
  | flag (value : Bool)
  | array (items : List Json)
  | object (members : List (String × Json))

namespace Json

/-- A character inside quotation marks. -/
def escape (c : Char) : List Char :=
  match c with
  | '"' => ['\\', '"']
  | '\\' => ['\\', '\\']
  | '\n' => ['\\', 'n']
  | '\r' => ['\\', 'r']
  | '\t' => ['\\', 't']
  | '\x08' => ['\\', 'b']
  | '\x0c' => ['\\', 'f']
  | c =>
    if c.toNat < 0x20 then
      ['\\', 'u', '0', '0', Nat.digitChar (c.toNat / 16), Nat.digitChar (c.toNat % 16)]
    else [c]

/-- A text between quotation marks. -/
def quote (text : String) : List Char :=
  '"' :: text.toList.flatMap escape ++ ['"']

/-- How a document is laid out. -/
inductive Layout where
  /-- Without blanks. -/
  | compact
  /-- One member or item a line, at the given depth. -/
  | indented (depth : Nat)

namespace Layout

/-- The layout of what is inside an array or an object. -/
def deeper : Layout → Layout
  | compact => compact
  | indented depth => indented (depth + 1)

/-- What stands before a member or an item, and before a closing bracket. -/
def lineBreak : Layout → List Char
  | compact => []
  | indented depth => '\n' :: List.replicate (2 * depth) ' '

/-- What stands between the name of a member and its value. -/
def colon : Layout → List Char
  | compact => [':']
  | indented _ => [':', ' ']

end Layout

mutual

/-- A value as text. -/
def write (layout : Layout) : Json → List Char
  | .text value => quote value
  | .number value => Nat.toDigits 10 value
  | .flag value => (if value then "true" else "false").toList
  | .array [] => ['[', ']']
  | .array (first :: rest) =>
    '[' :: layout.deeper.lineBreak ++ write layout.deeper first ++ writeItems layout.deeper rest ++
      layout.lineBreak ++ [']']
  | .object [] => ['\x7b', '\x7d']
  | .object ((name, value) :: rest) =>
    '\x7b' :: layout.deeper.lineBreak ++ quote name ++ layout.colon ++ write layout.deeper value ++
      writeMembers layout.deeper rest ++ layout.lineBreak ++ ['\x7d']

/-- The items of an array after its first. -/
def writeItems (layout : Layout) : List Json → List Char
  | [] => []
  | item :: rest => ',' :: layout.lineBreak ++ write layout item ++ writeItems layout rest

/-- The members of an object after its first. -/
def writeMembers (layout : Layout) : List (String × Json) → List Char
  | [] => []
  | (name, value) :: rest =>
    ',' :: layout.lineBreak ++ quote name ++ layout.colon ++ write layout value ++
      writeMembers layout rest

end

/-- A document without blanks. -/
def compact (json : Json) : String :=
  String.ofList (write .compact json)

/-- A document with one member or item a line. -/
def pretty (json : Json) : String :=
  String.ofList (write (.indented 0) json)

end Json

end ScriptDelta

import ScriptDelta.Text.Shapeless

/-! # Quoted text

A text is quoted so that it can be read off a terminal: quotation marks and backslashes stand after
a backslash, the usual control characters have a letter each, and a character without a shape of its
own is written as its code point.
-/

namespace ScriptDelta.Text

/-- A character between quotation marks. -/
def quotedChar (c : Char) : List Char :=
  match c with
  | '"' => ['\\', '"']
  | '\\' => ['\\', '\\']
  | '\t' => ['\\', 't']
  | '\n' => ['\\', 'n']
  | '\r' => ['\\', 'r']
  | '\x00' => ['\\', '0']
  | c =>
    if isShapeless c then ['\\', 'u', '\x7b'] ++ Nat.toDigits 16 c.toNat ++ ['\x7d'] else [c]

/-- A text between quotation marks. -/
def quoted (text : String) : String :=
  String.ofList ('"' :: text.toList.flatMap quotedChar ++ ['"'])

end ScriptDelta.Text

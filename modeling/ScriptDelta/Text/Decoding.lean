import ScriptDelta.Text.Utf16
import ScriptDelta.Text.Utf8
import ScriptDelta.Text.Windows1252

/-! # Decoding of files

The encoding of a file is not declared. It is read as UTF-8 with a replacement character for each
malformed item, unless more than half of the characters beyond ASCII come out as replacement
characters; then the encoding is the one that a byte order mark at the front names, and
Windows-1252 without such a mark.
-/

namespace ScriptDelta.Text

/-- Bytes as UTF-8, malformed items shown as replacement characters. -/
def utf8Text (bytes : List UInt8) : List Char :=
  (Utf8.items bytes).map Item.shown

/-- The bytes after a UTF-8 byte order mark, if they begin with one. -/
def afterUtf8Mark? (bytes : List UInt8) : Option (List UInt8) :=
  [0xEF, 0xBB, 0xBF].isPrefixOf? bytes

/-- Bytes in the encoding that their byte order mark names, or else in Windows-1252. -/
def decodeMarked (bytes : List UInt8) : List Char :=
  match afterUtf8Mark? bytes with
  | some rest => utf8Text rest
  | none =>
    match [0xFF, 0xFE].isPrefixOf? bytes with
    | some rest => Utf16.decode .littleEndian rest
    | none =>
      match [0xFE, 0xFF].isPrefixOf? bytes with
      | some rest => Utf16.decode .bigEndian rest
      | none => Windows1252.decode bytes

/-- More than half of the characters beyond ASCII are replacement characters. -/
def mostlyReplaced (text : List Char) : Bool :=
  text.countP (fun c => 0x80 ≤ c.toNat) < 2 * text.count '\ufffd'

/-- The text of a file. -/
def decode (bytes : List UInt8) : List Char :=
  let items := Utf8.items ((afterUtf8Mark? bytes).getD bytes)
  let text := items.map Item.shown
  if items.contains .malformed && mostlyReplaced text then decodeMarked bytes else text

end ScriptDelta.Text

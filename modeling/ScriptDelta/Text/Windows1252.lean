/-! # Windows-1252

Every byte is a character. From 80 to 9F they are the punctuation and letters listed below, where a
byte without an assigned character stands for the control character of its own number; all other
bytes stand for the code points of their numbers.
-/

namespace ScriptDelta.Text.Windows1252

/-- The code points of the bytes from 80 to 9F. -/
def upper : List Nat :=
  [0x20AC, 0x0081, 0x201A, 0x0192, 0x201E, 0x2026, 0x2020, 0x2021, 0x02C6, 0x2030, 0x0160, 0x2039,
   0x0152, 0x008D, 0x017D, 0x008F, 0x0090, 0x2018, 0x2019, 0x201C, 0x201D, 0x2022, 0x2013, 0x2014,
   0x02DC, 0x2122, 0x0161, 0x203A, 0x0153, 0x009D, 0x017E, 0x0178]

/-- The character of a byte. -/
def char (byte : UInt8) : Char :=
  let n := byte.toNat
  Char.ofNat (if 0x80 ≤ n then upper.getD (n - 0x80) n else n)

/-- The text that a sequence of bytes stands for. -/
def decode (bytes : List UInt8) : List Char :=
  bytes.map char

-- The bytes 80 and 9F have characters of their own, 81 has none, and FF is beyond the list.
example : decode [0x80, 0x81, 0x9F, 0xFF] = ['\u20ac', '\u0081', '\u0178', '\u00ff'] := by decide

end ScriptDelta.Text.Windows1252

import ScriptDelta.Text.Blank

/-! # Content digests

The digest of a text is the SHA-256 hash of its UTF-8 bytes, written as lower-case hexadecimal.
A message is padded to whole blocks of sixteen 32-bit words, and each block is mixed into eight
chained words by sixty-four rounds. The content digest hashes the words of a text only, so a
change of layout leaves it as it is.
-/

namespace ScriptDelta.Text

namespace Digest

/-- The eight words that one block hands on to the next. -/
structure Chain where
  a : UInt32
  b : UInt32
  c : UInt32
  d : UInt32
  e : UInt32
  f : UInt32
  g : UInt32
  h : UInt32

/-- The chain before the first block. -/
def Chain.initial : Chain :=
  ⟨0x6a09e667, 0xbb67ae85, 0x3c6ef372, 0xa54ff53a, 0x510e527f, 0x9b05688c, 0x1f83d9ab, 0x5be0cd19⟩

/-- Wordwise addition modulo 2^32. -/
def Chain.add (x y : Chain) : Chain :=
  ⟨x.a + y.a, x.b + y.b, x.c + y.c, x.d + y.d, x.e + y.e, x.f + y.f, x.g + y.g, x.h + y.h⟩

/-- One constant per round. -/
def roundConstants : List UInt32 :=
  [0x428a2f98, 0x71374491, 0xb5c0fbcf, 0xe9b5dba5, 0x3956c25b, 0x59f111f1, 0x923f82a4, 0xab1c5ed5,
   0xd807aa98, 0x12835b01, 0x243185be, 0x550c7dc3, 0x72be5d74, 0x80deb1fe, 0x9bdc06a7, 0xc19bf174,
   0xe49b69c1, 0xefbe4786, 0x0fc19dc6, 0x240ca1cc, 0x2de92c6f, 0x4a7484aa, 0x5cb0a9dc, 0x76f988da,
   0x983e5152, 0xa831c66d, 0xb00327c8, 0xbf597fc7, 0xc6e00bf3, 0xd5a79147, 0x06ca6351, 0x14292967,
   0x27b70a85, 0x2e1b2138, 0x4d2c6dfc, 0x53380d13, 0x650a7354, 0x766a0abb, 0x81c2c92e, 0x92722c85,
   0xa2bfe8a1, 0xa81a664b, 0xc24b8b70, 0xc76c51a3, 0xd192e819, 0xd6990624, 0xf40e3585, 0x106aa070,
   0x19a4c116, 0x1e376c08, 0x2748774c, 0x34b0bcb5, 0x391c0cb3, 0x4ed8aa4a, 0x5b9cca4f, 0x682e6ff3,
   0x748f82ee, 0x78a5636f, 0x84c87814, 0x8cc70208, 0x90befffa, 0xa4506ceb, 0xbef9a3f7, 0xc67178f2]

/-- Rotation to the right, for amounts from 1 to 31. -/
def rotate (x : UInt32) (amount : UInt32) : UInt32 :=
  (x >>> amount) ||| (x <<< (32 - amount))

/-- One round mixes a constant and a message word into the chain. -/
def Chain.round (x : Chain) (constant word : UInt32) : Chain :=
  let choice := (x.e &&& x.f) ^^^ (~~~x.e &&& x.g)
  let majority := (x.a &&& x.b) ^^^ (x.a &&& x.c) ^^^ (x.b &&& x.c)
  let low := x.h + (rotate x.e 6 ^^^ rotate x.e 11 ^^^ rotate x.e 25) + choice + constant + word
  let high := (rotate x.a 2 ^^^ rotate x.a 13 ^^^ rotate x.a 22) + majority
  ⟨low + high, x.a, x.b, x.c, x.d + low, x.e, x.f, x.g⟩

/-- The message word that comes sixteen rounds after the first word of the window. -/
def extend (window : List UInt32) : UInt32 :=
  let early := window.getD 1 0
  let late := window.getD 14 0
  window.getD 0 0 + (rotate early 7 ^^^ rotate early 18 ^^^ (early >>> 3)) + window.getD 9 0 +
    (rotate late 17 ^^^ rotate late 19 ^^^ (late >>> 10))

/-- Mixes a block of sixteen words into the chain. The window holds the words of the next sixteen
rounds. -/
def Chain.compress (chain : Chain) (block : List UInt32) : Chain :=
  let (mixed, _) := roundConstants.foldl (fun (mixed, window) constant =>
    (mixed.round constant (window.headD 0), window.drop 1 ++ [extend window])) (chain, block)
  chain.add mixed

/-- A message in whole blocks: a single one bit, zeros, and the length in bits as eight bytes. -/
def pad (message : Array UInt8) : Array UInt8 :=
  let zeros := (119 - message.size % 64) % 64
  let bits := (8 * message.size).toUInt64
  let length := [56, 48, 40, 32, 24, 16, 8, 0].map fun shift : UInt64 => (bits >>> shift).toUInt8
  message.push 0x80 ++ Array.replicate zeros 0 ++ length.toArray

/-- The big-endian word at a byte position. -/
def wordAt (bytes : Array UInt8) (position : Nat) : UInt32 :=
  (List.range 4).foldl (fun word i => (word <<< 8) ||| (bytes.getD (position + i) 0).toUInt32) 0

/-- The blocks of a padded message. -/
def blocks (bytes : Array UInt8) : List (List UInt32) :=
  (List.range (bytes.size / 64)).map fun block =>
    (List.range 16).map fun word => wordAt bytes (64 * block + 4 * word)

/-- The chain after every block of a message. -/
def chain (message : Array UInt8) : Chain :=
  (blocks (pad message)).foldl Chain.compress .initial

/-- Eight hexadecimal digits. -/
def hex (word : UInt32) : List Char :=
  [28, 24, 20, 16, 12, 8, 4, 0].map fun shift : UInt32 =>
    Nat.digitChar ((word >>> shift) &&& 0xF).toNat

end Digest

/-- The SHA-256 hash of the text's UTF-8 bytes, as 64 lower-case hexadecimal digits. -/
def digest (text : String) : String :=
  let c := Digest.chain text.toUTF8.data
  String.ofList ([c.a, c.b, c.c, c.d, c.e, c.f, c.g, c.h].flatMap Digest.hex)

/-- The text with every run of blanks made a single space and none at either end. -/
def normalize (text : String) : String :=
  String.ofList (collapse text.toList)

/-- The digest of the normalized text. -/
def contentDigest (text : String) : String :=
  digest (normalize text)

end ScriptDelta.Text

import ComponentCompiler.Digest.Block

/-!
# The SHA-256 digest

The manifest of a batch records the SHA-256 digest of each document.

## Main definitions

* `sha256` — the 32 bytes of the digest
* `sha256Text` — the digest in hexadecimal digits

## Main results

* `length_sha256Text` — the text of a digest has 64 characters
-/

namespace ComponentCompiler.Digest

/-- The words at the start: the fractional parts of the square roots of the first eight primes. -/
def sha256Initial : List UInt32 :=
  [0x6A09E667, 0xBB67AE85, 0x3C6EF372, 0xA54FF53A, 0x510E527F, 0x9B05688C, 0x1F83D9AB, 0x5BE0CD19]

/-- The words added in each of the 64 steps: the fractional parts of the cube roots of the first 64
primes. -/
def sha256Constants : List UInt32 :=
  [0x428A2F98, 0x71374491, 0xB5C0FBCF, 0xE9B5DBA5, 0x3956C25B, 0x59F111F1, 0x923F82A4, 0xAB1C5ED5,
   0xD807AA98, 0x12835B01, 0x243185BE, 0x550C7DC3, 0x72BE5D74, 0x80DEB1FE, 0x9BDC06A7, 0xC19BF174,
   0xE49B69C1, 0xEFBE4786, 0x0FC19DC6, 0x240CA1CC, 0x2DE92C6F, 0x4A7484AA, 0x5CB0A9DC, 0x76F988DA,
   0x983E5152, 0xA831C66D, 0xB00327C8, 0xBF597FC7, 0xC6E00BF3, 0xD5A79147, 0x06CA6351, 0x14292967,
   0x27B70A85, 0x2E1B2138, 0x4D2C6DFC, 0x53380D13, 0x650A7354, 0x766A0ABB, 0x81C2C92E, 0x92722C85,
   0xA2BFE8A1, 0xA81A664B, 0xC24B8B70, 0xC76C51A3, 0xD192E819, 0xD6990624, 0xF40E3585, 0x106AA070,
   0x19A4C116, 0x1E376C08, 0x2748774C, 0x34B0BCB5, 0x391C0CB3, 0x4ED8AA4A, 0x5B9CCA4F, 0x682E6FF3,
   0x748F82EE, 0x78A5636F, 0x84C87814, 0x8CC70208, 0x90BEFFFA, 0xA4506CEB, 0xBEF9A3F7, 0xC67178F2]

/-- A word rotated to the right. -/
def rotateRight (word amount : UInt32) : UInt32 :=
  (word >>> amount) ||| (word <<< (32 - amount))

/-- Extends the sixteen words of a block by one word at the end. -/
def sha256Extend (words : Array UInt32) (_step : Nat) : Array UInt32 :=
  let word := fun back => words.getD (words.size - back) 0
  let early := word 15
  let late := word 2
  let s0 := rotateRight early 7 ^^^ rotateRight early 18 ^^^ (early >>> 3)
  let s1 := rotateRight late 17 ^^^ rotateRight late 19 ^^^ (late >>> 10)
  words.push (word 16 + s0 + word 7 + s1)

/-- The eight words that the digest is computed in. -/
structure Sha256State where
  a : UInt32
  b : UInt32
  c : UInt32
  d : UInt32
  e : UInt32
  f : UInt32
  g : UInt32
  h : UInt32

/-- The state with the given words. -/
def Sha256State.ofWords : List UInt32 → Sha256State
  | [a, b, c, d, e, f, g, h] => ⟨a, b, c, d, e, f, g, h⟩
  | _ => ⟨0, 0, 0, 0, 0, 0, 0, 0⟩

/-- The words of a state. -/
def Sha256State.words (s : Sha256State) : List UInt32 :=
  [s.a, s.b, s.c, s.d, s.e, s.f, s.g, s.h]

/-- One step with a word of the block and its constant. -/
def sha256Step (s : Sha256State) (input : UInt32 × UInt32) : Sha256State :=
  let s1 := rotateRight s.e 6 ^^^ rotateRight s.e 11 ^^^ rotateRight s.e 25
  let choice := (s.e &&& s.f) ^^^ (~~~s.e &&& s.g)
  let first := s.h + s1 + choice + input.2 + input.1
  let s0 := rotateRight s.a 2 ^^^ rotateRight s.a 13 ^^^ rotateRight s.a 22
  let majority := (s.a &&& s.b) ^^^ (s.a &&& s.c) ^^^ (s.b &&& s.c)
  ⟨first + (s0 + majority), s.a, s.b, s.c, s.d + first, s.e, s.f, s.g⟩

/-- The state after a block of bytes. -/
def sha256Block (s : Sha256State) (block : List UInt8) : Sha256State :=
  let start := ((blocksOf 4 block).map fun bytes => UInt32.ofNat (ofBigEndian bytes)).toArray
  let schedule := ((List.range 48).foldl sha256Extend start).toList
  let t := (schedule.zip sha256Constants).foldl sha256Step s
  ⟨s.a + t.a, s.b + t.b, s.c + t.c, s.d + t.d, s.e + t.e, s.f + t.f, s.g + t.g, s.h + t.h⟩

/-- The SHA-256 digest of a message. -/
def sha256 (message : List UInt8) : List UInt8 :=
  let closed := message ++ closing (bigEndian 8) message.length
  let s := (blocksOf 64 closed).foldl sha256Block (Sha256State.ofWords sha256Initial)
  s.words.flatMap fun word => bigEndian 4 word.toNat

theorem length_sha256 (message : List UInt8) : (sha256 message).length = 32 := by
  simp [sha256, Sha256State.words, bigEndian, length_littleEndian]

/-- The SHA-256 digest of a message in hexadecimal digits. -/
def sha256Text (message : List UInt8) : String :=
  String.ofList (hexText (sha256 message))

theorem length_sha256Text (message : List UInt8) : (sha256Text message).toList.length = 64 := by
  simp [sha256Text, length_hexText, length_sha256]

end ComponentCompiler.Digest

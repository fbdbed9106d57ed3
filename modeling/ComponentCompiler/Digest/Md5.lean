import ComponentCompiler.Digest.Block

/-!
# The MD5 digest

Names that must be stable and short are taken from the MD5 digest of what they stand for.

## Main definitions

* `md5` — the sixteen bytes of the digest
* `shortHash` — the first eight hexadecimal digits of the digest of a string

## Main results

* `length_shortHash` — a short hash has eight characters
-/

namespace ComponentCompiler.Digest

/-- The four words that the digest is computed in. -/
structure Md5State where
  a : UInt32
  b : UInt32
  c : UInt32
  d : UInt32

/-- The words at the start. -/
def Md5State.initial : Md5State :=
  ⟨0x67452301, 0xEFCDAB89, 0x98BADCFE, 0x10325476⟩

/-- The word added in each of the 64 steps: the sine of the step, scaled to 32 bits. -/
def md5Constants : Array UInt32 := #[
   0xD76AA478, 0xE8C7B756, 0x242070DB, 0xC1BDCEEE, 0xF57C0FAF, 0x4787C62A, 0xA8304613, 0xFD469501,
   0x698098D8, 0x8B44F7AF, 0xFFFF5BB1, 0x895CD7BE, 0x6B901122, 0xFD987193, 0xA679438E, 0x49B40821,
   0xF61E2562, 0xC040B340, 0x265E5A51, 0xE9B6C7AA, 0xD62F105D, 0x02441453, 0xD8A1E681, 0xE7D3FBC8,
   0x21E1CDE6, 0xC33707D6, 0xF4D50D87, 0x455A14ED, 0xA9E3E905, 0xFCEFA3F8, 0x676F02D9, 0x8D2A4C8A,
   0xFFFA3942, 0x8771F681, 0x6D9D6122, 0xFDE5380C, 0xA4BEEA44, 0x4BDECFA9, 0xF6BB4B60, 0xBEBFBC70,
   0x289B7EC6, 0xEAA127FA, 0xD4EF3085, 0x04881D05, 0xD9D4D039, 0xE6DB99E5, 0x1FA27CF8, 0xC4AC5665,
   0xF4292244, 0x432AFF97, 0xAB9423A7, 0xFC93A039, 0x655B59C3, 0x8F0CCC92, 0xFFEFF47D, 0x85845DD1,
   0x6FA87E4F, 0xFE2CE6E0, 0xA3014314, 0x4E0811A1, 0xF7537E82, 0xBD3AF235, 0x2AD7D2BB, 0xEB86D391]

/-- The rotations of the steps of each round; each row is used four times over. -/
def md5Rotation (step : Nat) : UInt32 :=
  match step / 16, step % 4 with
  | 0, 0 => 7 | 0, 1 => 12 | 0, 2 => 17 | 0, _ => 22
  | 1, 0 => 5 | 1, 1 => 9 | 1, 2 => 14 | 1, _ => 20
  | 2, 0 => 4 | 2, 1 => 11 | 2, 2 => 16 | 2, _ => 23
  | _, 0 => 6 | _, 1 => 10 | _, 2 => 15 | _, _ => 21

/-- The mixing function of the round of a step, with the index of the word that the step reads. -/
def md5Mix (step : Nat) (s : Md5State) : UInt32 × Nat :=
  match step / 16 with
  | 0 => ((s.b &&& s.c) ||| (~~~s.b &&& s.d), step)
  | 1 => ((s.d &&& s.b) ||| (~~~s.d &&& s.c), (5 * step + 1) % 16)
  | 2 => (s.b ^^^ s.c ^^^ s.d, (3 * step + 5) % 16)
  | _ => (s.c ^^^ (s.b ||| ~~~s.d), 7 * step % 16)

/-- A word rotated to the left. -/
def rotateLeft (word amount : UInt32) : UInt32 :=
  (word <<< amount) ||| (word >>> (32 - amount))

/-- One step on a block of words. -/
def md5Step (words : Array UInt32) (s : Md5State) (step : Nat) : Md5State :=
  let mixed := md5Mix step s
  let sum := s.a + mixed.1 + md5Constants.getD step 0 + words.getD mixed.2 0
  ⟨s.d, s.b + rotateLeft sum (md5Rotation step), s.b, s.c⟩

/-- The state after a block of bytes. -/
def md5Block (s : Md5State) (block : List UInt8) : Md5State :=
  let words := ((blocksOf 4 block).map fun bytes => UInt32.ofNat (ofLittleEndian bytes)).toArray
  let t := (List.range 64).foldl (md5Step words) s
  ⟨s.a + t.a, s.b + t.b, s.c + t.c, s.d + t.d⟩

/-- The MD5 digest of a message. -/
def md5 (message : List UInt8) : List UInt8 :=
  let closed := message ++ closing (littleEndian 8) message.length
  let s := (blocksOf 64 closed).foldl md5Block Md5State.initial
  [s.a, s.b, s.c, s.d].flatMap fun word => littleEndian 4 word.toNat

theorem length_md5 (message : List UInt8) : (md5 message).length = 16 := by
  simp [md5, length_littleEndian]

/-- A short stable name for a text: the first eight hexadecimal digits of its digest. -/
def shortHash (text : String) : String :=
  String.ofList ((hexText (md5 (bytesOf text))).take 8)

theorem length_shortHash (text : String) : (shortHash text).toList.length = 8 := by
  simp [shortHash, length_hexText, length_md5]

end ComponentCompiler.Digest

import ComponentCompiler.Text.Hexadecimal

/-!
# Blocks of a message

A digest reads a message in blocks of sixteen words of 32 bits. The message is closed with a one
bit, zeros up to the last eight bytes of a block, and its length in bits.

## Main definitions

* `closing` — the bytes that close a message of a given length
* `blocksOf` — a list in pieces of equal length
* `bytesOf` — the UTF-8 bytes of a string
* `hexText` — bytes in hexadecimal digits

## Main results

* `length_closed` — a closed message falls into whole blocks
-/

namespace ComponentCompiler.Digest

/-- The count of zero bytes between the one bit and the length. -/
def gap (length : Nat) : Nat :=
  (119 - length % 64) % 64

/-- The bytes that close a message of the given length, where `lengthBytes` writes a number in
eight bytes. -/
def closing (lengthBytes : Nat → List UInt8) (length : Nat) : List UInt8 :=
  0x80 :: (List.replicate (gap length) 0 ++ lengthBytes (8 * length))

theorem length_closed (lengthBytes : Nat → List UInt8)
    (eight : ∀ n, (lengthBytes n).length = 8) (length : Nat) :
    (length + (closing lengthBytes length).length) % 64 = 0 := by
  simp only [closing, gap, List.length_cons, List.length_append, List.length_replicate, eight]
  omega

/-- The last bytes of a number, the least significant first. -/
def littleEndian : Nat → Nat → List UInt8
  | 0, _ => []
  | count + 1, n => UInt8.ofNat (n % 256) :: littleEndian count (n / 256)

theorem length_littleEndian (count n : Nat) : (littleEndian count n).length = count := by
  induction count generalizing n with
  | zero => rfl
  | succ count ih => simp [littleEndian, ih]

/-- The last bytes of a number, the most significant first. -/
def bigEndian (count n : Nat) : List UInt8 :=
  (littleEndian count n).reverse

/-- The number with the given bytes, the least significant first. -/
def ofLittleEndian (bytes : List UInt8) : Nat :=
  bytes.foldr (fun byte rest => byte.toNat + 256 * rest) 0

/-- The number with the given bytes, the most significant first. -/
def ofBigEndian (bytes : List UInt8) : Nat :=
  bytes.foldl (fun front byte => 256 * front + byte.toNat) 0

/-- The first pieces of a list, each of the given length, as many as asked for. -/
def piecesOf {α : Type} (size : Nat) : Nat → List α → List (List α)
  | 0, _ => []
  | count + 1, items => items.take size :: piecesOf size count (items.drop size)

/-- A list in pieces of the given length. -/
def blocksOf {α : Type} (size : Nat) (items : List α) : List (List α) :=
  piecesOf size (items.length / size) items

/-- The UTF-8 bytes of a string. -/
def bytesOf (text : String) : List UInt8 :=
  text.toUTF8.toList

/-- Bytes in hexadecimal digits, two for each byte. -/
def hexText (bytes : List UInt8) : List Char :=
  bytes.flatMap fun byte => Text.hexDigits 2 byte.toNat

theorem length_hexText (bytes : List UInt8) : (hexText bytes).length = 2 * bytes.length := by
  induction bytes with
  | nil => rfl
  | cons byte rest ih =>
    have split : hexText (byte :: rest) = Text.hexDigits 2 byte.toNat ++ hexText rest := rfl
    rw [split, List.length_append, ih, Text.length_hexDigits]
    simp only [List.length_cons]
    omega

end ComponentCompiler.Digest

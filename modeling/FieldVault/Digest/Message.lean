/-
What the digests share: a message is closed and cut into chunks of sixteen words.

A message is closed by the byte 0x80, as many zeros as bring it eight bytes short of a whole chunk
of sixty-four, and its length in bits as a 64-bit number. The digests differ in the order of the
bytes of a word, which is why both the words and the length take it as a parameter.
-/
import FieldVault.Bytes

set_option autoImplicit false

namespace FieldVault.Digest

/-- Which end of a number comes first. -/
inductive ByteOrder where
  | highFirst
  | lowFirst

/-- The number that the bytes of a word write. -/
def ByteOrder.read : ByteOrder → Word → UInt32
  | .highFirst => Word.bigEndian
  | .lowFirst => Word.littleEndian

/-- The word that writes a number. -/
def ByteOrder.write : ByteOrder → UInt32 → Word
  | .highFirst => Word.ofBigEndian
  | .lowFirst => Word.ofLittleEndian

/-- The bits of a 32-bit number moved `n` places up, those that fall out coming in below. -/
def rotateLeft (x : UInt32) (n : Nat) : UInt32 :=
  (x <<< UInt32.ofNat n) ||| (x >>> UInt32.ofNat (32 - n))

/-- The length of a message in bits, as eight bytes. -/
def lengthBytes (order : ByteOrder) (length : Nat) : Bytes :=
  let bits := 8 * length
  let low := order.write (UInt32.ofNat bits)
  let high := order.write (UInt32.ofNat (bits >>> 32))
  match order with
  | .highFirst => high.toList ++ low.toList
  | .lowFirst => low.toList ++ high.toList

/-- The message filled up to whole chunks of sixty-four bytes. -/
def close (order : ByteOrder) (message : Bytes) : Bytes :=
  let zeros := (119 - message.length % 64) % 64
  message ++ 0x80 :: List.replicate zeros 0 ++ lengthBytes order message.length

/-- Puts words together sixteen at a time. -/
def chunksOf (order : ByteOrder) : List Block → List (List UInt32)
  | b0 :: b1 :: b2 :: b3 :: rest =>
    let words (b : Block) : List UInt32 := [b.w0, b.w1, b.w2, b.w3].map order.read
    (words b0 ++ words b1 ++ words b2 ++ words b3) :: chunksOf order rest
  | _ => []

/-- The chunks of a closed message. -/
def chunks (order : ByteOrder) (message : Bytes) : List (List UInt32) :=
  chunksOf order (Block.group (close order message))

end FieldVault.Digest

/-
Byte strings under a block cipher: padding, and cipher block chaining.

A byte string is filled up to whole blocks by one to sixteen bytes that each tell how many there
are, so the filling can always be taken off again and no two byte strings become the same blocks.
In the chain each plain block is added to the cipher block before it, the first one to the
initialisation vector.
-/
import FieldVault.Bytes

set_option autoImplicit false

namespace FieldVault

/-! ## Padding -/

namespace Padding

/-- The number of bytes to add: at least one, at most a block. -/
def count (bs : Bytes) : Nat := Block.size - bs.length % Block.size

/-- The byte string filled up to whole blocks. -/
def pad (bs : Bytes) : Bytes := bs ++ List.replicate (count bs) (UInt8.ofNat (count bs))

/-- Takes the filling off; refused unless the last byte is a count and that many bytes repeat it. -/
def unpad? (bs : Bytes) : Option Bytes := do
  let last ← bs.getLast?
  let n := last.toNat
  let rest := bs.length - n
  if 1 ≤ n ∧ n ≤ Block.size ∧ n ≤ bs.length ∧ (bs.drop rest).all (· == last) then
    some (bs.take rest)
  else none

end Padding

/-! ## Chaining -/

namespace Cbc

/-- Encrypts a chain of blocks whose predecessor is `previous`. -/
def chain (encrypt : Block → Block) (previous : Block) : List Block → List Block
  | [] => []
  | p :: ps =>
    let c := encrypt (p.xor previous)
    c :: chain encrypt c ps

/-- Decrypts a chain of blocks whose predecessor is `previous`. -/
def unchain (decrypt : Block → Block) (previous : Block) : List Block → List Block
  | [] => []
  | c :: cs => (decrypt c).xor previous :: unchain decrypt c cs

/-- Pads and encrypts a byte string. -/
def encrypt (cipher : Block → Block) (iv : Block) (plain : Bytes) : Bytes :=
  Block.bytes (chain cipher iv (Block.group (Padding.pad plain)))

/-- Decrypts whole blocks and takes the padding off. -/
def decrypt? (cipher : Block → Block) (iv : Block) (bytes : Bytes) : Option Bytes :=
  Padding.unpad? (Block.bytes (unchain cipher iv (Block.group bytes)))

end Cbc

end FieldVault

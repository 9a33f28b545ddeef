/-
AES on one block.

A round substitutes the bytes, shifts the rows, mixes the columns and adds a round key; the last
round leaves the mixing out, and one more round key is added before the first. Decryption undoes
the same steps in the opposite order. Both are recursions over the list of round keys, so that they
invert each other whatever the keys are and however many there are.
-/
import FieldVault.Aes.KeySchedule

set_option autoImplicit false

namespace FieldVault.Aes

/-- The rounds that a list of round keys stands for. -/
def rounds : List Block → Block → Block
  | [], b => b
  | [key], b => (shiftRows (b.map substitute)).xor key
  | key :: keys, b => rounds keys ((mix (shiftRows (b.map substitute))).xor key)

/-- The same rounds undone, the last one first. -/
def unrounds : List Block → Block → Block
  | [], b => b
  | [key], b => (unshiftRows (b.xor key)).map restore
  | key :: keys, b => (unshiftRows (unmix ((unrounds keys b).xor key))).map restore

/-- Encrypts a block under a list of round keys. -/
def encryptWith : List Block → Block → Block
  | [], b => b
  | first :: keys, b => rounds keys (b.xor first)

/-- Decrypts a block under a list of round keys. -/
def decryptWith : List Block → Block → Block
  | [], b => b
  | first :: keys, b => (unrounds keys b).xor first

/-- Encrypts a block under a key of 16, 24 or 32 bytes. -/
def encrypt (key : Bytes) : Block → Block := encryptWith (roundKeys key)

/-- Decrypts a block under a key of 16, 24 or 32 bytes. -/
def decrypt (key : Bytes) : Block → Block := decryptWith (roundKeys key)

end FieldVault.Aes

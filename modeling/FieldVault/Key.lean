/-
Encryption keys, and what a key does to a text.

A key is a byte string of one of the three lengths that AES takes; the length is part of the type,
so no operation on a key can fail for its length. A secret is used as it stands, its UTF-8 bytes
being the key. Sealing a text gives a token; unsealing a token gives back the text or tells whether
the padding or the text itself was broken.
-/
import FieldVault.Aes
import FieldVault.Bytes.Hex
import FieldVault.Cbc
import FieldVault.Digest.Md5
import FieldVault.Error
import FieldVault.Token

set_option autoImplicit false

namespace FieldVault

/-- Sixteen, twenty-four or thirty-two bytes. -/
structure Key where
  bytes : Bytes
  sized : bytes.length = 16 ∨ bytes.length = 24 ∨ bytes.length = 32
deriving DecidableEq

namespace Key

/-! ## Where keys come from -/

/-- A byte string as a key, if it has a length that AES takes. -/
def ofBytes (bs : Bytes) : Except KeyError Key :=
  if sized : bs.length = 16 ∨ bs.length = 24 ∨ bs.length = 32 then .ok ⟨bs, sized⟩
  else .error (.invalidLength bs.length)

/-- The bytes of a secret as a key. -/
def ofSecret (secret : String) : Except KeyError Key := ofBytes (Utf8.encode secret)

/-- The secret derived from a seed: the hexadecimal MD5 of its bytes. -/
def secretOfSeed (seed : String) : String := Hex.encode (Digest.md5 (Utf8.encode seed))

/-- The number of bits of a key, which names the cipher. -/
def bits (k : Key) : Nat := 8 * k.bytes.length

/-! ## Generated secrets -/

/-- The letters and digits a generated secret is made of. -/
def secretAlphabet : List Char :=
  "ABCDEFGHIJKLMNOPQRSTUVWXYZabcdefghijklmnopqrstuvwxyz0123456789".toList

/-- The length of a generated secret: its bytes make a key of the longest kind. -/
def secretLength : Nat := 32

/-- The secret that a sequence of choices from the alphabet spells. -/
def generateSecret (choice : Nat → Nat) : String :=
  String.ofList <| (List.range secretLength).map fun i =>
    secretAlphabet.getD (choice i % secretAlphabet.length) 'A'

/-! ## Sealing -/

/-- The token of a text under an initialisation vector. -/
def sealText (k : Key) (iv : Block) (text : String) : Token :=
  ⟨iv, Cbc.encrypt (Aes.encrypt k.bytes) iv (Utf8.encode text)⟩

/-- Why a token holds no text under a key. -/
inductive UnsealFault where
  | badPadding
  | notUtf8 (fault : Utf8.Fault)
deriving DecidableEq

/-- The wording of a fault. -/
def UnsealFault.message : UnsealFault → String
  | .badPadding => "bad padding: wrong key or corrupted ciphertext"
  | .notUtf8 fault => "plaintext is not UTF-8: " ++ fault.message

/-- The text of a token. -/
def unsealText (k : Key) (t : Token) : Except UnsealFault String :=
  match Cbc.decrypt? (Aes.decrypt k.bytes) t.iv t.ciphertext with
  | none => .error .badPadding
  | some bs =>
    match Utf8.decode bs with
    | .error fault => .error (.notUtf8 fault)
    | .ok text => .ok text

end Key

end FieldVault

/-
The text form of an encrypted value.

A token is three dollar signs and the base64 of an initialisation vector followed by the
ciphertext. The form is canonical: a text that can be read at all is the only text of its token.
Reading refuses, in this order, a missing mark, bytes that are not base64, less than a vector and
one block, and a ciphertext that is not a whole number of blocks.
-/
import FieldVault.Text.Base64
import FieldVault.Text.Utf8

set_option autoImplicit false

namespace FieldVault

/-- An initialisation vector and a ciphertext. -/
structure Token where
  iv : Block
  ciphertext : Bytes
deriving DecidableEq

namespace Token

/-- What every token starts with. -/
def mark : List Char := ['$', '$', '$']

/-- The value is marked as a token, whether or not it can be read as one. -/
def isMarked (value : String) : Bool := mark.isPrefixOf value.toList

/-- The least number of bytes in a token: a vector and one block. -/
def minSize : Nat := 2 * Block.size

/-- The bytes of a token, vector first. -/
def bytes (t : Token) : Bytes := t.iv.toList ++ t.ciphertext

/-- The text of a token. -/
def text (t : Token) : String :=
  String.ofList (mark ++ (Base64.encode t.bytes).map fun b => Char.ofNat b.toNat)

/-- Why a text is not a token. -/
inductive Fault where
  | unmarked
  | base64 (fault : Base64.Fault)
  | tooShort (size : Nat)
  | unaligned (size : Nat)
deriving DecidableEq

/-- The wording of a fault. -/
def Fault.message : Fault → String
  | .unmarked => "missing ciphertext prefix"
  | .base64 fault => "invalid base64: " ++ fault.message
  | .tooShort size => s!"token too short: {size} bytes (min: {minSize})"
  | .unaligned size => s!"ciphertext is not block aligned: {size} bytes"

/-- The token of a byte string: a vector and at least one whole block. -/
def ofBytes (bs : Bytes) : Except Fault Token :=
  match Block.group bs with
  | iv :: _ :: _ =>
    let ciphertext := bs.drop Block.size
    if ciphertext.length % Block.size = 0 then .ok ⟨iv, ciphertext⟩
    else .error (.unaligned ciphertext.length)
  | _ => .error (.tooShort bs.length)

/-- Reads a token. -/
def parse (value : String) : Except Fault Token :=
  if isMarked value then
    match Base64.decode (Utf8.encodeChars (value.toList.drop mark.length)) with
    | .error fault => .error (.base64 fault)
    | .ok bs => ofBytes bs
  else .error .unmarked

end Token

end FieldVault

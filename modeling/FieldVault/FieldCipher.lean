/-
Encryption and decryption of single values, with the state they need.

A cipher holds its key provider, its supply of initialisation vectors and its journal. A value that
carries the token mark is never encrypted again, and a value without it is never decrypted; in
either case no key is asked for. A marked value is read as a token before the key is resolved.

Two policies are offered for failures. `encrypt` and `decrypt` report them. `encryptOpen` and
`decryptOpen` never fail: they pass the value on as it was and leave a notice.
-/
import FieldVault.Key.Provider
import FieldVault.LookupHash
import FieldVault.Notice
import FieldVault.Supply

set_option autoImplicit false

namespace FieldVault

/-- Runs an action and answers how it ended, keeping whatever it did to the state. -/
def outcome {ε σ α : Type} (action : EStateM ε σ α) : EStateM ε σ (Except ε α) := fun s =>
  match action s with
  | .ok a s' => .ok (.ok a) s'
  | .error e s' => .ok (.error e) s'

/-- A key provider, a supply of initialisation vectors, and a journal. -/
structure FieldCipher where
  keys : KeyProvider
  ivs : Supply Block
  journal : List Notice := []

namespace FieldCipher

/-- An action on a cipher that may fail. -/
abbrev Action := EStateM Error FieldCipher

/-- Leaves a notice. -/
def note (notice : Notice) (c : FieldCipher) : FieldCipher :=
  { c with journal := c.journal ++ [notice] }

/-! ## The key -/

/-- Asks for the key and tells the failure by itself. -/
def resolve (c : FieldCipher) : Except KeyError Key × FieldCipher :=
  let (resolution, keys) := c.keys.get
  let c := { c with keys }
  (resolution.outcome, if resolution.derived then c.note .keyDerived else c)

/-- Asks for the key. -/
def key : Action Key := fun c =>
  match c.resolve with
  | (.ok k, c') => .ok k c'
  | (.error e, c') => .error (.key e) c'

/-- Draws an initialisation vector. -/
def drawIv : Action Block := fun c =>
  let (iv, ivs) := c.ivs.next
  .ok iv { c with ivs }

/-! ## Values -/

/-- The token of a text; a value that is marked already stays as it is. -/
def encrypt (value : String) : Action String :=
  if Token.isMarked value then pure value
  else do
    let k ← key
    let iv ← drawIv
    return (k.sealText iv value).text

/-- The text of a token; a value that is not marked stays as it is. -/
def decrypt (value : String) : Action String :=
  if Token.isMarked value then
    match Token.parse value with
    | .error fault => throw (.malformedToken fault.message)
    | .ok token => do
      let k ← key
      match k.unsealText token with
      | .error fault => throw (.decryptionFailed fault.message)
      | .ok text => return text
  else pure value

/-- The result of an action on a value, or the value itself and a notice. -/
def orElseUntouched (operation : ValueOperation) (action : String → Action String) (value : String)
    (c : FieldCipher) : String × FieldCipher :=
  match action value c with
  | .ok result c' => (result, c')
  | .error e c' => (value, c'.note (.leftUntouched operation e))

/-- Encrypts a value, or passes it on as it is. -/
def encryptOpen : String → FieldCipher → String × FieldCipher := orElseUntouched .encrypt encrypt

/-- Decrypts a value, or passes it on as it is. -/
def decryptOpen : String → FieldCipher → String × FieldCipher := orElseUntouched .decrypt decrypt

/-! ## Verification -/

/-- A ciphertext decrypts to a text that the stored hash belongs to; any failure counts as no. -/
def verify (stored : Option String) (ciphertext : String) (c : FieldCipher) : Bool × FieldCipher :=
  match decrypt ciphertext c with
  | .ok text c' => (LookupHash.isOf stored text, c')
  | .error _ c' => (false, c')

/-- Decrypts a ciphertext and hands the text out only if the stored hash belongs to it. Short of a
missing key, every failure is a failed verification of the field. -/
def decryptVerified (field : FieldRef) (stored : Option String) (ciphertext : String) :
    Action String := do
  match ← outcome (decrypt ciphertext) with
  | .ok text => if LookupHash.isOf stored text then return text else throw (.integrity field)
  | .error (.key e) => throw (.key e)
  | .error _ => throw (.integrity field)

end FieldCipher

end FieldVault

/-
Lookup hashes: what stands in a record in place of an encrypted value.

The hash of a value is the hexadecimal SHA-1 of its normal form, so that values which differ only
in letter case, or in spaces and control characters at their ends, are found under one hash. A
stored hash is compared without regard to letter case. A value is recognised as a hash by its shape
alone; a plain value of forty hexadecimal digits cannot be told from one.
-/
import FieldVault.Bytes.Hex
import FieldVault.Text.Blank
import FieldVault.Text.Lowercase
import FieldVault.Text.Utf8
import FieldVault.Digest.Sha1

set_option autoImplicit false

namespace FieldVault.LookupHash

/-- The number of digits of a hash. -/
def digitCount : Nat := 40

/-- The normal form of a list of characters. -/
def normalizeChars (cs : List Char) : List Char :=
  Text.lower (Text.trimBoth Text.isSpaceOrControl cs)

/-- The form in which values are compared: trimmed and in lower case. -/
def normalize (value : String) : String := String.ofList (normalizeChars value.toList)

/-- The lookup hash of a value. -/
def of (value : String) : String := Hex.encode (Digest.sha1 (Utf8.encode (normalize value)))

/-- The value has the shape of a lookup hash. -/
def isShaped (value : String) : Bool :=
  value.toList.length = digitCount && value.toList.all Hex.isDigit

/-- A stored value is the lookup hash of a text, letter case aside. -/
def isOf (stored : Option String) (text : String) : Bool :=
  match stored with
  | some hash => hash.toList.map Char.toLower = (of text).toList.map Char.toLower
  | none => false

end FieldVault.LookupHash

/-
Ids of shadow records.

An id is sixteen bytes, written as thirty-two lower-case hexadecimal digits in five groups with
hyphens between them. Reading also takes upper case, the digits without hyphens, the hyphenated
form in braces, and the hyphenated form as a URN.
-/
import FieldVault.Bytes.Hex

set_option autoImplicit false

namespace FieldVault

/-- Sixteen bytes that name a shadow record. -/
structure RecordId where
  block : Block
deriving DecidableEq

namespace RecordId

/-- The numbers of digits in the groups. -/
def groupSizes : List Nat := [8, 4, 4, 4, 12]

/-- Characters in groups of the given sizes, with hyphens between the groups. -/
def hyphenate : List Nat → List Char → List Char
  | [], _ => []
  | [n], cs => cs.take n
  | n :: ns, cs => cs.take n ++ '-' :: hyphenate ns (cs.drop n)

/-- Takes the hyphens out again; refused unless the groups have the given sizes. -/
def unhyphenate? : List Nat → List Char → Option (List Char)
  | [], cs => if cs = [] then some [] else none
  | [n], cs => if cs.length = n then some cs else none
  | n :: ns, cs =>
    match cs.drop n with
    | '-' :: rest => (unhyphenate? ns rest).map (cs.take n ++ ·)
    | _ => none

/-- The text of an id. -/
def text (id : RecordId) : String :=
  String.ofList (hyphenate groupSizes (Hex.digits id.block.toList))

/-- The id that thirty-two digits write. -/
def ofDigits? (cs : List Char) : Option RecordId := do
  let bs ← Hex.bytes? cs
  let block ← Block.ofList? bs
  return ⟨block⟩

/-- Reads the form with hyphens. -/
def ofHyphenated? (cs : List Char) : Option RecordId := unhyphenate? groupSizes cs >>= ofDigits?

/-- Reads the form in braces. -/
def ofBraced? : List Char → Option RecordId
  | '{' :: cs => if cs.getLast? = some '}' then ofHyphenated? cs.dropLast else none
  | _ => none

/-- What the URN form starts with, in lower case. -/
def urnStart : List Char := "urn:uuid:".toList

/-- Reads the URN form. -/
def ofUrn? (cs : List Char) : Option RecordId :=
  if (cs.take urnStart.length).map Char.toLower = urnStart then
    ofHyphenated? (cs.drop urnStart.length)
  else none

/-- Reads an id in any of its forms. -/
def parse? (s : String) : Option RecordId :=
  let cs := s.toList
  ofHyphenated? cs <|> ofDigits? cs <|> ofBraced? cs <|> ofUrn? cs

/-- The id numbered `n`, with the marks of a random one. -/
def numbered (n : Nat) : RecordId := ⟨Block.ofNat (0x40008000000000000000 + n)⟩

end RecordId

end FieldVault

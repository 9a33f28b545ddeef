/-
Reading: fields and owners with their plain values.

A field with a shadow record that is not stale is served only if the record verifies. Any other
field is served as it stands, tokens in it decrypted. What happens to such a token when it cannot
be decrypted depends on the vault: a strict one fails, any other serves the token. Reading a whole
owner goes over its record twice and changes it in place; it withholds the fields that fail and goes
on.
-/
import FieldVault.Migration

set_option autoImplicit false

namespace FieldVault

/-- An owner as it is served, and the fields that were withheld. -/
structure Reading where
  owner : Owner
  unreadable : List FieldName
deriving DecidableEq

/-- Puts what is served for a field into the record; a field that is withheld is emptied and
listed. -/
def Reading.put (reading : Reading) (field : FieldName) : Option (Option String) → Reading
  | some value => { reading with owner := reading.owner.write field value }
  | none => ⟨reading.owner.write field none, reading.unreadable ++ [field]⟩

namespace Work

/-- The vault is strict. -/
def isStrict : Work Bool := fun v => .ok v.strict v

/-- The owner with an id and its shadow records. -/
def viewOwner (id : OwnerId) : Work OwnerView := do
  match ← readOwner id with
  | some view => return view
  | none => throw (.store (.ownerNotFound id))

/-- The plain value of a field that has no live shadow record. -/
def readStored (stored : Option String) : Work (Option String) := do
  match stored with
  | none => return none
  | some value =>
    if ← isStrict then return some (← onCipher (FieldCipher.decrypt value))
    else return some (← withCipher (FieldCipher.decryptOpen value))

/-- The plain value of one field. -/
def loadField (id : OwnerId) (field : FieldName) : Work (Option String) := do
  let view ← viewOwner id
  let stored := view.owner.value field
  match (view.shadow? field).filter fun _ => !isStale stored with
  | none => readStored stored
  | some shadow => do
    match ← outcome (verifyShadow view.owner shadow) with
    | .ok (_, text) => return some text
    | .error (.integrity failed) => do
      note (.integrityFailure failed)
      throw (.integrity failed)
    | .error e => throw e

/-- What a read makes of a field: the value to serve, or none where the field is withheld. -/
abbrev Served := Option (Option String)

/-- Serves a field from its shadow record, or withholds it. -/
def serveShadow (owner : Owner) (shadow : Shadow) : Work Served := do
  match ← outcome (verifyShadow owner shadow) with
  | .ok (_, text) => return some (some text)
  | .error (.integrity failed) => do
    note (.integrityFailure failed)
    return none
  | .error e => throw e

/-- Serves a token that stands in a field itself, or withholds the field. -/
def serveToken (owner : OwnerId) (field : Field) : Work Served := do
  match ← outcome (readStored field.value) with
  | .ok value => return some value
  | .error (.key e) => throw (.key e)
  | .error e => do
    note (.tokenWithheld owner field.name e)
    return none

/-- The field holds a token. -/
def holdsToken (field : Field) : Bool :=
  match field.value with
  | some value => Token.isMarked value
  | none => false

/-- The first pass, over the shadow records: each that is not stale is served into the record. The
names of their fields are collected, for the second pass to leave alone. -/
def serveShadows (reading : Reading) (verified : List FieldName) :
    List Shadow → Work (Reading × List FieldName)
  | [] => return (reading, verified)
  | shadow :: shadows => do
    if isStale (reading.owner.value shadow.field) then serveShadows reading verified shadows
    else
      let served ← serveShadow reading.owner shadow
      serveShadows (reading.put shadow.field served) (verified ++ [shadow.field]) shadows

/-- The second pass, over the fields as the first one left them: tokens are opened in place, but not
in what was served from shadow records, whatever it looks like. -/
def serveTokens (verified : List FieldName) (reading : Reading) : List Field → Work Reading
  | [] => return reading
  | field :: fields => do
    if verified.contains field.name || !holdsToken field then serveTokens verified reading fields
    else
      let served ← serveToken reading.owner.id field
      serveTokens verified (reading.put field.name served) fields

/-- A whole owner with its plain values. -/
def loadOwnerPlain (id : OwnerId) : Work Reading := do
  let view ← viewOwner id
  let (reading, verified) ← serveShadows ⟨view.owner, []⟩ [] view.shadows
  serveTokens verified reading reading.owner.fields.toList

end Work

end FieldVault

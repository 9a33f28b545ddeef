/-
Migration: moving owners between plain and encrypted form.

Encrypting an owner replaces the value of each field in scope by its lookup hash and puts the token
into a shadow record. Values that look like hashes stay. Values that are tokens already are opened
first, so that they end up in shadow records like all others; those that cannot be opened stay.
Shadow records that no longer belong to the value of their field are swept away.

Decrypting an owner verifies every shadow record before anything is written, so that one bad record
leaves the whole owner as it was. Tokens that stand in fields themselves are opened in place.

A tenant is migrated owner by owner, each in a unit of work of its own.
-/
import FieldVault.Report
import FieldVault.Vault

set_option autoImplicit false

namespace FieldVault

/-- A shadow record is stale if the value of its field is not a lookup hash: the field was cleared
or changed since, and its value is the one that counts. -/
def isStale (stored : Option String) : Bool :=
  match stored with
  | some value => !LookupHash.isShaped value
  | none => true

namespace Work

/-- Works on each item in turn and adds the reports up. -/
def tally {α : Type} (work : α → Work Report) (items : List α) : Work Report := do
  return Report.sum (← each work items)

/-! ## Encrypting -/

/-- The plain text of a stored value: the value itself, or what it decrypts to if it is a token. A
token that cannot be opened has none and leaves a notice. -/
def plainText (owner : OwnerId) (field : FieldName) (value : String) : Work (Option String) := do
  if Token.isMarked value then
    match ← outcome (onCipher (FieldCipher.decrypt value)) with
    | .ok text => return some text
    | .error (.key e) => throw (.key e)
    | .error e => do
      note (.tokenLeft owner field e)
      return none
  else return some value

/-- Puts a text into the shadow record of a field and its lookup hash into the field. -/
def sealField (owner : OwnerId) (field : FieldName) (text : String) : Work Unit := do
  let token ← onCipher (FieldCipher.encrypt text)
  let shadow ← shadowOrNew owner field
  persistShadow { shadow with ciphertext := token }
  writeField owner field (some (LookupHash.of text))

/-- Encrypts one field of an owner, if it is in scope and holds anything to encrypt. -/
def encryptField (owner : Owner) (field : Field) : Work Report := do
  if ← inScope owner.tenant field.name then
    match field.value with
    | none => return {}
    | some value =>
      if LookupHash.isShaped value then return { hashedSkipped := 1 }
      else
        match ← plainText owner.id field.name value with
        | none => return {}
        | some text => do
          sealField owner.id field.name text
          return .oneChanged
  else return {}

/-- Takes a shadow record away if it is stale. -/
def sweep (owner : Owner) (shadow : Shadow) : Work Report := do
  if isStale (owner.value shadow.field) then
    removeShadow shadow
    return .oneChanged
  else return {}

/-- Encrypts an owner within a unit of work. -/
def encryptOwnerIn (id : OwnerId) : Work Report := do
  match ← loadOwner id with
  | none => throw (.store (.ownerNotFound id))
  | some owner =>
    if ← isEnabled owner.tenant then
      if owner.serviceAccount then
        return { ownersVisited := 1, serviceAccountsSkipped := 1 }
      else do
        let encrypted ← tally (encryptField owner) owner.fields.toList
        let current := (← loadOwner id).getD owner
        let swept ← tally (sweep current) (← shadowsOf id)
        return { ownersVisited := 1 } + encrypted + swept
    else return {}

/-- Encrypts an owner. -/
def encryptOwner (id : OwnerId) : Work Report := transaction (encryptOwnerIn id)

/-- Encrypts the owners of a tenant, if the tenant has encryption on. -/
def encryptAll (tenant : TenantId) : Work Report := do
  if ← isEnabled tenant then
    tally encryptOwner (← ownersIn tenant)
  else return {}

/-! ## Decrypting -/

/-- Verifies a shadow record of an owner and answers it with its text. -/
def verifyShadow (owner : Owner) (shadow : Shadow) : Work (Shadow × String) := do
  let field : FieldRef := ⟨owner.tenant, owner.id, shadow.field⟩
  let text ← onCipher
    (FieldCipher.decryptVerified field (owner.value shadow.field) shadow.ciphertext)
  return (shadow, text)

/-- Drops a stale shadow record. -/
def dropShadow (shadow : Shadow) : Work Report := do
  removeShadow shadow
  return .oneChanged

/-- Puts a verified text back into its field and takes the shadow record away. -/
def restoreField (owner : Owner) (verified : Shadow × String) : Work Report := do
  writeField owner.id verified.1.field (some verified.2)
  removeShadow verified.1
  return .oneChanged

/-- Opens a token that stands in a field itself. -/
def openField (owner : Owner) (field : Field) : Work Report := do
  match field.value with
  | none => return {}
  | some value =>
    if Token.isMarked value then
      match ← plainText owner.id field.name value with
      | none => return {}
      | some text => do
        writeField owner.id field.name (some text)
        return .oneChanged
    else return {}

/-- Decrypts an owner within a unit of work. An owner that does not exist is nothing to do. -/
def decryptOwnerIn (id : OwnerId) : Work Report := do
  match ← loadOwner id with
  | none => return {}
  | some owner => do
    let shadows ← shadowsOf id
    let stale := shadows.filter fun s => isStale (owner.value s.field)
    let live := shadows.filter fun s => !isStale (owner.value s.field)
    let verified ← each (verifyShadow owner) live
    let dropped ← tally dropShadow stale
    let restored ← tally (restoreField owner) verified
    let others := owner.fields.toList.filter fun f => live.all (·.field ≠ f.name)
    let opened ← tally (openField owner) others
    let report := dropped + restored + opened
    return { report with ownersVisited := if report.fieldsChanged = 0 then 0 else 1 }

/-- Decrypts an owner; one that fails verification is left alone and reported. -/
def decryptOwner (id : OwnerId) : Work Report := do
  match ← outcome (transaction (decryptOwnerIn id)) with
  | .ok report => return report
  | .error (.integrity field) => do
    note (.integrityFailure field)
    return { ownersVisited := 1, failures := [field] }
  | .error e => throw e

/-- Decrypts the owners of a tenant. -/
def decryptAll (tenant : TenantId) : Work Report := do
  tally decryptOwner (← ownersIn tenant)

/-! ## Switching a tenant -/

/-- Switches a tenant on or off and migrates its owners. It is switched on only once the key is
resolved. -/
def setTenantEncryption (tenant : TenantId) (enabled : Bool) : Work Report := do
  if enabled then
    let _ ← onCipher FieldCipher.key
    setEnabled tenant true
    encryptAll tenant
  else
    setEnabled tenant false
    decryptAll tenant

end Work

end FieldVault

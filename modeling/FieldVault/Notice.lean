/-
The journal: what an operator is told about.

Operations that carry on after a failure leave a notice. A notice is a value; its level, its text
and its details are functions of it.
-/
import FieldVault.Error

set_option autoImplicit false

namespace FieldVault

/-- What was being done to a value that was left untouched. -/
inductive ValueOperation where
  | encrypt
  | decrypt
deriving DecidableEq

/-- The name of an operation in the journal. -/
def ValueOperation.name : ValueOperation → String
  | .encrypt => "encrypt"
  | .decrypt => "decrypt"

/-- How urgent a notice is. -/
inductive Level where
  | warning
  | error
deriving DecidableEq

/-- The name of a level in the journal. -/
def Level.name : Level → String
  | .warning => "WARN"
  | .error => "ERROR"

/-- An entry of the journal. -/
inductive Notice where
  /-- A value could not be converted and was passed on as it was. -/
  | leftUntouched (operation : ValueOperation) (error : Error)
  /-- The key was derived from the seed. -/
  | keyDerived
  /-- A decrypted value did not belong to the hash beside it. -/
  | integrityFailure (field : FieldRef)
  /-- A token in a record could not be read, and a migration left it there. -/
  | tokenLeft (owner : OwnerId) (field : FieldName) (error : Error)
  /-- A token in a record could not be read, and its field was not served. -/
  | tokenWithheld (owner : OwnerId) (field : FieldName) (error : Error)
  /-- An event names no owner that could be found. -/
  | unresolvedEvent (tenant : TenantId)
deriving DecidableEq

namespace Notice

/-- A value left untouched for want of a key is an error; all else is a warning. -/
def level : Notice → Level
  | leftUntouched _ error => if error.isKey then .error else .warning
  | _ => .warning

/-- The text of a notice. -/
def message : Notice → String
  | leftUntouched _ _ => "value left untouched"
  | keyDerived =>
    "encryption key was derived from the database URL; set PII_ENCKEY explicitly to decouple " ++
      "the key from connection settings"
  | integrityFailure _ => "lookup hash does not match decrypted value"
  | tokenLeft _ _ _ => "legacy token unreadable, left as is"
  | tokenWithheld _ _ _ => "legacy token unreadable, field withheld"
  | unresolvedEvent _ => "event does not resolve to an owner"

/-- What a notice is about, as named texts. -/
def details : Notice → List (String × String)
  | leftUntouched operation error => [("operation", operation.name), ("error", error.message)]
  | keyDerived => []
  | integrityFailure r =>
    [("event", FieldRef.failureEvent), ("tenant", r.tenant), ("owner", r.owner), ("field", r.field)]
  | tokenLeft owner field error => [("owner", owner), ("field", field), ("error", error.message)]
  | tokenWithheld owner field error =>
    [("owner", owner), ("field", field), ("error", error.message)]
  | unresolvedEvent tenant => [("tenant", tenant)]

end Notice

end FieldVault

/-
The place of one field: its tenant, its owner and its name.

Names are plain texts. A place is written with bars between its parts, in reports, and as an audit
line where its value failed verification.
-/

set_option autoImplicit false

namespace FieldVault

/-- The name of a tenant, the unit for which encryption is switched on or off. -/
abbrev TenantId := String

/-- The name of an owner, the subject whose fields are protected. -/
abbrev OwnerId := String

/-- The name of a field of an owner. -/
abbrev FieldName := String

/-- One field of one owner. -/
structure FieldRef where
  tenant : TenantId
  owner : OwnerId
  field : FieldName
deriving DecidableEq

namespace FieldRef

/-- The three parts with bars between them. -/
def text (r : FieldRef) : String := r.tenant ++ "|" ++ r.owner ++ "|" ++ r.field

/-- The name under which failed verifications are audited. -/
def failureEvent : String := "USER_ATTRIBUTE_DECRYPTION_FAILURE"

/-- The audit line of a failed verification. -/
def failureText (r : FieldRef) : String :=
  "Event: " ++ failureEvent ++ ", Tenant: " ++ r.tenant ++ ", Owner: " ++ r.owner ++
    ", Field: " ++ r.field

end FieldRef

end FieldVault

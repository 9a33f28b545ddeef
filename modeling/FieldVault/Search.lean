/-
Finding owners by the value of a field.

Owners that hold the value itself are found first. Only if there are none, and the field is kept
encrypted, the owners that hold its lookup hash are found.
-/
import FieldVault.Vault

set_option autoImplicit false

namespace FieldVault.Work

/-- The owners of a tenant whose field has this value. -/
def search (tenant : TenantId) (field : FieldName) (value : String) : Work (List OwnerId) := do
  match ← holders tenant field value with
  | [] =>
    if ← inScope tenant field then holders tenant field (LookupHash.of value)
    else return []
  | found => return found

/-- The first owner of a tenant whose field has this value. -/
def findOwner (tenant : TenantId) (field : FieldName) (value : String) :
    Work (Option OwnerId) := do
  return (← search tenant field value).head?

end FieldVault.Work

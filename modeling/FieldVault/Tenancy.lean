/-
Which fields of which tenant are kept encrypted.

A tenant has encryption on or off. While it is on, the core fields are in scope, and so is every
field whose name starts with the mark of personal data; any other field only if the tenant has
opted into it. While it is off nothing is in scope.
-/
import FieldVault.Owner

set_option autoImplicit false

namespace FieldVault

/-- The flag of each tenant, and the choices made for single fields. -/
structure Tenancy where
  enabled : TenantId → Bool
  optIn : TenantId → FieldName → Option Bool

namespace Tenancy

/-- No tenant enabled, no choices made. -/
def none : Tenancy := ⟨fun _ => false, fun _ _ => Option.none⟩

/-- Switches a tenant on or off. -/
def setEnabled (t : Tenancy) (tenant : TenantId) (enabled : Bool) : Tenancy :=
  { t with enabled := fun x => if x = tenant then enabled else t.enabled x }

/-- Chooses for one field of a tenant. -/
def setOptIn (t : Tenancy) (tenant : TenantId) (field : FieldName) (chosen : Bool) : Tenancy :=
  { t with optIn := fun x f => if x = tenant ∧ f = field then some chosen else t.optIn x f }

/-- What the name of a field of personal data starts with. -/
def personalMark : List Char := "pii-".toList

/-- The name marks a field of personal data. -/
def isPersonal (field : FieldName) : Bool := personalMark.isPrefixOf field.toList

/-- The field is to be kept encrypted. -/
def inScope (t : Tenancy) (tenant : TenantId) (field : FieldName) : Bool :=
  t.enabled tenant &&
    (Owner.isCore field || isPersonal field || (t.optIn tenant field).getD false)

/-- A tenant has the flag it was given last. -/
@[simp] theorem enabled_setEnabled_self (t : Tenancy) (tenant : TenantId) (enabled : Bool) :
    (t.setEnabled tenant enabled).enabled tenant = enabled := by
  simp [setEnabled]

/-- Switching a tenant leaves the scope of the others. -/
theorem inScope_setEnabled_of_ne (t : Tenancy) {tenant other : TenantId} (h : other ≠ tenant)
    (enabled : Bool) (field : FieldName) :
    (t.setEnabled tenant enabled).inScope other field = t.inScope other field := by
  simp [setEnabled, inScope, h]

end Tenancy

end FieldVault

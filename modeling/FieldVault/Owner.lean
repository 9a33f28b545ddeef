/-
Owners: the records whose fields are protected.

An owner has fields by name. A field may be there without a value, which is not the same as not
being there, though both read as no value. Core fields and any others live side by side.
-/
import FieldVault.FieldRef
import FieldVault.Registry

set_option autoImplicit false

namespace FieldVault

/-- A field: its name and its value, if it is set. -/
structure Field where
  name : FieldName
  value : Option String
deriving DecidableEq

instance : Keyed Field FieldName := ⟨Field.name⟩

/-- A record with fields. Service accounts are never migrated. -/
structure Owner where
  id : OwnerId
  tenant : TenantId
  serviceAccount : Bool := false
  fields : Registry Field := .empty
deriving DecidableEq

instance : Keyed Owner OwnerId := ⟨Owner.id⟩

namespace Owner

/-- The fields that every owner is expected to have. -/
def coreFields : List FieldName := ["username", "email", "firstName", "lastName"]

/-- The field that holds the login name. -/
def usernameField : FieldName := "username"

/-- A core field. -/
def isCore (field : FieldName) : Bool := coreFields.contains field

/-- The value of a field; none if it is unset or not there. -/
def value (o : Owner) (field : FieldName) : Option String :=
  (o.fields.find? field).bind Field.value

/-- Sets a field, which need not have been there. -/
def write (o : Owner) (field : FieldName) (value : Option String) : Owner :=
  { o with fields := o.fields.file ⟨field, value⟩ }

/-- The fields that are not core fields. -/
def attributes (o : Owner) : List Field := o.fields.toList.filter fun f => !isCore f.name

/-! ## A written field reads back -/

/-- A field reads what was written last. -/
@[simp] theorem value_write_self (o : Owner) (field : FieldName) (value : Option String) :
    (o.write field value).value field = value := by
  have h : (o.fields.file ⟨field, value⟩).find? field = some ⟨field, value⟩ :=
    Registry.find?_file_self o.fields ⟨field, value⟩
  simp [write, Owner.value, h]

/-- Writing a field leaves the other fields alone. -/
theorem value_write_of_ne (o : Owner) {field other : FieldName} (h : other ≠ field)
    (value : Option String) : (o.write field value).value other = o.value other := by
  have h : (o.fields.file ⟨field, value⟩).find? other = o.fields.find? other :=
    Registry.find?_file_of_ne h
  simp [write, Owner.value, h]

end Owner

end FieldVault

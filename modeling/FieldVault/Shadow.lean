/-
Shadow records: the ciphertexts kept beside the owners.

Once a field is encrypted its record holds the lookup hash, and a shadow record holds the token. A
field has at most one shadow record, filed under the owner and the name of the field.
-/
import FieldVault.FieldRef
import FieldVault.RecordId
import FieldVault.Registry

set_option autoImplicit false

open Std

namespace FieldVault

/-- Where a shadow record is filed. -/
structure Slot where
  owner : OwnerId
  field : FieldName
deriving DecidableEq

/-- Slots are ordered by owner, then by field. -/
instance : Ord Slot := ⟨compareLex (compareOn Slot.owner) (compareOn Slot.field)⟩

instance : TransOrd Slot := inferInstanceAs (TransCmp (compareLex _ _))

instance : LawfulEqOrd Slot where
  eq_of_compare {a b} h := by
    have h : compare a.owner b.owner = .eq ∧ compare a.field b.field = .eq := compareLex_eq_eq.1 h
    have ho : a.owner = b.owner := LawfulEqOrd.eq_of_compare h.1
    have hf : a.field = b.field := LawfulEqOrd.eq_of_compare h.2
    cases a; cases b; cases ho; cases hf; rfl

/-- The ciphertext of one field of one owner. -/
structure Shadow where
  id : RecordId
  owner : OwnerId
  field : FieldName
  ciphertext : String
deriving DecidableEq

/-- The slot of a shadow record. -/
def Shadow.slot (s : Shadow) : Slot := ⟨s.owner, s.field⟩

instance : Keyed Shadow Slot := ⟨Shadow.slot⟩

end FieldVault

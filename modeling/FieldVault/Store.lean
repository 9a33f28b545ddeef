/-
The store: owners and shadow records.

Everything here is a function on values. A shadow record can only be put in for an owner that
exists, and never in place of a record with another id; it is only taken away by a handle with the
id of the live record. Shadow records without an owner can come from outside, in a snapshot, but no
operation makes one.
-/
import FieldVault.Error
import FieldVault.Owner
import FieldVault.Shadow

set_option autoImplicit false

namespace FieldVault

/-- Owners under their ids, shadow records under their slots. -/
structure Store where
  owners : Registry Owner := .empty
  shadows : Registry Shadow := .empty
deriving DecidableEq

/-- One owner with its shadow records, in the order of their fields. -/
structure OwnerView where
  owner : Owner
  shadows : List Shadow
deriving DecidableEq

/-- The shadow record of a field. -/
def OwnerView.shadow? (v : OwnerView) (field : FieldName) : Option Shadow :=
  v.shadows.find? (·.field = field)

namespace Store

/-- The store of a snapshot; of entries with equal keys the last one stays. -/
def ofLists (owners : List Owner) (shadows : List Shadow) : Store :=
  ⟨.ofList owners, .ofList shadows⟩

/-! ## Reading -/

/-- The owner with an id. -/
def owner? (s : Store) (id : OwnerId) : Option Owner := s.owners.find? id

/-- The shadow record of a field of an owner. -/
def shadow? (s : Store) (owner : OwnerId) (field : FieldName) : Option Shadow :=
  s.shadows.find? ⟨owner, field⟩

/-- The shadow records of an owner, in the order of their fields. -/
def shadowsOf (s : Store) (owner : OwnerId) : List Shadow :=
  s.shadows.toList.filter (·.owner = owner)

/-- The ids of the owners of a tenant, in ascending order. -/
def ownersIn (s : Store) (tenant : TenantId) : List OwnerId :=
  (s.owners.toList.filter (·.tenant = tenant)).map (·.id)

/-- The ids of the owners of a tenant that hold exactly this value in a field. -/
def holders (s : Store) (tenant : TenantId) (field : FieldName) (value : String) : List OwnerId :=
  (s.owners.toList.filter fun o => o.tenant = tenant ∧ o.value field = some value).map (·.id)

/-- An owner with its shadow records. -/
def view? (s : Store) (id : OwnerId) : Option OwnerView :=
  (s.owner? id).map fun owner => ⟨owner, s.shadowsOf id⟩

/-! ## Writing -/

/-- Puts an owner in, in place of one with the same id. -/
def putOwner (s : Store) (owner : Owner) : Store := { s with owners := s.owners.file owner }

/-- Sets a field of an owner. -/
def writeField (s : Store) (id : OwnerId) (field : FieldName) (value : Option String) :
    Except StoreError Store :=
  match s.owner? id with
  | none => .error (.ownerNotFound id)
  | some owner => .ok (s.putOwner (owner.write field value))

/-- Puts a shadow record in, new or with a new ciphertext. -/
def putShadow (s : Store) (shadow : Shadow) : Except StoreError Store :=
  match s.owner? shadow.owner with
  | none => .error (.ownerNotFound shadow.owner)
  | some _ =>
    match s.shadow? shadow.owner shadow.field with
    | some live =>
      if live.id = shadow.id then .ok { s with shadows := s.shadows.file shadow }
      else .error (.backend s!"duplicate shadow record for {shadow.owner}|{shadow.field}")
    | none => .ok { s with shadows := s.shadows.file shadow }

/-- Takes a shadow record away, if the live one has its id. -/
def removeShadow (s : Store) (shadow : Shadow) : Store :=
  match s.shadow? shadow.owner shadow.field with
  | some live =>
    if live.id = shadow.id then { s with shadows := s.shadows.remove shadow.slot } else s
  | none => s

/-! ## What is written is read -/

/-- An owner that was put in is there. -/
@[simp] theorem owner?_putOwner_self (s : Store) (owner : Owner) :
    (s.putOwner owner).owner? owner.id = some owner :=
  Registry.find?_file_self s.owners owner

/-- Putting an owner in leaves the others alone. -/
theorem owner?_putOwner_of_ne (s : Store) {owner : Owner} {id : OwnerId} (h : id ≠ owner.id) :
    (s.putOwner owner).owner? id = s.owner? id :=
  Registry.find?_file_of_ne h

/-- Putting an owner in leaves the shadow records alone. -/
@[simp] theorem shadow?_putOwner (s : Store) (owner : Owner) (id : OwnerId) (field : FieldName) :
    (s.putOwner owner).shadow? id field = s.shadow? id field :=
  rfl

/-- A shadow record that was put in is found in its slot. -/
theorem shadow?_of_putShadow {s t : Store} {shadow : Shadow} (h : s.putShadow shadow = .ok t) :
    t.shadow? shadow.owner shadow.field = some shadow := by
  have hf : (s.shadows.file shadow).find? ⟨shadow.owner, shadow.field⟩ = some shadow :=
    Registry.find?_file_self s.shadows shadow
  unfold putShadow at h
  split at h
  · cases h
  · split at h
    · split at h
      · cases h
        exact hf
      · cases h
    · cases h
      exact hf

end Store

end FieldVault

/-
The vault: a store, the cipher of its fields, and the settings of its tenants.

All work on a vault is of one type, `Work`: it reads and changes the vault and may fail, and what
it did before it failed stays done. What makes failures harmless is the unit of work,
`transaction`: it publishes the store that the work leaves only if the work succeeds. The journal,
the resolved key and whatever was drawn at random are not part of the store and survive a rollback.

Any call to the store can be made to fail by a scheduled outage, which is how hosts rehearse one;
each call keeps a schedule of its own. A crash in the middle of a unit of work poisons the store for
good.
-/
import FieldVault.FieldCipher
import FieldVault.Store
import FieldVault.Tenancy

set_option autoImplicit false

namespace FieldVault

/-! ## Calls and outages -/

/-- The calls to the store and the settings that can be out of order. -/
inductive Call where
  | ownersIn
  | holders
  | readOwner
  | transaction
  | loadOwner
  | writeField
  | findShadow
  | shadowsOf
  | persistShadow
  | removeShadow
  | setEnabled
deriving DecidableEq

/-- The name of a call in messages. -/
def Call.name : Call → String
  | .ownersIn => "owners_in_tenant"
  | .holders => "find_owners_by_field"
  | .readOwner => "read_owner"
  | .transaction => "transaction"
  | .loadOwner => "load_owner"
  | .writeField => "write_field"
  | .findShadow => "find_shadow"
  | .shadowsOf => "shadows_for_owner"
  | .persistShadow => "persist_shadow"
  | .removeShadow => "remove_shadow"
  | .setEnabled => "set_encryption_enabled"

/-- The outages ahead. Each call has a schedule of its own: the number of times it still succeeds
before it fails once, or nothing if it is not going to fail. -/
structure Outages where
  before : Call → Option Nat

namespace Outages

/-- Nothing is going to fail. -/
def none : Outages := ⟨fun _ => Option.none⟩

/-- Sets the schedule of one call. -/
def set (o : Outages) (call : Call) (successes : Option Nat) : Outages :=
  ⟨fun c => if c = call then successes else o.before c⟩

/-- Schedules a failure of a call, in place of one scheduled for it before. The switch of a tenant
fails the next time, whatever number is given. -/
def schedule (o : Outages) (call : Call) (successes : Nat) : Outages :=
  o.set call (some (if call = .setEnabled then 0 else successes))

/-- How a call fares, and what is ahead after it. -/
def meet (o : Outages) (call : Call) : Except StoreError Unit × Outages :=
  match o.before call with
  | .none => (.ok (), o)
  | some 0 => (.error (.backend ("injected: " ++ call.name)), o.set call .none)
  | some (n + 1) => (.ok (), o.set call (some n))

end Outages

/-! ## The vault -/

/-- A store with what it takes to work on it. -/
structure Vault where
  cipher : FieldCipher
  store : Store := {}
  tenancy : Tenancy := .none
  /-- Reading a token that cannot be decrypted is a failure. -/
  strict : Bool := false
  /-- The ids of new shadow records. -/
  ids : Supply RecordId
  /-- A unit of work crashed. -/
  poisoned : Bool := false
  /-- The outages that are scheduled. -/
  outages : Outages := .none

/-- Work on a vault. -/
abbrev Work := EStateM Error Vault

namespace Work

/-- Work of the cipher alone. -/
def onCipher {α : Type} (action : FieldCipher.Action α) : Work α := fun v =>
  match action v.cipher with
  | .ok a c => .ok a { v with cipher := c }
  | .error e c => .error e { v with cipher := c }

/-- Work of the cipher alone that cannot fail. -/
def withCipher {α : Type} (action : FieldCipher → α × FieldCipher) : Work α := fun v =>
  let (a, c) := action v.cipher
  .ok a { v with cipher := c }

/-- Leaves a notice. -/
def note (notice : Notice) : Work Unit := withCipher fun c => ((), c.note notice)

/-- Lets a call pass, unless it is out of order. -/
def attempt (call : Call) : Work Unit := fun v =>
  match v.outages.meet call with
  | (.ok _, outages) => .ok () { v with outages }
  | (.error e, outages) => .error (.store e) { v with outages }

/-- Refuses to go on with a poisoned store. -/
def ensureServing : Work Unit := fun v =>
  if v.poisoned then .error (.store .poisoned) v else .ok () v

/-- Reads off the store. -/
def fromStore {α : Type} (read : Store → α) : Work α := fun v => .ok (read v.store) v

/-- Changes the store. -/
def changeStore (change : Store → Except StoreError Store) : Work Unit := fun v =>
  match change v.store with
  | .ok store => .ok () { v with store }
  | .error e => .error (.store e) v

/-! ## Within a unit of work -/

/-- The owner with an id. -/
def loadOwner (id : OwnerId) : Work (Option Owner) := do
  attempt .loadOwner
  fromStore (·.owner? id)

/-- Sets a field of an owner. -/
def writeField (id : OwnerId) (field : FieldName) (value : Option String) : Work Unit := do
  attempt .writeField
  changeStore (·.writeField id field value)

/-- The shadow record of a field. -/
def findShadow (owner : OwnerId) (field : FieldName) : Work (Option Shadow) := do
  attempt .findShadow
  fromStore (·.shadow? owner field)

/-- The shadow records of an owner. -/
def shadowsOf (owner : OwnerId) : Work (List Shadow) := do
  attempt .shadowsOf
  fromStore (·.shadowsOf owner)

/-- Puts a shadow record in. -/
def persistShadow (shadow : Shadow) : Work Unit := do
  attempt .persistShadow
  changeStore (·.putShadow shadow)

/-- Takes a shadow record away. -/
def removeShadow (shadow : Shadow) : Work Unit := do
  attempt .removeShadow
  changeStore fun s => .ok (s.removeShadow shadow)

/-- A new shadow record, with an id of its own and no ciphertext yet; it is not in the store. -/
def newShadow (owner : OwnerId) (field : FieldName) : Work Shadow := fun v =>
  let (id, ids) := v.ids.next
  .ok ⟨id, owner, field, ""⟩ { v with ids }

/-- The shadow record of a field, a new one if there is none. -/
def shadowOrNew (owner : OwnerId) (field : FieldName) : Work Shadow := do
  match ← findShadow owner field with
  | some shadow => return shadow
  | none => newShadow owner field

/-! ## From outside -/

/-- The ids of the owners of a tenant. -/
def ownersIn (tenant : TenantId) : Work (List OwnerId) := do
  attempt .ownersIn
  ensureServing
  fromStore (·.ownersIn tenant)

/-- The ids of the owners of a tenant that hold exactly this value in a field. -/
def holders (tenant : TenantId) (field : FieldName) (value : String) : Work (List OwnerId) := do
  attempt .holders
  ensureServing
  fromStore (·.holders tenant field value)

/-- An owner with its shadow records. -/
def readOwner (id : OwnerId) : Work (Option OwnerView) := do
  attempt .readOwner
  ensureServing
  fromStore (·.view? id)

/-- Puts an owner in, outside any unit of work. -/
def insertOwner (owner : Owner) : Work Unit := do
  ensureServing
  changeStore fun s => .ok (s.putOwner owner)

/-- The store as it stands. -/
def snapshot : Work Store := do
  ensureServing
  fromStore id

/-- Starts a unit of work. -/
def begin : Work Unit := do
  attempt .transaction
  ensureServing

/-- A unit of work: the store changes only if the work succeeds. -/
def transaction {α : Type} (work : Work α) : Work α := do
  begin
  fun v =>
    match work v with
    | .ok a v' => .ok a v'
    | .error e v' => .error e { v' with store := v.store }

/-! ## Settings of the tenants -/

/-- The tenant has encryption on. -/
def isEnabled (tenant : TenantId) : Work Bool := fun v => .ok (v.tenancy.enabled tenant) v

/-- The field is to be kept encrypted. -/
def inScope (tenant : TenantId) (field : FieldName) : Work Bool := fun v =>
  .ok (v.tenancy.inScope tenant field) v

/-- Switches a tenant on or off. -/
def setEnabled (tenant : TenantId) (enabled : Bool) : Work Unit := do
  attempt .setEnabled
  fun v => .ok () { v with tenancy := v.tenancy.setEnabled tenant enabled }

/-- Chooses for one field of a tenant. -/
def setOptIn (tenant : TenantId) (field : FieldName) (chosen : Bool) : Work Unit := fun v =>
  .ok () { v with tenancy := v.tenancy.setOptIn tenant field chosen }

/-! ## Running work on lists -/

/-- Works on each item in turn and collects the results. -/
def each {α β : Type} (work : α → Work β) : List α → Work (List β)
  | [] => pure []
  | a :: as => do
    let b ← work a
    let bs ← each work as
    return b :: bs

end Work

namespace Vault

/-- Schedules an outage of a call, after so many that still succeed. -/
def schedule (v : Vault) (call : Call) (successes : Nat) : Vault :=
  { v with outages := v.outages.schedule call successes }

/-- Replaces the source of the key; nothing is resolved yet. -/
def rekey (v : Vault) (source : KeySource) : Vault :=
  { v with cipher := { v.cipher with keys := ⟨source, 0, none⟩ } }

end Vault

end FieldVault

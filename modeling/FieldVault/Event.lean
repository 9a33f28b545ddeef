/-
Events in the life of owners, and what the vault does about them.

A host reports that an owner was registered or changed, and the vault encrypts that owner. An
administrator's events tell the owner in a roundabout way, by login name or by the path of a
resource; one that leads to no owner is noted and otherwise ignored, as is everything that happens
in a tenant with encryption off.
-/
import FieldVault.Migration
import FieldVault.Search

set_option autoImplicit false

namespace FieldVault

/-- Something that happened to an owner. -/
inductive Event where
  /-- An owner signed up. -/
  | registered (tenant : TenantId) (owner : OwnerId)
  /-- An owner changed its profile. -/
  | profileUpdated (tenant : TenantId) (owner : OwnerId)
  /-- An administrator made an owner with this login name. -/
  | adminCreated (tenant : TenantId) (username : String)
  /-- An administrator changed the resource at this path. -/
  | adminUpdated (tenant : TenantId) (path : String)
deriving DecidableEq

namespace Event

/-- The tenant an event belongs to. -/
def tenant : Event → TenantId
  | registered tenant _ => tenant
  | profileUpdated tenant _ => tenant
  | adminCreated tenant _ => tenant
  | adminUpdated tenant _ => tenant

/-- The owner that the path of a resource names: the second of its parts, unless that is empty. -/
def ownerOfPath? (path : String) : Option OwnerId :=
  match path.toList.dropWhile (· ≠ '/') with
  | [] => none
  | _ :: rest =>
    match rest.takeWhile (· ≠ '/') with
    | [] => none
    | name => some (String.ofList name)

end Event

namespace Work

/-- The owner that an event is about, if it can be told. -/
def ownerOfEvent : Event → Work (Option OwnerId)
  | .registered _ owner => return some owner
  | .profileUpdated _ owner => return some owner
  | .adminCreated tenant username => findOwner tenant Owner.usernameField username
  | .adminUpdated _ path => return Event.ownerOfPath? path

/-- Encrypts the owner that an event is about. -/
def handleEvent (event : Event) : Work Report := do
  if ← isEnabled event.tenant then
    match ← ownerOfEvent event with
    | some owner => encryptOwner owner
    | none => do
      note (.unresolvedEvent event.tenant)
      return {}
  else return {}

end Work

end FieldVault

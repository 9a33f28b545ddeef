/-
Snapshots: a whole store as JSON.

A snapshot lists the owners by id and the shadow records by slot. Reading one files its entries
anew, so their order does not matter and of entries with equal keys the last one stays.
-/
import FieldVault.Json.Printer
import FieldVault.Json.Reader
import FieldVault.Json.Record
import FieldVault.Store

set_option autoImplicit false

namespace FieldVault

/-! ## Owners -/

namespace Owner

/-- An owner as JSON. -/
def toJson (o : Owner) : Json :=
  .record [
    ("id", .text o.id),
    ("tenant", .text o.tenant),
    ("service_account", .bool o.serviceAccount),
    ("fields", .record (o.fields.toList.map fun f => (f.name, .optional f.value)))]

/-- Reads the fields of an owner. -/
def fieldsOfJson? (j : Json) : Option (Registry Field) := do
  let members ← j.asMembers?
  let fields ← members.mapM fun m => do return Field.mk m.1 (← m.2.asOptionalText?)
  return .ofList fields

/-- Reads an owner. The service flag and the fields may be left out. -/
def ofJson? (j : Json) : Option Owner := do
  match ← j.fields? ["id", "tenant", "service_account", "fields"] with
  | [some id, some tenant, serviceAccount, fields] =>
    return {
      id := ← id.asText?
      tenant := ← tenant.asText?
      serviceAccount := ← Json.orDefault serviceAccount false Json.asBool?
      fields := ← Json.orDefault fields .empty fieldsOfJson? }
  | _ => none

end Owner

/-! ## Shadow records -/

namespace Shadow

/-- A shadow record as JSON. -/
def toJson (s : Shadow) : Json :=
  .record [
    ("id", .text s.id.text),
    ("owner_ref", .text s.owner),
    ("field_name", .text s.field),
    ("ciphertext", .text s.ciphertext)]

/-- Reads a shadow record. -/
def ofJson? (j : Json) : Option Shadow := do
  match ← j.fields? ["id", "owner_ref", "field_name", "ciphertext"] with
  | [some id, some owner, some field, some ciphertext] =>
    return {
      id := ← id.asText? >>= RecordId.parse?
      owner := ← owner.asText?
      field := ← field.asText?
      ciphertext := ← ciphertext.asText? }
  | _ => none

end Shadow

/-! ## Stores -/

namespace Store

/-- The snapshot of a store. -/
def toJson (s : Store) : Json :=
  .record [
    ("owners", .array (s.owners.toList.map Owner.toJson)),
    ("shadows", .array (s.shadows.toList.map Shadow.toJson))]

/-- Reads a list of entries. -/
def entriesOfJson? {α : Type} (read : Json → Option α) (j : Json) : Option (List α) := do
  (← j.asItems?).mapM read

/-- Reads a snapshot. Either list may be left out. -/
def ofJson? (j : Json) : Option Store := do
  match ← j.fields? ["owners", "shadows"] with
  | [owners, shadows] =>
    return .ofLists
      (← Json.orDefault owners [] (entriesOfJson? Owner.ofJson?))
      (← Json.orDefault shadows [] (entriesOfJson? Shadow.ofJson?))
  | _ => none

/-- Reads the text of a snapshot. -/
def parse? (text : String) : Option Store := Json.parse? text >>= ofJson?

end Store

end FieldVault

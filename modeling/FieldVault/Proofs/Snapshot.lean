/-
Snapshots keep the whole store, and list it in one way only.

Owners and shadow records are read back from the objects they are written as, and a registry is what
its own entries are filed as; so a store is read back from its snapshot, and two stores have the
same snapshot only if they are equal. A snapshot that was made elsewhere may list its records in any
order and repeat them. Of the records it gives under one key the last is kept, the kept ones are
listed in the order of the bytes of their keys, and that listing is a fixed point: written, read and
written again it is the same text.
-/
import FieldVault.Proofs.Json.Record
import FieldVault.Proofs.RecordId
import FieldVault.Proofs.Registry
import FieldVault.Proofs.Text.ByteOrder
import FieldVault.Snapshot

set_option autoImplicit false

namespace FieldVault

/-- What reads every written entry back reads a whole list back. -/
theorem mapM_map_of_inverse {α β : Type} {read : β → Option α} {write : α → β}
    (h : ∀ a, read (write a) = some a) (as : List α) : (as.map write).mapM read = some as := by
  induction as with
  | nil => rfl
  | cons a as ih =>
    rw [List.map_cons, List.mapM_cons, h, ih]
    rfl

/-! ## Owners -/

namespace Owner

theorem fieldsOfJson?_record (fields : Registry Field) :
    fieldsOfJson? (.record (fields.toList.map fun f => (f.name, .optional f.value))) =
      some fields := by
  have hfield (f : Field) :
      (do return Field.mk f.name (← (Json.optional f.value).asOptionalText?)) = some f := by
    rw [Json.asOptionalText?_optional]
    rfl
  rw [fieldsOfJson?, Json.asMembers?_record, Option.bind_eq_bind, Option.bind_some,
    mapM_map_of_inverse hfield, Option.bind_eq_bind, Option.bind_some, Registry.ofList_toList,
    Option.pure_def]

/-- An owner is read back. -/
theorem ofJson?_toJson (o : Owner) : ofJson? o.toJson = some o := by
  have hread : o.toJson.fields? ["id", "tenant", "service_account", "fields"] = _ :=
    Json.fields?_record (by simp)
  simp only [ofJson?, hread, List.map_cons, List.map_nil, Option.bind_eq_bind, Option.bind_some,
    Json.text, Json.asText?, Json.orDefault, Json.asBool?, fieldsOfJson?_record, Option.pure_def]

theorem numberless_toJson (o : Owner) : o.toJson.numberless = true := by
  have hfields : (Json.record (o.fields.toList.map fun f =>
      (f.name, .optional f.value))).numberless = true := by
    refine Json.numberless_record fun m hm => ?_
    obtain ⟨f, _, rfl⟩ := List.mem_map.1 hm
    exact Json.numberless_optional f.value
  refine Json.numberless_record fun m hm => ?_
  simp only [List.mem_cons, List.not_mem_nil, or_false] at hm
  rcases hm with rfl | rfl | rfl | rfl
  · rfl
  · rfl
  · rfl
  · exact hfields

end Owner

/-! ## Shadow records -/

namespace Shadow

/-- A shadow record is read back. -/
theorem ofJson?_toJson (s : Shadow) : ofJson? s.toJson = some s := by
  have hread : s.toJson.fields? ["id", "owner_ref", "field_name", "ciphertext"] = _ :=
    Json.fields?_record (by simp)
  simp only [ofJson?, hread, List.map_cons, List.map_nil, Option.bind_eq_bind, Option.bind_some,
    Json.text, Json.asText?, RecordId.parse?_text, Option.pure_def]

theorem numberless_toJson (s : Shadow) : s.toJson.numberless = true := by
  refine Json.numberless_record fun m hm => ?_
  simp only [List.mem_cons, List.not_mem_nil, or_false] at hm
  rcases hm with rfl | rfl | rfl | rfl <;> rfl

end Shadow

/-! ## Stores -/

namespace Store

/-- The owners and the shadow records of a snapshot, as it lists them. -/
def recordsOfJson? (j : Json) : Option (List Owner × List Shadow) := do
  match ← j.fields? ["owners", "shadows"] with
  | [owners, shadows] =>
    return (← Json.orDefault owners [] (entriesOfJson? Owner.ofJson?),
      ← Json.orDefault shadows [] (entriesOfJson? Shadow.ofJson?))
  | _ => none

/-- The owners and the shadow records that a text lists. -/
def records? (text : String) : Option (List Owner × List Shadow) :=
  Json.parse? text >>= recordsOfJson?

/-- A snapshot is read by filing the records that it lists. -/
theorem ofJson?_eq_map_records (j : Json) :
    ofJson? j = (recordsOfJson? j).map fun r => .ofLists r.1 r.2 := by
  rw [ofJson?, recordsOfJson?]
  cases j.fields? ["owners", "shadows"] with
  | none => rfl
  | some fields =>
    match fields with
    | [] => rfl
    | [_] => rfl
    | [owners, shadows] =>
      simp only [Option.bind_eq_bind, Option.bind_some]
      cases Json.orDefault owners [] (entriesOfJson? Owner.ofJson?) with
      | none => rfl
      | some os =>
        cases Json.orDefault shadows [] (entriesOfJson? Shadow.ofJson?) with
        | none => rfl
        | some ss => rfl
    | _ :: _ :: _ :: _ => rfl

theorem parse?_eq_map_records (text : String) :
    parse? text = (records? text).map fun r => .ofLists r.1 r.2 := by
  rw [parse?, records?]
  cases Json.parse? text with
  | none => rfl
  | some j => exact ofJson?_eq_map_records j

/-- The snapshot of a store lists its own entries. -/
theorem recordsOfJson?_toJson (s : Store) :
    recordsOfJson? s.toJson = some (s.owners.toList, s.shadows.toList) := by
  have hread : s.toJson.fields? ["owners", "shadows"] = _ := Json.fields?_record (by simp)
  have howners := mapM_map_of_inverse Owner.ofJson?_toJson s.owners.toList
  have hshadows := mapM_map_of_inverse Shadow.ofJson?_toJson s.shadows.toList
  simp only [recordsOfJson?, hread, List.map_cons, List.map_nil, Option.bind_eq_bind,
    Option.bind_some, Json.orDefault, entriesOfJson?, Json.asItems?, howners, hshadows,
    Option.pure_def]

/-- The entries of a store are filed as the store. -/
theorem ofLists_toList (s : Store) : ofLists s.owners.toList s.shadows.toList = s := by
  rw [ofLists, Registry.ofList_toList, Registry.ofList_toList]

theorem numberless_toJson (s : Store) : s.toJson.numberless = true := by
  refine Json.numberless_record fun m hm => ?_
  simp only [List.mem_cons, List.not_mem_nil, or_false] at hm
  rcases hm with rfl | rfl
  · refine Json.numberless_array fun j hj => ?_
    obtain ⟨o, _, rfl⟩ := List.mem_map.1 hj
    exact o.numberless_toJson
  · refine Json.numberless_array fun j hj => ?_
    obtain ⟨sh, _, rfl⟩ := List.mem_map.1 hj
    exact sh.numberless_toJson

/-- What is printed of a store lists its entries. -/
theorem records?_print (s : Store) {print : Json → String}
    (hprint : print ∈ [Json.compact, Json.pretty]) :
    records? (print s.toJson) = some (s.owners.toList, s.shadows.toList) := by
  have hparse : Json.parse? (print s.toJson) = some s.toJson := by
    simp only [List.mem_cons, List.not_mem_nil, or_false] at hprint
    rcases hprint with rfl | rfl
    · exact Json.parse?_compact s.numberless_toJson
    · exact Json.parse?_pretty s.numberless_toJson
  rw [records?, hparse]
  exact recordsOfJson?_toJson s

/-- What is printed of a store is read as the store. -/
theorem parse?_print (s : Store) {print : Json → String}
    (hprint : print ∈ [Json.compact, Json.pretty]) : parse? (print s.toJson) = some s := by
  rw [parse?_eq_map_records, s.records?_print hprint, Option.map_some, ofLists_toList]

end Store

/-! ## What is kept of a listing -/

/-- The order of texts by their bytes. -/
def BytesBefore (s t : String) : Prop := Utf8.encode s < Utf8.encode t

/-- The order of slots by the bytes of the owner, then by those of the field. -/
def Slot.BytesBefore (s t : Slot) : Prop :=
  FieldVault.BytesBefore s.owner t.owner ∨
    s.owner = t.owner ∧ FieldVault.BytesBefore s.field t.field

/-- The kept entries are the last given under their keys, and are in order. -/
structure LastInOrder {α κ : Type} [Keyed α κ] [DecidableEq κ] (before : κ → κ → Prop)
    (given kept : List α) : Prop where
  mem_iff : ∀ x, x ∈ kept ↔ (given.filter (key · = key x)).getLast? = some x
  ordered : kept.Pairwise fun x y => before (key x) (key y)

theorem Slot.compare_eq_lt_iff (s t : Slot) : compare s t = .lt ↔ s.BytesBefore t := by
  have hlex : compare s t = (compare s.owner t.owner).then (compare s.field t.field) := rfl
  rw [hlex, Ordering.then_eq_lt, BytesBefore, FieldVault.BytesBefore, FieldVault.BytesBefore,
    ← Utf8.compare_eq_lt_iff_encode_lt, ← Utf8.compare_eq_lt_iff_encode_lt,
    Std.LawfulEqOrd.compare_eq_iff_eq]

theorem lastInOrder_ofList {α κ : Type} [Keyed α κ] [Ord κ] [Std.TransOrd κ] [Std.LawfulEqOrd κ]
    [DecidableEq κ] {before : κ → κ → Prop} (hbefore : ∀ k l : κ, compare k l = .lt ↔ before k l)
    (given : List α) : LastInOrder before given (Registry.ofList given).toList where
  mem_iff _ := Registry.mem_toList_ofList_iff
  ordered := (Registry.ofList given).ascending.imp fun h => (hbefore _ _).1 h

namespace Store

/-- **Snapshots keep everything.** A store is read back from its snapshot in either form. Of any
text that is read, the last record under each key is kept, in the order of the bytes of the keys,
and what is printed then is printed again when it is read. -/
theorem snapshot_keeps :
    (∀ s : Store, ∀ print ∈ [Json.compact, Json.pretty], parse? (print s.toJson) = some s) ∧
    ∀ (text : String) (s : Store), parse? text = some s → ∃ owners shadows,
      records? text = some (owners, shadows) ∧
      ∀ print ∈ [Json.compact, Json.pretty], ∃ keptOwners keptShadows,
        records? (print s.toJson) = some (keptOwners, keptShadows) ∧
        LastInOrder BytesBefore owners keptOwners ∧
        LastInOrder Slot.BytesBefore shadows keptShadows ∧
        (parse? (print s.toJson)).map (print ·.toJson) = some (print s.toJson) := by
  refine ⟨fun s print hprint => s.parse?_print hprint, fun text s h => ?_⟩
  rw [parse?_eq_map_records] at h
  obtain ⟨⟨owners, shadows⟩, hrecords, rfl⟩ := Option.map_eq_some_iff.1 h
  refine ⟨owners, shadows, hrecords, fun print hprint => ?_⟩
  refine ⟨_, _, records?_print _ hprint, ?_, ?_, ?_⟩
  · exact lastInOrder_ofList Utf8.compare_eq_lt_iff_encode_lt owners
  · exact lastInOrder_ofList Slot.compare_eq_lt_iff shadows
  · rw [parse?_print _ hprint, Option.map_some]

/-- A snapshot with an owner listed twice, and its records written as arrays. -/
def listedTwice : String := "[[[\"b\", \"acme\"], [\"a\", \"acme\"], [\"b\", \"globex\"]]]"

/-- The owners that are kept of it. -/
def keptOnce : List Owner := [{ id := "a", tenant := "acme" }, { id := "b", tenant := "globex" }]

theorem snapshot_keeps_listedTwice :
    parse? listedTwice = some (.ofLists keptOnce []) ∧ ∃ owners shadows,
      records? listedTwice = some (owners, shadows) ∧
      LastInOrder BytesBefore owners keptOnce := by
  have hparse : parse? listedTwice = some (.ofLists keptOnce []) := by decide +kernel
  obtain ⟨owners, shadows, hrecords, hprints⟩ := snapshot_keeps.2 _ _ hparse
  obtain ⟨kept, _, hkept, howners, _, _⟩ := hprints Json.compact List.mem_cons_self
  rw [records?_print _ List.mem_cons_self] at hkept
  cases hkept
  exact ⟨hparse, owners, shadows, hrecords, howners⟩

end Store

end FieldVault

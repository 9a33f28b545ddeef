/-
Counts as sizes of sets.

A migration goes through lists: the owners of a tenant, the fields of an owner, its shadow records.
None of these lists holds anything twice. So what is counted along a list is the size of the set of
its items, and what the reports of a loop add up to is the size of a set that falls apart by owners.
-/
import Mathlib.Algebra.BigOperators.Ring.Finset
import Mathlib.Data.Set.Card
import FieldVault.Proofs.Report
import FieldVault.Shadow

set_option autoImplicit false

namespace FieldVault

/-! ## Lists -/

/-- A count over a list without repetitions is the size of a set. -/
theorem coe_countP_eq_encard {α : Type} [DecidableEq α] {items : List α} (hnodup : items.Nodup)
    (p : α → Bool) : (items.countP p : ENat) = {a | a ∈ items ∧ p a = true}.encard := by
  have hset : {a | a ∈ items ∧ p a = true} = ((items.filter p).toFinset : Set α) := by
    ext a
    simp
  rw [hset, Set.encard_coe_eq_coe_finsetCard, List.toFinset_card_of_nodup (hnodup.filter p),
    List.countP_eq_length_filter]

/-- A count over names without repetitions is the size of a set of fields of one owner. -/
theorem Slot.coe_countP_eq_encard {names : List FieldName} (hnodup : names.Nodup)
    {p : FieldName → Bool} {id : OwnerId} {slots : Set Slot}
    (hslots : ∀ field, ⟨id, field⟩ ∈ slots ↔ field ∈ names ∧ p field = true) :
    (names.countP p : ENat) = {slot | slot ∈ slots ∧ slot.owner = id}.encard := by
  have hset : {slot | slot ∈ slots ∧ slot.owner = id} =
      Slot.mk id '' {field | field ∈ names ∧ p field = true} := by
    ext ⟨id', field⟩
    simp only [Set.mem_ofPred_eq, Set.mem_image, Slot.mk.injEq]
    constructor
    · rintro ⟨hmem, rfl⟩
      exact ⟨field, (hslots field).1 hmem, rfl, rfl⟩
    · rintro ⟨field', hfield, rfl, rfl⟩
      exact ⟨(hslots field').2 hfield, rfl⟩
  have hinjective : Function.Injective (Slot.mk id) := by
    intro a b hab
    exact congrArg Slot.field hab
  rw [hset, hinjective.encard_image, FieldVault.coe_countP_eq_encard hnodup]

/-- What belongs to some owners is counted owner by owner. -/
theorem sum_encard_owners {α : Type} {T : Set α} {ownerOf : α → OwnerId} {ids : List OwnerId}
    (hnodup : ids.Nodup) (hT : ∀ a ∈ T, ownerOf a ∈ ids) :
    (ids.map fun id => {a | a ∈ T ∧ ownerOf a = id}.encard).sum = T.encard := by
  have hall : {a | a ∈ T ∧ ownerOf a ∈ ids} = T := by
    ext a
    exact and_iff_left_of_imp (hT a)
  -- The induction is on the owners, over what belongs to the ones that are left.
  conv_rhs => rw [← hall]
  clear hall hT
  induction ids with
  | nil => simp
  | cons id rest ih =>
    obtain ⟨hid, hrest⟩ := List.nodup_cons.1 hnodup
    have hsplit : {a | a ∈ T ∧ ownerOf a ∈ id :: rest} =
        {a | a ∈ T ∧ ownerOf a = id} ∪ {a | a ∈ T ∧ ownerOf a ∈ rest} := by
      ext a
      simp only [List.mem_cons, Set.mem_ofPred_eq, Set.mem_union, and_or_left]
    have hdisjoint : Disjoint {a | a ∈ T ∧ ownerOf a = id} {a | a ∈ T ∧ ownerOf a ∈ rest} := by
      rw [Set.disjoint_left]
      rintro a ⟨-, rfl⟩ ⟨-, hmem⟩
      exact hid hmem
    rw [List.map_cons, List.sum_cons, ih hrest, hsplit, Set.encard_union_eq hdisjoint]

/-- An owner counts once in a set of owners, if it is in the set. -/
theorem encard_owner_of_mem {T : Set OwnerId} {id : OwnerId} (h : id ∈ T) :
    {a | a ∈ T ∧ a = id}.encard = 1 := by
  rw [Set.encard_eq_one]
  refine ⟨id, ?_⟩
  ext a
  rw [Set.mem_singleton_iff]
  constructor
  · rintro ⟨-, hid⟩
    exact hid
  · rintro rfl
    exact ⟨h, rfl⟩

theorem encard_owner_of_not_mem {T : Set OwnerId} {id : OwnerId} (h : id ∉ T) :
    {a | a ∈ T ∧ a = id}.encard = 0 := by
  rw [Set.encard_eq_zero, Set.eq_empty_iff_forall_notMem]
  rintro a ⟨hmem, rfl⟩
  exact h hmem

/-! ## Reports -/

namespace Report

/-- What adds up for two reports is counted owner by owner. -/
theorem coe_count_sum {count : Report → Nat} (hempty : count {} = 0)
    (hadd : ∀ r s : Report, count (r + s) = count r + count s) {ids : List OwnerId}
    {report : OwnerId → Report} {size : OwnerId → ENat}
    (hsize : ∀ id ∈ ids, (count (report id) : ENat) = size id) :
    (count (sum (ids.map report)) : ENat) = (ids.map size).sum := by
  rw [count_sum hempty hadd, Nat.cast_list_sum, List.map_map, List.map_map]
  exact congrArg List.sum (List.map_congr_left hsize)

section Sets

variable {α : Type} {count : Report → Nat} {ids : List OwnerId} {report : OwnerId → Report}
  {T U : Set α} {ownerOf : α → OwnerId} (hempty : count {} = 0)
  (hadd : ∀ r s : Report, count (r + s) = count r + count s) (hnodup : ids.Nodup)
  (hT : ∀ a ∈ T, ownerOf a ∈ ids)
include hempty hadd hnodup hT

/-- The reports on some owners count a set if each of them counts what there is of its owner. -/
theorem coe_count_sum_eq_encard (hsize : ∀ id ∈ ids,
      (count (report id) : ENat) = {a | a ∈ T ∧ ownerOf a = id}.encard) :
    (count (sum (ids.map report)) : ENat) = T.encard := by
  rw [coe_count_sum hempty hadd hsize, sum_encard_owners hnodup hT]

/-- The same for two kinds of things that go into one count. -/
theorem coe_count_sum_eq_encard_add (hU : ∀ a ∈ U, ownerOf a ∈ ids) (hsize : ∀ id ∈ ids,
      (count (report id) : ENat) =
        {a | a ∈ T ∧ ownerOf a = id}.encard + {a | a ∈ U ∧ ownerOf a = id}.encard) :
    (count (sum (ids.map report)) : ENat) = T.encard + U.encard := by
  rw [coe_count_sum hempty hadd hsize, List.sum_map_add, sum_encard_owners hnodup hT,
    sum_encard_owners hnodup hU]

end Sets

end Report

end FieldVault

/-
What a search finds, as a function of the store.

A search asks for the owners that hold the value itself, and only if nobody does for those that hold
its lookup hash. Either answer is read off the cells of one field in ascending order of the owners,
so whoever is found, is found once, and the first one found is the least.
-/
import FieldVault.Proofs.Vault
import FieldVault.Search

set_option autoImplicit false

namespace FieldVault

/-! ## Holders -/

namespace Store

variable {s t : Store} {id : OwnerId} {tenant : TenantId} {field : FieldName} {value : String}

/-- The holders of a value are the owners of the tenant with that value in the field. -/
theorem mem_holders_iff : id ∈ s.holders tenant field value ↔
    ∃ o, s.owner? id = some o ∧ o.tenant = tenant ∧ o.value field = some value := by
  rw [holders, List.mem_map]
  constructor
  · rintro ⟨o, ho, rfl⟩
    rw [List.mem_filter, Registry.mem_toList_iff, decide_eq_true_eq] at ho
    exact ⟨o, ho.1, ho.2⟩
  · rintro ⟨o, ho, htenant, hvalue⟩
    have hid := id_of_owner? ho
    subst hid
    refine ⟨o, ?_, rfl⟩
    rw [List.mem_filter, Registry.mem_toList_iff, decide_eq_true_eq]
    exact ⟨ho, htenant, hvalue⟩

/-- The holders of a value are told by heads and cells. -/
theorem mem_holders_iff_cell : id ∈ s.holders tenant field value ↔
    id ∈ s.ownersIn tenant ∧ (s.cell id field).stored = some value := by
  rw [mem_holders_iff, mem_ownersIn_iff]
  constructor
  · rintro ⟨o, ho, htenant, hvalue⟩
    exact ⟨⟨o, ho, htenant⟩, by rw [stored_cell ho, hvalue]⟩
  · rintro ⟨⟨o, ho, htenant⟩, hstored⟩
    exact ⟨o, ho, htenant, by rw [← stored_cell ho, hstored]⟩

theorem ascending_holders (s : Store) (tenant : TenantId) (field : FieldName) (value : String) :
    Ascending (s.holders tenant field value) :=
  List.pairwise_map.2 (List.Pairwise.filter _ s.owners.ascending)

/-! ## Hits -/

/-- The owners that a search finds. -/
def hits (s : Store) (tenancy : Tenancy) (tenant : TenantId) (field : FieldName)
    (value : String) : List OwnerId :=
  if s.holders tenant field value = [] then
    if tenancy.inScope tenant field then s.holders tenant field (LookupHash.of value) else []
  else s.holders tenant field value

theorem ascending_hits (s : Store) (tenancy : Tenancy) (tenant : TenantId) (field : FieldName)
    (value : String) : Ascending (s.hits tenancy tenant field value) := by
  rw [hits]
  split
  · split
    · exact ascending_holders s tenant field _
    · exact List.Pairwise.nil
  · exact ascending_holders s tenant field value

/-- In scope, the holders of the value are found if there are any, and otherwise those of the
hash. -/
theorem mem_hits_iff {tenancy : Tenancy} (hscope : tenancy.inScope tenant field = true) :
    id ∈ s.hits tenancy tenant field value ↔ id ∈ s.holders tenant field value ∨
      (∀ other, other ∉ s.holders tenant field value) ∧
        id ∈ s.holders tenant field (LookupHash.of value) := by
  rw [← List.eq_nil_iff_forall_not_mem, hits, if_pos hscope]
  by_cases hnone : s.holders tenant field value = []
  · simp only [hnone, if_true, List.not_mem_nil, true_and, false_or]
  · simp only [hnone, if_false, false_and, or_false]

end Store

/-! ## Searches -/

namespace Work

open Vault

variable {r : Except KeyError Key} {v : Vault}

/-- A search finds the hits and changes nothing. -/
theorem search_run (h : v.Calm r) (tenant : TenantId) (field : FieldName) (value : String) :
    search tenant field value v = .ok (v.store.hits v.tenancy tenant field value) v := by
  have hasked : inScope tenant field v = .ok (v.tenancy.inScope tenant field) v := rfl
  rw [search, run_bind_of_ok (holders_run h tenant field value), Store.hits]
  cases hholders : v.store.holders tenant field value with
  | nil =>
    rw [if_pos rfl]
    simp only [run_bind_of_ok hasked]
    split
    · exact holders_run h tenant field _
    · rfl
  | cons id ids =>
    rw [if_neg (List.cons_ne_nil id ids)]
    rfl

/-- The first hit is found. -/
theorem findOwner_run (h : v.Calm r) (tenant : TenantId) (field : FieldName) (value : String) :
    findOwner tenant field value v =
      .ok (v.store.hits v.tenancy tenant field value).head? v :=
  run_bind_of_ok (search_run h tenant field value) _

end Work

end FieldVault

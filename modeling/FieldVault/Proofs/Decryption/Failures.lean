/-
Which fields fail, and how a tenant that is decrypted reports them.

A field fails if a shadow record stands beside the lookup hash in it and does not verify. These are
the fields that a lenient reading withholds, in the order of their names, so the one that an owner
is reported with is the first of them. Owners come in the order of their ids and each is reported
once at most, which makes the report a list of the failing owners. An owner that does not fail
counts as visited if decrypting it changes anything, and that can be seen on the owner itself.
-/
import FieldVault.Proofs.Decryption.Tenant

set_option autoImplicit false

namespace FieldVault

open Vault

variable {k : Key} {v : Vault} {owner : Owner} {field : FieldName}

/-! ## Failing fields -/

namespace Vault

/-- The field holds a lookup hash, and the shadow record beside it does not verify. -/
def Fails (v : Vault) (owner : Owner) (field : FieldName) : Prop :=
  ∃ shadow, v.store.shadow? owner.id field = some shadow ∧
    isStale (owner.value field) = false ∧
    (FieldCipher.verify (owner.value field) shadow.ciphertext v.cipher).1 = false

/-- The field fails, and none before it in the order of the names does. -/
structure FailsFirst (v : Vault) (owner : Owner) (field : FieldName) : Prop where
  fails : v.Fails owner field
  first : ∀ other, v.Fails owner other → compare other field ≠ .lt

end Vault

namespace Store

/-- A lenient reading withholds the fields that fail. -/
theorem mem_unreadable_iff_fails (h : v.Calm (.ok k)) (ho : v.store.owner? owner.id = some owner) :
    field ∈ (v.store.reading false (.ok k) owner).unreadable ↔ v.Fails owner field := by
  have hverify : ∀ shadow, (Work.verifiedShadow k owner shadow).toOption.isNone = true ↔
      (FieldCipher.verify (owner.value shadow.field) shadow.ciphertext v.cipher).1 = false := by
    intro shadow
    rw [FieldCipher.verify_eq h.answers ⟨owner.tenant, owner.id, shadow.field⟩,
      Work.verifiedShadow]
    cases verified (.ok k) ⟨owner.tenant, owner.id, shadow.field⟩ (owner.value shadow.field)
      shadow.ciphertext <;> simp [Except.toOption, Except.map]
  rw [Work.unreadable_lenient ho, List.mem_map]
  simp only [List.mem_filter, mem_liveShadows_iff ho, Cell.live?_eq_some_iff, stored_cell ho,
    hverify]
  constructor
  · rintro ⟨shadow, ⟨⟨hshadow, hstale⟩, hfails⟩, rfl⟩
    exact ⟨shadow, hshadow, hstale, hfails⟩
  · rintro ⟨shadow, hshadow, hstale, hfails⟩
    have hname := field_of_shadow? hshadow
    subst hname
    exact ⟨shadow, ⟨⟨hshadow, hstale⟩, hfails⟩, rfl⟩

theorem unreadable_eq_nil_iff (h : v.Calm (.ok k)) (ho : v.store.owner? owner.id = some owner) :
    (v.store.reading false (.ok k) owner).unreadable = [] ↔ ¬∃ field, v.Fails owner field := by
  rw [List.eq_nil_iff_forall_not_mem, not_exists]
  simp only [mem_unreadable_iff_fails h ho]

theorem ascending_unreadable_lenient {s : Store} (ho : s.owner? owner.id = some owner) :
    Ascending (s.reading false (.ok k) owner).unreadable := by
  rw [Work.unreadable_lenient ho]
  exact List.Pairwise.sublist (List.filter_sublist.map _) (ascending_liveNames s owner)

theorem unreadable_eq_cons_iff (h : v.Calm (.ok k)) (ho : v.store.owner? owner.id = some owner) :
    (∃ rest, (v.store.reading false (.ok k) owner).unreadable = field :: rest) ↔
      v.FailsFirst owner field := by
  rw [(ascending_unreadable_lenient ho).eq_cons_iff]
  simp only [mem_unreadable_iff_fails h ho]
  exact ⟨fun hfirst => ⟨hfirst.1, hfirst.2⟩, fun hfirst => ⟨hfirst.fails, hfirst.first⟩⟩

/-! ## Reported failures -/

theorem mem_failuresOf_iff (h : v.Calm (.ok k)) (ho : v.store.owner? owner.id = some owner)
    {ref : FieldRef} :
    ref ∈ v.store.failuresOf k owner.id ↔ ref.tenant = owner.tenant ∧ ref.owner = owner.id ∧
      v.FailsFirst owner ref.field := by
  simp only [← unreadable_eq_cons_iff h ho, failuresOf, ho]
  obtain ⟨tenant, id, field⟩ := ref
  cases (v.store.reading false (.ok k) owner).unreadable with
  | nil => simp
  | cons first rest =>
    rw [List.take_succ_cons, List.take_zero, List.map_singleton, List.mem_singleton,
      FieldRef.mk.injEq]
    simp only [List.cons.injEq, exists_and_left, exists_eq', and_true, eq_comm]

theorem mem_failures_iff_failsFirst (h : v.Calm (.ok k)) {tenant : TenantId} {ref : FieldRef} :
    ref ∈ (v.store.ownersIn tenant).flatMap (v.store.failuresOf k) ↔
      ref.tenant = tenant ∧ ∃ owner, v.store.owner? ref.owner = some owner ∧
        owner.tenant = tenant ∧ v.FailsFirst owner ref.field := by
  rw [mem_failures_iff, mem_ownersIn_iff]
  constructor
  · rintro ⟨⟨owner, ho, htenant⟩, href⟩
    have hid := id_of_owner? ho
    rw [← hid] at href
    obtain ⟨htenant', -, hfirst⟩ := (mem_failuresOf_iff h (hid ▸ ho)).1 href
    exact ⟨htenant'.trans htenant, owner, ho, htenant, hfirst⟩
  · rintro ⟨htenant', owner, ho, htenant, hfirst⟩
    refine ⟨⟨owner, ho, htenant⟩, ?_⟩
    have hid := id_of_owner? ho
    rw [← hid]
    exact (mem_failuresOf_iff h (hid ▸ ho)).2 ⟨htenant'.trans htenant.symm, hid.symm, hfirst⟩

/-- Each owner is reported once at most, in the order of the owners. -/
theorem owners_failures (s : Store) (k : Key) (ids : List OwnerId) :
    (ids.flatMap (s.failuresOf k)).map FieldRef.owner =
      ids.filter fun id => !(s.failuresOf k id).isEmpty := by
  induction ids with
  | nil => rfl
  | cons id ids ih =>
    have hid : (s.failuresOf k id).map FieldRef.owner =
        bif (s.failuresOf k id).isEmpty then [] else [id] := by
      rw [failuresOf]
      cases s.owner? id with
      | none => rfl
      | some owner =>
        simp only
        cases (s.reading false (.ok k) owner).unreadable <;> rfl
    rw [List.flatMap_cons, List.map_append, ih, hid, List.filter_cons]
    cases (s.failuresOf k id).isEmpty <;> rfl

theorem ascending_failures (s : Store) (k : Key) (tenant : TenantId) :
    Ascending (((s.ownersIn tenant).flatMap (s.failuresOf k)).map FieldRef.owner) := by
  rw [owners_failures]
  exact (ascending_ownersIn s tenant).filter _

/-! ## Visited owners -/

theorem restored_eq_iff {s : Store} (ho : s.owner? owner.id = some owner)
    (hreadable : (s.reading false (.ok k) owner).unreadable = []) :
    (∀ field, s.restored k owner field = s.cell owner.id field) ↔ s.decryptChanges k owner = 0 := by
  simp only [restored, if_pos hreadable]
  exact (decryptChanges_eq_zero_iff ho).symm

/-- Decrypting an owner visits it if it fails or changes. -/
theorem ownersVisited_decryptReport {s t : Store} (ho : s.owner? owner.id = some owner)
    (hhead : t.head? owner.id = s.head? owner.id)
    (hcells : ∀ field, t.cell owner.id field = s.restored k owner field) :
    (s.decryptReport k owner.id).ownersVisited = (s.decryptReport k owner.id).failures.length +
      if t.view? owner.id ≠ s.view? owner.id then 1 else 0 := by
  have hview := view?_eq_iff ho hhead
  simp only [hcells] at hview
  cases hu : (s.reading false (.ok k) owner).unreadable with
  | nil =>
    rw [decryptReport_of_readable ho hu]
    rw [restored_eq_iff ho hu] at hview
    by_cases hzero : s.decryptChanges k owner = 0
    · rw [if_neg (not_not.2 (hview.2 hzero)), hzero]
      rfl
    · rw [if_pos (mt hview.1 hzero), Report.restoring, if_neg hzero]
      rfl
  | cons field rest =>
    have hsame : t.view? owner.id = s.view? owner.id := by
      refine hview.2 fun field => ?_
      rw [restored, hu, if_neg (List.cons_ne_nil _ _)]
    rw [decryptReport_of_unreadable ho hu, if_neg (not_not.2 hsame)]
    rfl

end Store

end FieldVault

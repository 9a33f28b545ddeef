/-
Owners can be encrypted in any order, and more than once.

A host may shard a migration or mix it with events, so the owners of a tenant come up in an order
of their own and some come up again. Each unit of work finds its owner as it was at the start, if
it is the first one for that owner, because the others touch other cells; or as an earlier unit
left it, and then there is nothing to do. So a list of owners ends where its set of owners ends,
and the changes that are counted on the way are those of each owner once. Encrypting the tenant is
one such list. What is drawn at random on the way differs, so the two ends are twins and not equal.
-/
import Mathlib.Algebra.BigOperators.Group.Finset.Basic
import FieldVault.Proofs.Idempotence
import FieldVault.Proofs.Twins

set_option autoImplicit false

namespace FieldVault

open Vault

variable {k : Key} {v v' : Vault}

/-! ## Once more -/

namespace Cell

variable {c c' c'' : Cell}

/-- There is nothing for encrypting to do in a settled cell. -/
theorem Settled.eq_of_encryptsTo {inScope : Bool} (h : Settled k inScope c)
    (h' : EncryptsTo k inScope c c') : c' = c := by
  rcases h'.cases with ⟨text, hs, -⟩ | ⟨-, hswept⟩
  · rw [h.sealable] at hs
    cases hs
  · rw [hswept, h.swept]

/-- Migrating a second time changes nothing. -/
theorem MigratesTo.absorb {tenancy : Tenancy} {head : TenantId × Bool} {field : FieldName}
    (h : MigratesTo k tenancy head field c c') (h' : MigratesTo k tenancy head field c' c'') :
    c'' = c' := by
  unfold MigratesTo at h h'
  split at h
  · rename_i henabled
    rw [if_pos henabled] at h'
    exact h.settled.eq_of_encryptsTo h'
  · rename_i henabled
    rw [if_neg henabled] at h'
    exact h'

end Cell

/-! ## Counting changes -/

namespace Store

/-- The number of changes that encrypting an owner makes. -/
def encryptChanges (s : Store) (k : Key) (tenancy : Tenancy) (id : OwnerId) : Nat :=
  match s.owner? id with
  | none => 0
  | some owner => (s.encryptReport k tenancy owner).fieldsChanged

theorem encryptChanges_of_some {s : Store} {id : OwnerId} {owner : Owner} (tenancy : Tenancy)
    (ho : s.owner? id = some owner) :
    s.encryptChanges k tenancy id = (s.encryptReport k tenancy owner).fieldsChanged := by
  unfold encryptChanges
  rw [ho]

end Store

namespace Work

/-- An owner that was encrypted has nothing left to change. -/
theorem encryptChanges_of_migrated {id : OwnerId} {owner : Owner}
    (ho : v.store.owner? id = some owner) (hwrites : Writes (.ok k) (fun id' _ => id' = id) v v')
    (hcells : ∀ field, Cell.MigratesTo k v.tenancy (owner.tenant, owner.serviceAccount) field
      (v.store.cell id field) (v'.store.cell id field)) :
    v'.store.encryptChanges k v'.tenancy id = 0 := by
  obtain ⟨owner', ho', htenant, hservice⟩ :=
    Store.exists_owner_of_head?_eq ho (hwrites.off.heads id)
  have hsettled : OwnerSettled k v' owner' :=
    ownerSettled_of_migrated ho' hwrites.tenancy htenant hservice hcells
  -- Running it once more only reads, and what it reports is what it would count.
  obtain ⟨report, hreads, hzero⟩ := encryptOwnerIn_reads hwrites.calm ho' hsettled
  obtain ⟨w, hrun, -⟩ := encryptOwnerIn_run hwrites.calm ho'
  rw [hreads.run] at hrun
  cases hrun
  rw [Store.encryptChanges_of_some _ ho', hzero]

/-- An owner that another unit of work left alone has the same changes ahead. -/
theorem encryptChanges_of_off {id id' : OwnerId}
    (hwrites : Writes (.ok k) (fun other _ => other = id) v v') (hne : id' ≠ id) :
    v'.store.encryptChanges k v'.tenancy id' = v.store.encryptChanges k v.tenancy id' := by
  have howner : v'.store.owner? id' = v.store.owner? id' := hwrites.off.owner?_eq fun _ => hne
  unfold Store.encryptChanges
  rw [howner]
  cases ho : v.store.owner? id' with
  | none => rfl
  | some owner =>
    have hid := Store.id_of_owner? ho
    subst hid
    have hcells : ∀ field, v'.store.cell owner.id field = v.store.cell owner.id field :=
      fun field => hwrites.off.cells owner.id field hne
    simp only [Store.encryptReport_of_cells _ hcells, hwrites.tenancy]

/-! ## Lists of owners -/

/-- The cells of these owners are migrated, from what they were in the first vault. -/
def Migrates (k : Key) (ids : List OwnerId) (v v' : Vault) : Prop :=
  ∀ id ∈ ids, ∀ owner, v.store.owner? id = some owner → ∀ field,
    Cell.MigratesTo k v.tenancy (owner.tenant, owner.serviceAccount) field
      (v.store.cell id field) (v'.store.cell id field)

section Cons

variable {id : OwnerId} {rest : List OwnerId} {w : Vault}
  (hwrites : Writes (.ok k) (fun id' _ => id' = id) v v')
include hwrites

/-- After the first owner the others are as they were, and what is left to do for the first one
again is nothing. -/
theorem Migrates.cons (hwrites' : Writes (.ok k) (fun id' _ => id' ∈ rest) v' w)
    (hfirst : Migrates k [id] v v') (hrest : Migrates k rest v' w) :
    Migrates k (id :: rest) v w := by
  intro id' hid owner ho field
  obtain ⟨owner', ho', htenant, hservice⟩ :=
    Store.exists_owner_of_head?_eq ho (hwrites.off.heads id')
  have hlater : id' ∈ rest → Cell.MigratesTo k v.tenancy (owner.tenant, owner.serviceAccount)
      field (v'.store.cell id' field) (w.store.cell id' field) := by
    intro hmem
    have hcell := hrest id' hmem owner' ho' field
    rwa [hwrites.tenancy, htenant, hservice] at hcell
  by_cases hsame : id' = id
  · have hcell := hfirst id' (List.mem_singleton.2 hsame) owner ho field
    have hstays : w.store.cell id' field = v'.store.cell id' field := by
      by_cases hmem : id' ∈ rest
      · exact hcell.absorb (hlater hmem)
      · exact hwrites'.off.cells id' field hmem
    rw [hstays]
    exact hcell
  · have hcell := hlater ((List.mem_cons.1 hid).resolve_left hsame)
    rwa [hwrites.off.cells id' field hsame] at hcell

/-- The first unit counts the changes of its owner, and none of them is counted again. -/
theorem sum_encryptChanges_cons (hfirst : Migrates k [id] v v') {owner : Owner}
    (ho : v.store.owner? id = some owner) :
    v.store.encryptChanges k v.tenancy id +
        ∑ id' ∈ rest.toFinset, v'.store.encryptChanges k v'.tenancy id' =
      ∑ id' ∈ (id :: rest).toFinset, v.store.encryptChanges k v.tenancy id' := by
  have hzero : v'.store.encryptChanges k v'.tenancy id = 0 :=
    encryptChanges_of_migrated ho hwrites (hfirst id List.mem_cons_self owner ho)
  have hothers : ∑ id' ∈ rest.toFinset, v'.store.encryptChanges k v'.tenancy id' =
      ∑ id' ∈ rest.toFinset.erase id, v.store.encryptChanges k v.tenancy id' := by
    rw [← Finset.sum_erase rest.toFinset hzero]
    apply Finset.sum_congr rfl
    intro id' hid
    exact encryptChanges_of_off hwrites (Finset.ne_of_mem_erase hid)
  have hmem : id ∈ (id :: rest).toFinset := List.mem_toFinset.2 List.mem_cons_self
  rw [hothers, ← Finset.add_sum_erase _ _ hmem, List.toFinset_cons, Finset.erase_insert_eq_erase]

end Cons

/-- **Encrypting a list of owners**, in any order and with repetitions, migrates the cells of each
of them as they were at the start, and counts the changes of each of them once. -/
theorem encryptOwners_run (h : v.Calm (.ok k)) {ids : List OwnerId}
    (hids : ∀ id ∈ ids, ∃ owner, v.store.owner? id = some owner) :
    ∃ reports w, each encryptOwner ids v = .ok reports w ∧
      Writes (.ok k) (fun id _ => id ∈ ids) v w ∧ Migrates k ids v w ∧
      (reports.map Report.fieldsChanged).sum =
        ∑ id ∈ ids.toFinset, v.store.encryptChanges k v.tenancy id := by
  induction ids generalizing v with
  | nil =>
    refine ⟨[], v, rfl, .refl h, ?_, rfl⟩
    intro id hid
    cases hid
  | cons id rest ih =>
    obtain ⟨owner, ho⟩ := hids id List.mem_cons_self
    obtain ⟨v₁, hrun, hwrites, hcells⟩ := encryptOwner_run_report h ho
    have hfirst : Migrates k [id] v v₁ := by
      intro id' hid owner' ho' field
      cases List.mem_singleton.1 hid
      cases ho.symm.trans ho'
      exact hcells field
    have hstill : ∀ id' ∈ rest, ∃ owner, v₁.store.owner? id' = some owner := by
      intro id' hid
      obtain ⟨owner', ho'⟩ := hids id' (List.mem_cons_of_mem id hid)
      obtain ⟨owner₁, ho₁, -⟩ := Store.exists_owner_of_head?_eq ho' (hwrites.off.heads id')
      exact ⟨owner₁, ho₁⟩
    obtain ⟨reports, w, hruns, hwrites', hrest, hsum⟩ := ih hwrites.calm hstill
    refine ⟨v.store.encryptReport k v.tenancy owner :: reports, w, ?_, ?_,
      hfirst.cons hwrites hwrites' hrest, ?_⟩
    · rw [each, run_bind_of_ok hrun, run_bind_of_ok hruns]
      rfl
    · exact (hwrites.mono fun id' _ hid' => hid' ▸ List.mem_cons_self).trans
        (hwrites'.mono fun id' _ hid' => List.mem_cons_of_mem id hid')
    · rw [List.map_cons, List.sum_cons, hsum, ← Store.encryptChanges_of_some _ ho,
        sum_encryptChanges_cons hwrites hfirst ho]

/-- **Encrypting a tenant is encrypting its owners in any order.** From every state of the store,
with the tenant enabled and a key at hand: take any list of owners of the tenant in which each of
them occurs, however often and in whatever order. Encrypting them one after the other succeeds, as
encrypting the tenant does, and ends with the same records, with shadow records for the same fields,
and with ciphertexts that decrypt to the same; and the changes that the single reports count add up
to those that the report on the tenant counts. -/
theorem encryptAll_confluent (h : v.Calm (.ok k)) {tenant : TenantId}
    (henabled : v.tenancy.enabled tenant = true) {ids : List OwnerId}
    (hids : ∀ id, id ∈ ids ↔ id ∈ v.store.ownersIn tenant) :
    ∃ report v' reports w, encryptAll tenant v = .ok report v' ∧
      each encryptOwner ids v = .ok reports w ∧ v'.SameContents w ∧
      (reports.map Report.fieldsChanged).sum = report.fieldsChanged := by
  have howners : ∀ id ∈ v.store.ownersIn tenant, ∃ owner, v.store.owner? id = some owner := by
    intro id hid
    obtain ⟨owner, ho, -⟩ := Store.mem_ownersIn_iff.1 hid
    exact ⟨owner, ho⟩
  obtain ⟨all, v', hall, hwrites, hcells, hsum⟩ := encryptOwners_run h howners
  obtain ⟨reports, w, hrun, hwrites', hcells', hsum'⟩ :=
    encryptOwners_run h fun id hid => howners id ((hids id).1 hid)
  have hasked : isEnabled tenant v = .ok true v := by
    unfold isEnabled
    rw [henabled]
  refine ⟨Report.sum all, v', reports, w, ?_, hrun, ?_, ?_⟩
  · rw [encryptAll, run_bind_of_ok hasked, if_pos rfl, run_bind_of_ok (ownersIn_run h tenant)]
    exact tally_run_of_each hall
  · refine .of_twins hwrites.calm hwrites'.calm (fun id => ?_) fun id field => ?_
    · rw [hwrites'.off.heads, hwrites.off.heads]
    · by_cases hid : id ∈ v.store.ownersIn tenant
      · obtain ⟨owner, ho⟩ := howners id hid
        exact (Cell.Twin.refl _).migrated (hcells id hid owner ho field)
          (hcells' id ((hids id).2 hid) owner ho field)
      · rw [hwrites.off.cells id field hid, hwrites'.off.cells id field (mt (hids id).1 hid)]
        exact .refl _
  · have hsame : ids.toFinset = (v.store.ownersIn tenant).toFinset := by
      ext id
      rw [List.mem_toFinset, List.mem_toFinset, hids]
    rw [hsum', hsame, ← hsum, Report.fieldsChanged_sum]

/-- Two owners, encrypted in the other order and one of them twice. -/
theorem encryptAll_confluent_alice_bob :
    let k : Key := ⟨List.replicate 16 7, .inl rfl⟩
    let alice : Owner := ⟨"alice", "acme", false, Registry.empty.file ⟨"email", some "a@acme"⟩⟩
    let bob : Owner := ⟨"bob", "acme", false, Registry.empty.file ⟨"email", some "b@acme"⟩⟩
    let v := settled k ((({} : Store).putOwner alice).putOwner bob)
      (Tenancy.none.setEnabled "acme" true)
    (∀ id, id ∈ ["bob", "alice", "bob"] ↔ id ∈ v.store.ownersIn "acme") ∧
      ∃ report v' reports w, encryptAll "acme" v = .ok report v' ∧
        each encryptOwner ["bob", "alice", "bob"] v = .ok reports w ∧ v'.SameContents w ∧
        (reports.map Report.fieldsChanged).sum = report.fieldsChanged := by
  intro k alice bob v
  have howners : v.store.ownersIn "acme" = ["alice", "bob"] := by decide +revert
  have hids : ∀ id, id ∈ ["bob", "alice", "bob"] ↔ id ∈ v.store.ownersIn "acme" := by
    intro id
    rw [howners]
    simp only [List.mem_cons, List.not_mem_nil, or_false]
    tauto
  exact ⟨hids, encryptAll_confluent (calm_settled k _ _) rfl hids⟩

end Work

end FieldVault

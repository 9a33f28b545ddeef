/-
Where a migration stops.

A tenant is migrated owner by owner, each in a unit of work of its own. Whatever goes wrong goes
wrong in one of the units, or before the first; that unit leaves the store as it found it, and no
other follows. So however a migration ends, it has handled the first few of the owners and left the
rest. Those units all succeeded, hence they ran as they would have run undisturbed, and what is
known of undisturbed runs tells what became of each owner.
-/
import FieldVault.Proofs.Encryption.Confluence
import FieldVault.Proofs.Steady
import FieldVault.Proofs.Tolerance

set_option autoImplicit false

namespace FieldVault

open Vault

variable {α β : Type} {k : Key} {tenant : TenantId} {done rest : List OwnerId} {v v' : Vault}

theorem KeyProvider.exists_allows (p : KeyProvider) : ∃ k, p.Allows (.ok k) := by
  cases hk : p.key with
  | some k =>
    refine ⟨k, fun k' hk' => ?_⟩
    rw [hk] at hk'
    cases hk'
    rfl
  | none =>
    refine ⟨⟨List.replicate 16 0, .inl rfl⟩, fun k' hk' => ?_⟩
    rw [hk] at hk'
    cases hk'

namespace Work

/-! ## The store in a failure -/

/-- However the work ends, the store is as it was. -/
def KeepsStore (work : Work α) : Prop := ∀ v, (after work v).store = v.store

/-- If the work fails, the store is as it was. -/
def Atomic (work : Work α) : Prop :=
  ∀ v e, answer work v = .error e → (after work v).store = v.store

theorem KeepsStore.bind {work : Work α} {next : α → Work β} (h : KeepsStore work)
    (hnext : ∀ a, KeepsStore (next a)) : KeepsStore (work >>= next) := by
  intro v
  rw [after_bind]
  cases answer work v with
  | ok a => exact (hnext a _).trans (h v)
  | error e => exact h v

theorem attempt_keepsStore (call : Call) : KeepsStore (attempt call) := by
  intro v
  obtain ⟨outages, hafter⟩ := after_attempt call v
  rw [hafter]

theorem ensureServing_keepsStore : KeepsStore ensureServing := by
  intro v
  rw [after_ensureServing]

theorem KeepsStore.atomic {work : Work α} (h : KeepsStore work) : Atomic work := fun v _ _ => h v

theorem Atomic.bind {work : Work α} {next : α → Work β} (h : KeepsStore work)
    (hnext : ∀ a, Atomic (next a)) : Atomic (work >>= next) := by
  intro v e he
  cases ha : answer work v with
  | ok a =>
    rw [answer_bind_of_ok ha] at he
    rw [after_bind_of_ok ha, hnext a _ e he, h]
  | error e' => rw [after_bind_of_error ha, h]

/-- A unit of work brings the store back, whatever its work did. -/
theorem transaction_atomic (work : Work α) : Atomic (transaction work) := by
  have hbegin : KeepsStore begin :=
    (attempt_keepsStore .transaction).bind fun _ => ensureServing_keepsStore
  rw [transaction_eq]
  refine .bind hbegin fun _ v e he => ?_
  rw [answer_undoing] at he
  rw [after_undoing, he]

theorem decryptOwner_atomic (id : OwnerId) : Atomic (decryptOwner id) := by
  intro v e he
  rw [store_after_decryptOwner]
  cases ha : answer (transaction (decryptOwnerIn id)) v with
  | error e' => exact transaction_atomic _ v e' ha
  | ok report =>
    have hunit : answer (outcome (transaction (decryptOwnerIn id))) v = .ok (.ok report) := by
      rw [answer_outcome, ha]
    rw [decryptOwner, answer_bind_of_ok hunit] at he
    cases he

/-! ## Loops -/

/-- A loop that fails has run its first items, and fails at the next one. -/
theorem each_error {work : α → Work β} {items : List α} {e : Error}
    (h : answer (each work items) v = .error e) :
    ∃ done a rest bs w, items = done ++ a :: rest ∧ each work done v = .ok bs w ∧
      answer (work a) w = .error e ∧ after (each work items) v = after (work a) w := by
  induction items generalizing v with
  | nil => cases h
  | cons a as ih =>
    rw [each] at h ⊢
    cases ha : answer (work a) v with
    | error e' =>
      rw [answer_bind_of_error ha] at h
      cases h
      exact ⟨[], a, as, [], v, rfl, rfl, ha, after_bind_of_error ha _⟩
    | ok b =>
      rw [answer_bind_of_ok ha] at h
      rw [after_bind_of_ok ha]
      cases has : answer (each work as) (after (work a) v) with
      | ok bs =>
        rw [answer_bind_of_ok has] at h
        cases h
      | error e' =>
        rw [answer_bind_of_error has] at h
        cases h
        obtain ⟨done, c, rest, bs, w, hitems, hdone, hc, hafter⟩ := ih has
        refine ⟨a :: done, c, rest, b :: bs, w, by rw [hitems, List.cons_append], ?_, hc, ?_⟩
        · rw [each, run_bind_of_ok (run_of_answer ha), run_bind_of_ok hdone]
          rfl
        · rw [after_bind_of_error has, hafter]

/-- However a loop ends, its first items have run as they would have run undisturbed, and the store
is the one that they left. -/
theorem each_stops {work : α → Work β} (hsteady : ∀ a, Steady (work a))
    (hatomic : ∀ a, Atomic (work a)) (items : List α) (v : Vault) :
    ∃ done rest, items = done ++ rest ∧
      (∀ bs, answer (each work items) v = .ok bs → rest = []) ∧
      ∀ r, (after (each work items) v).cipher.keys.Allows r →
        ∃ bs u, each work done (v.calmed r) = .ok bs u ∧
          u.store = (after (each work items) v).store := by
  have hrun : ∀ done bs, answer (each work done) v = .ok bs → ∀ r,
      (after (each work done) v).cipher.keys.Allows r →
        ∃ bs u, each work done (v.calmed r) = .ok bs u ∧
          u.store = (after (each work done) v).store := by
    intro done bs hbs r hallows
    obtain ⟨hanswer, hafter⟩ := (Steady.each hsteady done).runs r v (v.calmed r)
      (calmed_calmed r v) hallows (hbs ▸ undisturbed_ok bs)
    exact ⟨bs, _, run_of_answer (hanswer.trans hbs), hafter.store⟩
  cases ha : answer (each work items) v with
  | ok bs =>
    exact ⟨items, [], (List.append_nil items).symm, fun _ _ => rfl, hrun items bs ha⟩
  | error e =>
    obtain ⟨done, a, rest, bs, w, hitems, hdone, hfails, hafter⟩ := each_error ha
    refine ⟨done, a :: rest, hitems, fun _ hok => (by cases hok), fun r hallows => ?_⟩
    -- The unit that failed leaves the store, and whatever key it leaves was allowed before.
    have hw := after_of_run hdone
    rw [hafter] at hallows ⊢
    rw [hatomic a w e hfails, ← hw]
    refine hrun done bs (answer_of_run hdone) r ?_
    rw [hw]
    exact (hsteady a).allows hallows

theorem after_tally {α : Type} (work : α → Work Report) (items : List α) (v : Vault) :
    after (tally work items) v = after (each work items) v := by
  rw [tally, after_bind]
  cases answer (each work items) v <;> rfl

/-- Asking for the owners of a tenant answers with them or with a failure of the store. -/
theorem ownersIn_cases (tenant : TenantId) (v : Vault) :
    (∃ outages, after (ownersIn tenant) v = { v with outages }) ∧
      ((∃ e, answer (ownersIn tenant) v = .error (.store e)) ∨
        answer (ownersIn tenant) v = .ok (v.store.ownersIn tenant)) := by
  simp only [after, answer, ownersIn, bind, EStateM.bind, attempt]
  rcases v.outages.meet .ownersIn with ⟨e | _, outages⟩
  · exact ⟨⟨outages, rfl⟩, .inl ⟨e, rfl⟩⟩
  · simp only [ensureServing, fromStore]
    cases v.poisoned with
    | true => exact ⟨⟨outages, rfl⟩, .inl ⟨.poisoned, rfl⟩⟩
    | false => exact ⟨⟨outages, rfl⟩, .inr rfl⟩

end Work

/-! ## Tenants -/

namespace Vault

/-- The first owners of a tenant were handled and the rest were not: the store is the one that
handling these makes where nothing is out of order, and where every request for the key gets an
answer that agrees with the key that is settled in the end. -/
structure StoppedAfter (work : OwnerId → Work Report) (tenant : TenantId)
    (done rest : List OwnerId) (v v' : Vault) : Prop where
  owners : v.store.ownersIn tenant = done ++ rest
  handled : ∀ r, v'.cipher.keys.Allows r →
    ∃ reports u, Work.each work done (v.calmed r) = .ok reports u ∧ u.store = v'.store

theorem StoppedAfter.exists_owner {work : OwnerId → Work Report}
    (h : StoppedAfter work tenant done rest v v') {id : OwnerId} (hid : id ∈ done) :
    ∃ owner, v.store.owner? id = some owner ∧ owner.tenant = tenant := by
  refine Store.mem_ownersIn_iff.1 ?_
  rw [h.owners]
  exact List.mem_append_left rest hid

theorem StoppedAfter.nodup {work : OwnerId → Work Report}
    (h : StoppedAfter work tenant done rest v v') : (done ++ rest).Nodup := by
  rw [← h.owners]
  exact (Store.ascending_ownersIn v.store tenant).nodup

theorem StoppedAfter.not_mem_done {work : OwnerId → Work Report}
    (h : StoppedAfter work tenant done rest v v') {id : OwnerId} (hid : id ∈ rest) : id ∉ done :=
  fun hdone => List.disjoint_of_nodup_append h.nodup hdone hid

/-- What encrypting the first owners of a tenant makes of the cells. -/
theorem StoppedAfter.encrypted (h : StoppedAfter Work.encryptOwner tenant done rest v v')
    (hallows : v'.cipher.keys.Allows (.ok k)) :
    v.store.SameOff (fun id _ => id ∈ done) v'.store ∧ Work.Migrates k done v v' := by
  obtain ⟨reports, u, hrun, hstore⟩ := h.handled _ hallows
  obtain ⟨reports', w, hrun', hwrites, hcells, -⟩ := Work.encryptOwners_run
    (calmed_calmed (.ok k) v).calm fun id hid => (h.exists_owner hid).imp fun _ => And.left
  cases hrun.symm.trans hrun'
  unfold Work.Migrates
  rw [← hstore]
  exact ⟨hwrites.off, hcells⟩

/-- What decrypting the first owners of a tenant makes of the cells. -/
theorem StoppedAfter.decrypted (h : StoppedAfter Work.decryptOwner tenant done rest v v')
    (hallows : v'.cipher.keys.Allows (.ok k)) :
    v.store.SameOff (fun id _ => id ∈ done) v'.store ∧
      ∀ owner, v.store.owner? owner.id = some owner → owner.id ∈ done → ∀ field,
        v'.store.cell owner.id field = v.store.restored k owner field := by
  obtain ⟨reports, u, hrun, hstore⟩ := h.handled _ hallows
  obtain ⟨w, hrun', hwrites, hcells⟩ := Work.decryptOwners_run
    (calmed_calmed (.ok k) v).calm (List.Nodup.of_append_left h.nodup)
    fun id hid => (h.exists_owner hid).imp fun _ => And.left
  cases hrun.symm.trans hrun'
  rw [← hstore]
  exact ⟨hwrites.off, hcells⟩

end Vault

namespace Work

section Tenant

variable {work : OwnerId → Work Report} (hsteady : ∀ id, Steady (work id))
  (hatomic : ∀ id, Atomic (work id)) (tenant : TenantId) (v : Vault)
include hsteady hatomic

/-- A loop over the owners of a tenant stops after the first few, or after all if it succeeds. -/
theorem tallyOwners_stops {run : Work Report}
    (hrun : run = do tally work (← ownersIn tenant)) :
    ∃ done rest, StoppedAfter work tenant done rest v (after run v) ∧
      ∀ report, answer run v = .ok report → rest = [] := by
  subst hrun
  obtain ⟨⟨outages, hafter⟩, ⟨e, he⟩ | hok⟩ := ownersIn_cases tenant v
  · refine ⟨[], v.store.ownersIn tenant, ⟨rfl, fun r _ => ⟨[], _, rfl, ?_⟩⟩, fun report hr => ?_⟩
    · rw [after_bind_of_error he, hafter]
      rfl
    · rw [answer_bind_of_error he] at hr
      cases hr
  · obtain ⟨done, rest, howners, hall, hhandled⟩ := each_stops hsteady hatomic
      (v.store.ownersIn tenant) (after (ownersIn tenant) v)
    refine ⟨done, rest, ⟨howners, ?_⟩, fun report hr => ?_⟩
    · rw [after_bind_of_ok hok, after_tally]
      -- The outages ahead are all that can have changed so far, and a calm vault has none.
      have hcalmed : ∀ r, (after (ownersIn tenant) v).calmed r = v.calmed r := by
        intro r
        rw [hafter]
        rfl
      intro r hallows
      rw [← hcalmed r]
      exact hhandled r hallows
    · rw [answer_bind_of_ok hok, tally] at hr
      cases has : answer (each work (v.store.ownersIn tenant)) (after (ownersIn tenant) v) with
      | ok reports => exact hall reports has
      | error e =>
        rw [answer_bind_of_error has] at hr
        cases hr

end Tenant

theorem decryptAll_stops (tenant : TenantId) (v : Vault) :
    ∃ done rest, StoppedAfter decryptOwner tenant done rest v (after (decryptAll tenant) v) ∧
      ∀ report, answer (decryptAll tenant) v = .ok report → rest = [] :=
  tallyOwners_stops decryptOwner_steady decryptOwner_atomic tenant v rfl

/-- Encrypting a tenant stops before the first owner if it is not enabled. -/
theorem encryptAll_stops (tenant : TenantId) (v : Vault) :
    ∃ done rest, StoppedAfter encryptOwner tenant done rest v (after (encryptAll tenant) v) ∧
      ∀ report, answer (encryptAll tenant) v = .ok report → v.tenancy.enabled tenant = true →
        rest = [] := by
  have henabled : isEnabled tenant v = .ok (v.tenancy.enabled tenant) v := rfl
  have hasked := answer_of_run henabled
  have hsame := after_of_run henabled
  cases he : v.tenancy.enabled tenant with
  | false =>
    rw [he] at hasked
    refine ⟨[], v.store.ownersIn tenant, ⟨rfl, fun r _ => ⟨[], _, rfl, ?_⟩⟩, ?_⟩
    · rw [encryptAll, after_bind_of_ok hasked, hsame]
      rfl
    · intro _ _ hno
      cases hno
  | true =>
    rw [he] at hasked
    obtain ⟨done, rest, hstopped, hall⟩ := tallyOwners_stops encryptOwner_steady
      (fun id => transaction_atomic (encryptOwnerIn id)) tenant v rfl
    rw [encryptAll, after_bind_of_ok hasked, answer_bind_of_ok hasked, hsame]
    exact ⟨done, rest, hstopped, fun report hr _ => hall report hr⟩

end Work

end FieldVault

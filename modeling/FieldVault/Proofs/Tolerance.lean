/-
One bad owner does not stop the others.

Decrypting a tenant goes through its owners one by one, and what it makes of each is what decrypting
that owner alone would have made of it: restored as a whole, or left as a whole because one of its
fields fails. No order of the owners leads anywhere else. Whoever runs the migration is told about
the bad owners twice, in the report and in the journal, with the same fields in the same order; and
the owners counted as visited are those that failed and those that changed.
-/
import FieldVault.Proofs.Decryption.Failures
import FieldVault.Proofs.Journal
import FieldVault.Proofs.Restoration

set_option autoImplicit false

namespace FieldVault

open Vault

variable {k : Key} {v v' : Vault} {owner : Owner} {tenant : TenantId}

namespace Vault

/-- What decrypting its tenant makes of an owner is what decrypting the owner alone would have made
of it. If one of its fields fails, everything that there is of it stays. If none fails, a lenient
read serves all its fields, and these are what the record holds now, without shadow records. -/
structure DecryptsAlone (v v' : Vault) (owner : Owner) : Prop where
  alone : v'.store.view? owner.id =
    (after (Work.transaction (Work.decryptOwnerIn owner.id)) v).store.view? owner.id
  kept : (∃ field, v.Fails owner field) → v'.store.view? owner.id = v.store.view? owner.id
  restored : (¬∃ field, v.Fails owner field) → ∃ served,
    answer (Work.loadOwnerPlain owner.id) { v with strict := false } = .ok ⟨served, []⟩ ∧
      v'.store.view? owner.id = some ⟨served, []⟩

/-- The report lists the owners of the tenant that fail, each once and in the order of their ids,
with the field that fails first. -/
structure ReportsFailures (v : Vault) (tenant : TenantId) (report : Report) : Prop where
  ascending : Ascending (report.failures.map FieldRef.owner)
  mem_iff : ∀ ref, ref ∈ report.failures ↔ ref.tenant = tenant ∧
    ∃ owner, v.store.owner? ref.owner = some owner ∧ owner.tenant = tenant ∧
      v.FailsFirst owner ref.field

end Vault

namespace Work

/-- What is done about a failed unit of work does not touch the store. -/
theorem store_after_decryptOwner (id : OwnerId) (v : Vault) :
    (after (decryptOwner id) v).store =
      (after (transaction (decryptOwnerIn id)) v).store := by
  have hunit : answer (outcome (transaction (decryptOwnerIn id))) v =
      .ok (answer (transaction (decryptOwnerIn id)) v) := answer_outcome _ v
  rw [decryptOwner, after_bind_of_ok hunit, after_outcome]
  cases answer (transaction (decryptOwnerIn id)) v with
  | ok report => rfl
  | error e => cases e <;> rfl

/-- An owner whose cells are restored is decrypted as it would be alone. -/
theorem decryptsAlone_of_restored (h : v.Calm (.ok k)) (ho : v.store.owner? owner.id = some owner)
    (hhead : v'.store.head? owner.id = v.store.head? owner.id)
    (hcells : ∀ field, v'.store.cell owner.id field = v.store.restored k owner field) :
    v.DecryptsAlone v' owner := by
  refine ⟨?_, fun hfails => ?_, fun hnone => ?_⟩
  · obtain ⟨w, hrun, hwrites, hcells₁⟩ := decryptOwner_run h ho
    rw [← store_after_decryptOwner, after_of_run hrun]
    obtain ⟨owner₁, ho₁, -⟩ := Store.exists_owner_of_head?_eq ho (hwrites.off.heads owner.id)
    have hhead₁ := hhead.trans (hwrites.off.heads owner.id).symm
    refine (Store.view?_eq_iff ho₁ hhead₁).2 fun field => ?_
    rw [hcells, hcells₁]
  · refine (Store.view?_eq_iff ho hhead).2 fun field => ?_
    rw [hcells, Store.restored, if_neg (mt (Store.unreadable_eq_nil_iff h ho).1 (not_not.2 hfails))]
  · have hreadable := (Store.unreadable_eq_nil_iff h ho).2 hnone
    have hdecrypted : ∀ field, v'.store.cell owner.id field =
        (v.store.cell owner.id field).decrypted k ⟨owner.tenant, owner.id, field⟩ := by
      intro field
      rw [hcells, Store.restored, if_pos hreadable]
    refine ⟨(v.store.reading false (.ok k) owner).owner, ?_, ?_⟩
    · rw [(loadOwnerPlain_reads_key (h.with_strict false) ho).answer, ← hreadable]
    · rw [Store.view?, owner?_of_decrypted ho hhead hdecrypted,
        Store.shadowsOf_eq_nil fun field => congrArg Cell.shadow (hdecrypted field)]
      rfl

/-- The owners of a tenant can be decrypted in any order: each is restored from where it was, and
the rest of the store is left alone. -/
theorem decryptOwners_of_perm (h : v.Calm (.ok k)) {report : Report}
    (hrun : decryptAll tenant v = .ok report v') {ids : List OwnerId}
    (hperm : ids.Perm (v.store.ownersIn tenant)) :
    ∃ reports w, each decryptOwner ids v = .ok reports w ∧ w.store = v'.store := by
  obtain ⟨_, hrun', hwrites, hcells⟩ := decryptAll_run_report h tenant
  cases hrun.symm.trans hrun'
  have hnodup := (Store.ascending_ownersIn v.store tenant).nodup
  obtain ⟨w, hrunw, hwritesw, hcellsw⟩ := decryptOwners_run h (hperm.nodup_iff.2 hnodup)
    fun id hid => by
      obtain ⟨owner, ho, -⟩ := Store.mem_ownersIn_iff.1 (hperm.mem_iff.1 hid)
      exact ⟨owner, ho⟩
  refine ⟨_, w, hrunw, Store.ext_cell (fun id => ?_) fun id field => ?_⟩
  · rw [hwritesw.off.heads, hwrites.off.heads]
  · by_cases hid : id ∈ v.store.ownersIn tenant
    · obtain ⟨owner, rfl, ho, htenant⟩ := Store.exists_of_mem_ownersIn hid
      rw [hcells owner ho htenant, hcellsw owner ho (hperm.mem_iff.2 hid)]
    · rw [hwrites.off.cells id field hid, hwritesw.off.cells id field (mt hperm.mem_iff.1 hid)]

theorem decryptAll_reportsFailures (h : v.Calm (.ok k)) {report : Report}
    (hrun : decryptAll tenant v = .ok report v') : v.ReportsFailures tenant report := by
  obtain ⟨_, _, hrun', hfailures, -⟩ := decryptAll_run h tenant
  cases hrun.symm.trans hrun'
  refine ⟨?_, fun ref => ?_⟩
  · rw [hfailures]
    exact Store.ascending_failures v.store k tenant
  · rw [hfailures]
    exact Store.mem_failures_iff_failsFirst h

/-- The owners visited are those that are reported and those that can be seen to have changed. -/
theorem decryptAll_visits (h : v.Calm (.ok k)) {report : Report}
    (hrun : decryptAll tenant v = .ok report v') :
    report.ownersVisited = report.failures.length +
      (v.store.ownersIn tenant).countP fun id => v'.store.view? id ≠ v.store.view? id := by
  obtain ⟨_, hrun', hwrites, hcells⟩ := decryptAll_run_report h tenant
  cases hrun.symm.trans hrun'
  refine Report.ownersVisited_sum fun id hid => ?_
  obtain ⟨owner, rfl, ho, htenant⟩ := Store.exists_of_mem_ownersIn hid
  rw [Store.ownersVisited_decryptReport ho (hwrites.off.heads owner.id) (hcells owner ho htenant)]
  simp only [decide_eq_true_eq]

/-- **Decrypting a tenant tolerates bad owners.** From every state of the store, with a key at hand:
it succeeds and touches no other tenant. Each owner ends as if it had been decrypted alone, whatever
the order; those that fail are reported and told about in the journal, one by one and in the same
order; and the owners visited are those that failed and those that changed. -/
theorem decryptAll_tolerates_failures (h : v.Calm (.ok k)) (tenant : TenantId) :
    ∃ report v', decryptAll tenant v = .ok report v' ∧
      v.store.SameOff (fun id _ => id ∈ v.store.ownersIn tenant) v'.store ∧
      (∀ owner, v.store.owner? owner.id = some owner → owner.tenant = tenant →
        v.DecryptsAlone v' owner) ∧
      (∀ ids : List OwnerId, ids.Perm (v.store.ownersIn tenant) →
        ∃ reports w, each decryptOwner ids v = .ok reports w ∧ w.store = v'.store) ∧
      v.ReportsFailures tenant report ∧
      v'.cipher.alarms = v.cipher.alarms ++ report.failures.map .integrityFailure ∧
      report.ownersVisited = report.failures.length +
        (v.store.ownersIn tenant).countP fun id => v'.store.view? id ≠ v.store.view? id := by
  obtain ⟨v', hrun, hwrites, hcells⟩ := decryptAll_run_report h tenant
  have hraised := decryptAll_raises tenant v _ (answer_of_run hrun)
  rw [after_of_run hrun] at hraised
  have halone : ∀ owner, v.store.owner? owner.id = some owner → owner.tenant = tenant →
      v.DecryptsAlone v' owner := fun owner ho htenant =>
    decryptsAlone_of_restored h ho (hwrites.off.heads owner.id) (hcells owner ho htenant)
  exact ⟨_, v', hrun, hwrites.off, halone, fun _ => decryptOwners_of_perm h hrun,
    decryptAll_reportsFailures h hrun, hraised, decryptAll_visits h hrun⟩

/-- Of two owners, one has a shadow record that holds no token: it is reported and kept. The other
one, whose shadow record verifies, is restored and not reported. -/
theorem decryptAll_tolerates_failures_alice :
    let k : Key := ⟨List.replicate 16 7, .inl rfl⟩
    let alice : Owner :=
      ⟨"alice", "acme", false, Registry.empty.file ⟨"email", some (LookupHash.of "a@acme")⟩⟩
    let bob : Owner :=
      ⟨"bob", "acme", false, Registry.empty.file ⟨"email", some (LookupHash.of "b@acme")⟩⟩
    let bad : Shadow := ⟨⟨Block.zero⟩, "alice", "email", "$$$"⟩
    let good : Shadow := ⟨⟨Block.zero⟩, "bob", "email", k.tokenText Block.zero "b@acme"⟩
    let v := settled k { (({} : Store).putOwner alice).putOwner bob with
      shadows := (Registry.empty.file bad).file good } .none
    ∃ report v', decryptAll "acme" v = .ok report v' ∧
      v'.store.view? "alice" = v.store.view? "alice" ∧
      ⟨"acme", "alice", "email"⟩ ∈ report.failures ∧
      (∃ served, v'.store.view? "bob" = some ⟨served, []⟩ ∧ served.value "email" = some "b@acme") ∧
      ∀ ref ∈ report.failures, ref.owner ≠ "bob" := by
  intro k alice bob bad good v
  have hcalm : v.Calm (.ok k) := calm_settled k _ _
  have halice : v.store.owner? alice.id = some alice :=
    (Store.owner?_putOwner_of_ne _ (by decide)).trans (Store.owner?_putOwner_self {} alice)
  have hbob : v.store.owner? bob.id = some bob := Store.owner?_putOwner_self _ bob
  have hhash : bob.value "email" = some (LookupHash.of "b@acme") :=
    Owner.value_write_self ⟨"bob", "acme", false, .empty⟩ "email" _
  have hreveal : reveal (.ok k) good.ciphertext = .ok "b@acme" :=
    reveal_tokenText k Block.zero "b@acme"
  have hshadows : v.store.shadows.toList = [bad, good] := by
    have hgt : compare (key good) (key bad) = .gt := by decide +kernel
    change Registry.place good [bad] = [bad, good]
    rw [Registry.place, hgt]
    rfl
  -- The one owner withholds the email, the other nothing.
  have hrefused : verified (.ok k) ⟨"acme", "alice", "email"⟩ (alice.value "email") "$$$" =
      .error (.integrity ⟨"acme", "alice", "email"⟩) := rfl
  have hfirst : v.FailsFirst alice "email" := by
    refine (Store.unreadable_eq_cons_iff hcalm halice).1 ⟨[], ?_⟩
    exact unreadable_of_single halice bad (by rw [Store.shadowsOf, hshadows]; rfl)
      (isStale_of "a@acme") hrefused
  have hverified : verified (.ok k) ⟨"acme", "bob", "email"⟩ (bob.value "email") good.ciphertext =
      .ok "b@acme" := by
    rw [hhash, verified_of hreveal]
  have hnone : ¬∃ field, v.Fails bob field := by
    refine (Store.unreadable_eq_nil_iff hcalm hbob).1 ?_
    exact unreadable_of_single hbob good (by rw [Store.shadowsOf, hshadows]; rfl)
      (hhash ▸ isStale_of "b@acme") hverified
  obtain ⟨report, v', hrun, -, halone, -, hreports, -⟩ :=
    decryptAll_tolerates_failures hcalm "acme"
  refine ⟨report, v', hrun, (halone alice halice rfl).kept ⟨"email", hfirst.fails⟩,
    (hreports.mem_iff _).2 ⟨rfl, alice, halice, rfl, hfirst⟩, ?_, ?_⟩
  · obtain ⟨served, hserved, hview⟩ := (halone bob hbob rfl).restored hnone
    have hread := (loadOwnerPlain_reads_key (hcalm.with_strict false) hbob).answer
    have howner : served = (v.store.reading false (.ok k) bob).owner :=
      congrArg Reading.owner (Except.ok.inj (hserved.symm.trans hread))
    have hshadow : v.store.shadow? bob.id "email" = some good := Registry.find?_file_self _ good
    refine ⟨served, hview, ?_⟩
    rw [howner, Store.value_reading hbob,
      Cell.read_of_hash hshadow ((Store.stored_cell hbob).trans hhash) hreveal]
    rfl
  · intro ref href hname
    obtain ⟨-, owner, ho, -, hfirst⟩ := (hreports.mem_iff ref).1 href
    rw [hname] at ho
    cases ho.symm.trans hbob
    exact hnone ⟨_, hfirst.fails⟩

end Work

end FieldVault

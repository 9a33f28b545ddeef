/-
What decrypting a tenant does, owner by owner.

Each owner is decrypted in a unit of work of its own. If all its live shadow records verify, each of
its cells ends decrypted. If one of them does not, the unit fails and brings back the store that it
began with; the failure is noted, and the report lists the first field that failed. Neither touches
a cell of another owner, so what becomes of an owner is told by the cells that it had at the start,
and the failures of the tenant are those of its owners, in order.
-/
import FieldVault.Proofs.Twins

set_option autoImplicit false

namespace FieldVault

open Vault

variable {k : Key} {v : Vault}

namespace Store

variable {s t : Store} {owner : Owner}

/-- What decrypting an owner leaves in a cell: it is decrypted, unless one of the fields of the
owner fails verification. -/
def restored (s : Store) (k : Key) (owner : Owner) (field : FieldName) : Cell :=
  if (s.reading false (.ok k) owner).unreadable = [] then
    (s.cell owner.id field).decrypted k ⟨owner.tenant, owner.id, field⟩
  else s.cell owner.id field

/-- What decrypting an owner reports as failed: the first of its fields that fails verification, if
there is one. -/
def failuresOf (s : Store) (k : Key) (id : OwnerId) : List FieldRef :=
  match s.owner? id with
  | none => []
  | some owner =>
    ((s.reading false (.ok k) owner).unreadable.take 1).map fun field => ⟨owner.tenant, id, field⟩

/-- What decrypting an owner reports: its changes, or the first of its fields that fails
verification. -/
def decryptReport (s : Store) (k : Key) (id : OwnerId) : Report :=
  match s.owner? id with
  | none => {}
  | some owner =>
    match (s.reading false (.ok k) owner).unreadable with
    | [] => .restoring (s.decryptChanges k owner)
    | field :: _ => { ownersVisited := 1, failures := [⟨owner.tenant, id, field⟩] }

theorem failures_decryptReport (s : Store) (k : Key) (id : OwnerId) :
    (s.decryptReport k id).failures = s.failuresOf k id := by
  rw [decryptReport, failuresOf]
  cases s.owner? id with
  | none => rfl
  | some owner => cases hu : (s.reading false (.ok k) owner).unreadable <;> simp only [hu] <;> rfl

theorem decryptReport_of_readable (hs : s.owner? owner.id = some owner)
    (hreadable : (s.reading false (.ok k) owner).unreadable = []) :
    s.decryptReport k owner.id = .restoring (s.decryptChanges k owner) := by
  simp only [decryptReport, hs, hreadable]

theorem decryptReport_of_unreadable (hs : s.owner? owner.id = some owner) {field : FieldName}
    {rest : List FieldName}
    (hunreadable : (s.reading false (.ok k) owner).unreadable = field :: rest) :
    s.decryptReport k owner.id =
      { ownersVisited := 1, failures := [⟨owner.tenant, owner.id, field⟩] } := by
  simp only [decryptReport, hs, hunreadable]

section Twins

variable (hs : s.owner? owner.id = some owner) (ht : t.owner? owner.id = some owner)
  (hcells : ∀ field, Cell.Twin k (s.cell owner.id field) (t.cell owner.id field))
include hs ht hcells

theorem decryptReport_of_twins : t.decryptReport k owner.id = s.decryptReport k owner.id := by
  simp only [decryptReport, hs, ht, reading_of_twins hcells hs ht,
    decryptChanges_of_twins hcells hs ht]

theorem restored_of_twins (field : FieldName) :
    Cell.Twin k (s.restored k owner field) (t.restored k owner field) := by
  unfold restored
  rw [reading_of_twins hcells hs ht]
  split
  · exact .of_eq ((hcells field).decrypted _)
  · exact hcells field

end Twins

theorem reading_of_cells (hs : s.owner? owner.id = some owner)
    (ht : t.owner? owner.id = some owner)
    (hcells : ∀ field, t.cell owner.id field = s.cell owner.id field) :
    t.reading false (.ok k) owner = s.reading false (.ok k) owner :=
  reading_of_twins (fun field => .of_eq (hcells field)) hs ht false

theorem restored_of_cells (hs : s.owner? owner.id = some owner)
    (ht : t.owner? owner.id = some owner)
    (hcells : ∀ field, t.cell owner.id field = s.cell owner.id field) (field : FieldName) :
    t.restored k owner field = s.restored k owner field := by
  rw [restored, restored, reading_of_cells hs ht hcells, hcells]

theorem decryptReport_of_cells (hs : s.owner? owner.id = some owner)
    (ht : t.owner? owner.id = some owner)
    (hcells : ∀ field, t.cell owner.id field = s.cell owner.id field) :
    t.decryptReport k owner.id = s.decryptReport k owner.id :=
  decryptReport_of_twins hs ht fun field => .of_eq (hcells field)

theorem failuresOf_of_cells (hs : s.owner? owner.id = some owner)
    (ht : t.owner? owner.id = some owner)
    (hcells : ∀ field, t.cell owner.id field = s.cell owner.id field) :
    t.failuresOf k owner.id = s.failuresOf k owner.id := by
  rw [← failures_decryptReport, ← failures_decryptReport, decryptReport_of_cells hs ht hcells]

theorem owner_of_mem_failuresOf {id : OwnerId} {ref : FieldRef} (h : ref ∈ s.failuresOf k id) :
    ref.owner = id := by
  rw [failuresOf] at h
  split at h
  · cases h
  · obtain ⟨field, -, rfl⟩ := List.mem_map.1 h
    rfl

/-- A failure of a tenant can only have come from the owner that it is reported under. -/
theorem mem_failures_iff {tenant : TenantId} {ref : FieldRef} :
    ref ∈ (s.ownersIn tenant).flatMap (s.failuresOf k) ↔
      ref.owner ∈ s.ownersIn tenant ∧ ref ∈ s.failuresOf k ref.owner := by
  rw [List.mem_flatMap]
  constructor
  · rintro ⟨id, hid, href⟩
    have howner := owner_of_mem_failuresOf href
    subst howner
    exact ⟨hid, href⟩
  · rintro ⟨hid, href⟩
    exact ⟨_, hid, href⟩

end Store

namespace Work

/-- Decrypting an owner one of whose fields fails verification reports the first such field, and
leaves a notice of it and nothing else. -/
theorem decryptOwner_reads (h : v.Calm (.ok k)) {owner : Owner}
    (ho : v.store.owner? owner.id = some owner) {field : FieldName} {rest : List FieldName}
    (hunreadable : (v.store.reading false (.ok k) owner).unreadable = field :: rest) :
    ReadsAs (.ok k) (decryptOwner owner.id) v
      (.ok { ownersVisited := 1, failures := [⟨owner.tenant, owner.id, field⟩] }) := by
  obtain ⟨v', hrun, hreads⟩ := decryptOwnerIn_fails h ho hunreadable
  have hfails : ReadsAs (.ok k) (decryptOwnerIn owner.id) v
      (.error (.integrity ⟨owner.tenant, owner.id, field⟩)) :=
    ⟨answer_of_run_error hrun, by rwa [after_of_run_error hrun]⟩
  have hunit := (ReadsAs.transaction h hfails).outcome
  have hnote := note_reads hunit.reads.calm (.integrityFailure ⟨owner.tenant, owner.id, field⟩)
  exact hunit.bind (hnote.bind (.pure hnote.reads.calm _))

/-- Decrypting an owner that is not there is nothing to do. -/
theorem decryptOwner_reads_of_none (h : v.Calm (.ok k)) {id : OwnerId}
    (ho : v.store.owner? id = none) : ReadsAs (.ok k) (decryptOwner id) v (.ok {}) := by
  have hload := loadOwner_run h id
  rw [ho] at hload
  have hnothing : ReadsAs (.ok k) (decryptOwnerIn id) v (.ok {}) :=
    .bind_run hload (.pure h _)
  have hunit := (ReadsAs.transaction h hnothing).outcome
  exact hunit.bind (.pure hunit.reads.calm _)

/-- **Decrypting an owner** restores its cells and counts the changes, or leaves them all and
reports the first field that fails. -/
theorem decryptOwner_run (h : v.Calm (.ok k)) {owner : Owner}
    (ho : v.store.owner? owner.id = some owner) :
    ∃ v', decryptOwner owner.id v = .ok (v.store.decryptReport k owner.id) v' ∧
      Writes (.ok k) (fun id' _ => id' = owner.id) v v' ∧
      ∀ field, v'.store.cell owner.id field = v.store.restored k owner field := by
  simp only [Store.restored]
  cases hu : (v.store.reading false (.ok k) owner).unreadable with
  | nil =>
    obtain ⟨v', hrun, hwrites, hcells⟩ := decryptOwnerIn_run_report h ho hu
    have houtcome := outcome_run_of_ok (transaction_run_of_ok h hrun)
    refine ⟨v', ?_, hwrites, hcells⟩
    rw [decryptOwner, run_bind_of_ok houtcome, Store.decryptReport_of_readable ho hu]
    rfl
  | cons field rest =>
    have hreads := decryptOwner_reads h ho hu
    refine ⟨after (decryptOwner owner.id) v, ?_, hreads.reads.writes, ?_⟩
    · rw [hreads.run, Store.decryptReport_of_unreadable ho hu]
    · intro field'
      rw [hreads.reads.store]
      rfl

/-- **Owners are decrypted each by itself**, in whatever order they come: what becomes of an owner
and what is reported of it are told by the cells that it had before the loop. -/
theorem decryptOwners_run (h : v.Calm (.ok k)) {ids : List OwnerId} (hnodup : ids.Nodup)
    (hids : ∀ id ∈ ids, ∃ owner, v.store.owner? id = some owner) :
    ∃ v', each decryptOwner ids v = .ok (ids.map (v.store.decryptReport k)) v' ∧
      Writes (.ok k) (fun id _ => id ∈ ids) v v' ∧
      ∀ owner, v.store.owner? owner.id = some owner → owner.id ∈ ids → ∀ field,
        v'.store.cell owner.id field = v.store.restored k owner field := by
  obtain ⟨reports, v', hrun, hreports, hwrites, hposts⟩ := each_owners_run
    (fun id field c' => ∀ owner, v.store.owner? id = some owner →
      c' = v.store.restored k owner field)
    (fun id report => v.store.decryptReport k id = report) decryptOwner h hnodup (by
      intro id hid v₁ hv₁ howner hcells₁
      obtain ⟨owner, ho⟩ := hids id hid
      have hid := Store.id_of_owner? ho
      subst hid
      have ho₁ := howner.trans ho
      obtain ⟨v₂, hrun, hwrites, hcells⟩ := decryptOwner_run hv₁.calm ho₁
      refine ⟨_, v₂, hrun, (Store.decryptReport_of_cells ho ho₁ hcells₁).symm, hwrites, ?_⟩
      intro field owner' ho'
      rw [ho] at ho'
      cases ho'
      rw [hcells, Store.restored_of_cells ho ho₁ hcells₁])
  rw [← List.forall₂_map_left_iff, List.forall₂_eq_eq_eq] at hreports
  rw [hreports]
  exact ⟨v', hrun, hwrites, fun owner ho hid field => hposts owner.id hid field owner ho⟩

/-- **Decrypting a tenant** restores each of its owners that can be, by itself, and reports the
others. It touches no cell of another tenant and cannot fail. -/
theorem decryptAll_run_report (h : v.Calm (.ok k)) (tenant : TenantId) :
    ∃ v', decryptAll tenant v =
        .ok (.sum ((v.store.ownersIn tenant).map (v.store.decryptReport k))) v' ∧
      Writes (.ok k) (fun id _ => id ∈ v.store.ownersIn tenant) v v' ∧
      ∀ owner, v.store.owner? owner.id = some owner → owner.tenant = tenant → ∀ field,
        v'.store.cell owner.id field = v.store.restored k owner field := by
  obtain ⟨v', hrun, hwrites, hcells⟩ := decryptOwners_run h
    (Store.ascending_ownersIn v.store tenant).nodup fun id hid => by
      obtain ⟨owner, ho, -⟩ := Store.mem_ownersIn_iff.1 hid
      exact ⟨owner, ho⟩
  refine ⟨v', ?_, hwrites, ?_⟩
  · rw [decryptAll, run_bind_of_ok (ownersIn_run h tenant)]
    exact tally_run_of_each hrun
  · intro owner ho htenant
    exact hcells owner ho (Store.mem_ownersIn_iff.2 ⟨owner, ho, htenant⟩)

theorem decryptAll_run (h : v.Calm (.ok k)) (tenant : TenantId) :
    ∃ report v', decryptAll tenant v = .ok report v' ∧
      report.failures = (v.store.ownersIn tenant).flatMap (v.store.failuresOf k) ∧
      Writes (.ok k) (fun id _ => id ∈ v.store.ownersIn tenant) v v' ∧
      ∀ owner, v.store.owner? owner.id = some owner → owner.tenant = tenant → ∀ field,
        v'.store.cell owner.id field = v.store.restored k owner field := by
  obtain ⟨v', hrun, hwrites, hcells⟩ := decryptAll_run_report h tenant
  refine ⟨_, v', hrun, ?_, hwrites, hcells⟩
  rw [Report.failures_sum, List.flatMap_map]
  simp only [Store.failures_decryptReport]

/-- A tenant none of whose fields fails verification is decrypted cell by cell. -/
theorem decryptAll_run_of_readable (h : v.Calm (.ok k)) {tenant : TenantId}
    (hreadable : ∀ owner, v.store.owner? owner.id = some owner → owner.tenant = tenant →
      (v.store.reading false (.ok k) owner).unreadable = []) :
    ∃ report v', decryptAll tenant v = .ok report v' ∧ report.failures = [] ∧
      Writes (.ok k) (fun id _ => id ∈ v.store.ownersIn tenant) v v' ∧
      ∀ owner, v.store.owner? owner.id = some owner → owner.tenant = tenant → ∀ field,
        v'.store.cell owner.id field =
          (v.store.cell owner.id field).decrypted k ⟨owner.tenant, owner.id, field⟩ := by
  obtain ⟨report, v', hrun, hfailures, hwrites, hcells⟩ := decryptAll_run h tenant
  refine ⟨report, v', hrun, ?_, hwrites, ?_⟩
  · rw [hfailures, List.flatMap_eq_nil_iff]
    intro id hid
    obtain ⟨owner, rfl, ho, htenant⟩ := Store.exists_of_mem_ownersIn hid
    simp only [Store.failuresOf, ho, hreadable owner ho htenant]
    rfl
  · intro owner ho htenant field
    rw [hcells owner ho htenant, Store.restored, if_pos (hreadable owner ho htenant)]

/-- An owner that fails verification is reported and left as it is. -/
theorem decryptAll_refuses (h : v.Calm (.ok k)) {owner : Owner}
    (ho : v.store.owner? owner.id = some owner)
    (hfails : (v.store.reading false (.ok k) owner).unreadable ≠ []) {report : Report} {v' : Vault}
    (hrun : decryptAll owner.tenant v = .ok report v') :
    (∃ failed ∈ report.failures, failed.owner = owner.id) ∧
      v'.store.owner? owner.id = v.store.owner? owner.id ∧
      v'.store.shadowsOf owner.id = v.store.shadowsOf owner.id := by
  obtain ⟨report', w, hrun', hfailures, hwrites, hcells⟩ := decryptAll_run h owner.tenant
  rw [hrun] at hrun'
  cases hrun'
  refine ⟨?_, Store.owner_congr (hwrites.off.heads owner.id) ?_⟩
  · obtain ⟨field, rest, hunreadable⟩ := List.exists_cons_of_ne_nil hfails
    refine ⟨⟨owner.tenant, owner.id, field⟩, ?_, rfl⟩
    rw [hfailures, List.mem_flatMap]
    refine ⟨owner.id, Store.mem_ownersIn_iff.2 ⟨owner, ho, rfl⟩, ?_⟩
    simp only [Store.failuresOf, ho, hunreadable]
    exact List.mem_singleton_self _
  · intro field
    rw [hcells owner ho rfl, Store.restored, if_neg hfails]

/-- **Owners are decrypted one by one.** An owner that two vaults hold alike ends alike when a
tenant is decrypted in either, and is reported alike, whatever else they hold. -/
theorem decryptAll_congr {w : Vault} (hv : v.Calm (.ok k)) (hw : w.Calm (.ok k))
    {tenant : TenantId} {id : OwnerId} (hhead : w.store.head? id = v.store.head? id)
    (hcells : ∀ field, w.store.cell id field = v.store.cell id field)
    {direct report : Report} {v' w' : Vault} (hdirect : decryptAll tenant v = .ok direct v')
    (hreport : decryptAll tenant w = .ok report w') :
    (w'.store.owner? id = v'.store.owner? id ∧
      w'.store.shadowsOf id = v'.store.shadowsOf id) ∧
    ∀ failed : FieldRef, failed.owner = id →
      (failed ∈ report.failures ↔ failed ∈ direct.failures) := by
  obtain ⟨direct', v₁, hrunv, hfailsv, hwritesv, hcellsv⟩ := decryptAll_run hv tenant
  obtain ⟨report', w₁, hrunw, hfailsw, hwritesw, hcellsw⟩ := decryptAll_run hw tenant
  rw [hdirect] at hrunv
  rw [hreport] at hrunw
  cases hrunv
  cases hrunw
  have howner : w.store.owner? id = v.store.owner? id := (Store.owner_congr hhead hcells).1
  have hmem : id ∈ w.store.ownersIn tenant ↔ id ∈ v.store.ownersIn tenant := by
    rw [Store.mem_ownersIn_iff, Store.mem_ownersIn_iff, howner]
  refine ⟨Store.owner_congr ?_ ?_, ?_⟩
  · rw [hwritesw.off.heads, hhead, hwritesv.off.heads]
  · intro field
    -- An owner of the tenant ends restored from its own cells; any other is out of reach of both.
    by_cases hid : id ∈ v.store.ownersIn tenant
    · obtain ⟨owner, rfl, ho, htenant⟩ := Store.exists_of_mem_ownersIn hid
      have ho' := howner.trans ho
      rw [hcellsw owner ho' htenant, hcellsv owner ho htenant,
        Store.restored_of_cells ho ho' hcells]
    · rw [hwritesw.off.cells id field (hmem.not.2 hid), hcells,
        hwritesv.off.cells id field hid]
  · rintro failed rfl
    rw [hfailsw, hfailsv, Store.mem_failures_iff, Store.mem_failures_iff, hmem,
      and_congr_right_iff]
    intro hid
    obtain ⟨owner, ho, -⟩ := Store.mem_ownersIn_iff.1 hid
    have hid := Store.id_of_owner? ho
    rw [← hid] at ho howner hcells ⊢
    rw [Store.failuresOf_of_cells ho (howner.trans ho) hcells]

end Work

end FieldVault

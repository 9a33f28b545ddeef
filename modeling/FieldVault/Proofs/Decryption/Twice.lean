/-
Decrypting a tenant a second time.

An owner that fails is left as it is, so it fails again and is reported again. An owner that was
restored has no shadow records any more, and its fields hold what a lenient read answered. The one
thing that a second run can still find there is such an answer that is marked and opens in its turn:
the text of a token is put back as it is, whatever it looks like. So decrypting peels one layer off
a token of a token, and a second run peels the next. Where there is no such layer, the second run
finds nothing to do; where there is one, it counts a change and the store is not as it was.
-/
import FieldVault.Proofs.Decryption.Failures

set_option autoImplicit false

namespace FieldVault

open Vault

variable {k : Key} {v v' : Vault}

/-! ## Cells -/

/-- A decrypted cell stays as it is if what it was read for does not open once more. -/
theorem Cell.decrypted_decrypted_eq_iff {c : Cell} {ref ref' : FieldRef} :
    (c.decrypted k ref).decrypted k ref' = c.decrypted k ref ↔
      ∀ text, c.read false (.ok k) ref = .ok (some text) → opens k (some text) = false := by
  have hlive : (c.decrypted k ref).live? = none := rfl
  rw [decrypted_of_not_live hlive, decrypted, Cell.mk.injEq, eq_self_iff_true, and_true]
  cases he : c.entry with
  | none =>
    have hstored : c.stored = none := by
      rw [Cell.stored, he]
      rfl
    rw [read_of_stored_none hstored]
    simp only [Option.map_none, reduceCtorEq, Except.ok.injEq, false_implies, implies_true]
  | some stored =>
    rw [Option.map_some, Option.map_some, Option.some.injEq, openedText_eq_self_iff]
    -- A field that reads as no value, or fails to be read, has nothing that could open.
    rcases c.read false (.ok k) ref with e | _ | text
    · simp only [reduceCtorEq, false_implies, implies_true, iff_true]
      rfl
    · simp only [reduceCtorEq, Except.ok.injEq, false_implies, implies_true, iff_true]
      rfl
    · simp only [Except.ok.injEq, Option.some.injEq, forall_eq']
      rfl

/-! ## Owners -/

namespace Store

variable {s t : Store} {owner owner' : Owner}

theorem unreadable_of_shadowsOf_nil (ho : s.owner? owner.id = some owner)
    (hnone : s.shadowsOf owner.id = []) :
    (s.reading false (.ok k) owner).unreadable = [] := by
  rw [Work.unreadable_lenient ho, liveShadows, hnone]
  rfl

section Restored

variable (ho : s.owner? owner.id = some owner) (ho' : t.owner? owner.id = some owner')
  (hcells : ∀ field, t.cell owner.id field = s.restored k owner field)
include ho ho' hcells

/-- An owner that was decrypted fails as it did before, or does not fail as it did not. -/
theorem unreadable_of_restored (hhead : t.head? owner.id = s.head? owner.id) :
    (t.reading false (.ok k) owner').unreadable = (s.reading false (.ok k) owner).unreadable := by
  by_cases hu : (s.reading false (.ok k) owner).unreadable = []
  · have hid := id_of_owner? ho'
    have hnone : t.shadowsOf owner'.id = [] := by
      refine shadowsOf_eq_nil fun field => ?_
      have hcell := hcells field
      rw [restored, if_pos hu] at hcell
      rw [hid]
      exact congrArg Cell.shadow hcell
    rw [hu, unreadable_of_shadowsOf_nil (hid ▸ ho') hnone]
  · have hcells' : ∀ field, t.cell owner.id field = s.cell owner.id field := by
      intro field
      rw [hcells, restored, if_neg hu]
    have howner : owner' = owner := by
      rw [(owner_congr hhead hcells').1, ho] at ho'
      exact (Option.some.inj ho').symm
    subst howner
    rw [reading_of_cells ho ho' hcells']

theorem failuresOf_of_restored (hhead : t.head? owner.id = s.head? owner.id) :
    t.failuresOf k owner.id = s.failuresOf k owner.id := by
  obtain ⟨owner'', ho'', htenant, -⟩ := exists_owner_of_head?_eq ho hhead
  cases ho'.symm.trans ho''
  simp only [failuresOf, ho, ho', unreadable_of_restored ho ho' hcells hhead, htenant]

/-- Decrypting an owner again leaves it as it is if it failed, or if nothing that was read of it
opens once more. -/
theorem restored_restored_iff (hhead : t.head? owner.id = s.head? owner.id) :
    (∀ field, t.restored k owner' field = t.cell owner'.id field) ↔
      ((s.reading false (.ok k) owner).unreadable = [] → ∀ field text,
        (s.cell owner.id field).read false (.ok k) ⟨owner.tenant, owner.id, field⟩ =
          .ok (some text) → opens k (some text) = false) := by
  have hid := id_of_owner? ho'
  simp only [restored, unreadable_of_restored ho ho' hcells hhead]
  by_cases hu : (s.reading false (.ok k) owner).unreadable = []
  · simp only [hu, if_true, hid, hcells, restored, true_implies]
    exact forall_congr' fun field => Cell.decrypted_decrypted_eq_iff
  · simp only [hu, if_false, false_implies, implies_true]

end Restored

/-- A tenant that was decrypted reports the same failures again. -/
theorem failures_of_restored {tenant : TenantId} (hheads : ∀ id, t.head? id = s.head? id)
    (hcells : ∀ owner, s.owner? owner.id = some owner → owner.tenant = tenant →
      ∀ field, t.cell owner.id field = s.restored k owner field) :
    (t.ownersIn tenant).flatMap (t.failuresOf k) =
      (s.ownersIn tenant).flatMap (s.failuresOf k) := by
  rw [ownersIn_congr hheads]
  refine List.flatMap_congr fun id hid => ?_
  obtain ⟨owner, rfl, ho, htenant⟩ := exists_of_mem_ownersIn hid
  obtain ⟨owner', ho', -⟩ := exists_owner_of_head?_eq ho (hheads owner.id)
  exact failuresOf_of_restored ho ho' (hcells owner ho htenant) (hheads owner.id)

theorem fieldsChanged_decryptReport_eq_zero_iff (ho : s.owner? owner.id = some owner) :
    (s.decryptReport k owner.id).fieldsChanged = 0 ↔
      ∀ field, s.restored k owner field = s.cell owner.id field := by
  cases hu : (s.reading false (.ok k) owner).unreadable with
  | nil =>
    rw [decryptReport_of_readable ho hu, restored_eq_iff ho hu]
    rfl
  | cons field rest =>
    rw [decryptReport_of_unreadable ho hu]
    simp only [restored, hu, List.cons_ne_nil, if_false, implies_true]

end Store

/-! ## Tenants -/

namespace Vault

/-- No text that a lenient read of the owner answers is a token that can be decrypted in its
turn. -/
def OpensOnce (v : Vault) (owner : Owner) : Prop :=
  ∀ field text opened,
    answer (Work.loadField owner.id field) { v with strict := false } = .ok (some text) →
    Token.isMarked text = true → answer (FieldCipher.decrypt text) v.cipher ≠ .ok opened

theorem opensOnce_iff (h : v.Calm (.ok k)) {owner : Owner}
    (ho : v.store.owner? owner.id = some owner) :
    v.OpensOnce owner ↔ ∀ field text,
      (v.store.cell owner.id field).read false (.ok k) ⟨owner.tenant, owner.id, field⟩ =
        .ok (some text) → opens k (some text) = false := by
  have hread : ∀ field, answer (Work.loadField owner.id field) { v with strict := false } =
      (v.store.cell owner.id field).read false (.ok k) ⟨owner.tenant, owner.id, field⟩ :=
    fun field => (Work.loadField_reads (h.with_strict false) ho field).answer
  simp only [OpensOnce, hread, FieldCipher.answer_decrypt h.answers, opens]
  refine forall_congr' fun field => forall_congr' fun text => ?_
  cases Token.isMarked text <;> cases reveal (.ok k) text <;> simp [Except.toOption]

end Vault

namespace Work

/-- Decrypting a tenant leaves the store as it is if it changes none of its owners. -/
theorem decryptAll_store_eq_iff (h : v.Calm (.ok k)) {tenant : TenantId} {report : Report}
    (hrun : decryptAll tenant v = .ok report v') :
    v'.store = v.store ↔ ∀ owner, v.store.owner? owner.id = some owner → owner.tenant = tenant →
      ∀ field, v.store.restored k owner field = v.store.cell owner.id field := by
  obtain ⟨w, hrun', hwrites, hcells⟩ := decryptAll_run_report h tenant
  cases hrun.symm.trans hrun'
  constructor
  · intro hstore owner ho htenant field
    rw [← hcells owner ho htenant, hstore]
  · intro hsame
    refine hwrites.off.eq_of_owners fun owner ho htenant field => ?_
    rw [hcells owner ho htenant, hsame owner ho htenant]

theorem decryptAll_counts_changes (h : v.Calm (.ok k)) {tenant : TenantId} {report : Report}
    (hrun : decryptAll tenant v = .ok report v') :
    report.fieldsChanged = 0 ↔ v'.store = v.store := by
  rw [decryptAll_store_eq_iff h hrun]
  obtain ⟨w, hrun', -⟩ := decryptAll_run_report h tenant
  cases hrun.symm.trans hrun'
  rw [Report.fieldsChanged_sum_eq_zero_iff, List.forall_mem_map]
  constructor
  · intro hzero owner ho htenant
    have hid : owner.id ∈ v.store.ownersIn tenant := Store.mem_ownersIn_iff.2 ⟨owner, ho, htenant⟩
    exact (Store.fieldsChanged_decryptReport_eq_zero_iff ho).1 (hzero owner.id hid)
  · intro hsame id hid
    obtain ⟨owner, rfl, ho, htenant⟩ := Store.exists_of_mem_ownersIn hid
    exact (Store.fieldsChanged_decryptReport_eq_zero_iff ho).2 (hsame owner ho htenant)

/-- **Decrypting a tenant twice.** From every state of the store, with a key at hand: both runs
succeed and report the same failures. The second leaves the store as the first one left it exactly
if no text that the first one put back can be decrypted in its turn, and that is also when it
reports no change. -/
theorem decryptAll_twice (h : v.Calm (.ok k)) (tenant : TenantId) :
    ∃ first v₁ second v₂, decryptAll tenant v = .ok first v₁ ∧
      decryptAll tenant v₁ = .ok second v₂ ∧
      second.failures = first.failures ∧
      (v₂.store = v₁.store ↔ ∀ owner, v.store.owner? owner.id = some owner →
        owner.tenant = tenant → (¬∃ field, v.Fails owner field) → v.OpensOnce owner) ∧
      (second.fieldsChanged = 0 ↔ v₂.store = v₁.store) := by
  obtain ⟨first, v₁, hfirst, hfailures₁, hwrites, hcells⟩ := decryptAll_run h tenant
  have hcalm₁ := hwrites.calm
  have hheads := hwrites.off.heads
  obtain ⟨second, v₂, hsecond, hfailures₂, -⟩ := decryptAll_run hcalm₁ tenant
  refine ⟨first, v₁, second, v₂, hfirst, hsecond, ?_, ?_, decryptAll_counts_changes hcalm₁ hsecond⟩
  · rw [hfailures₁, hfailures₂, Store.failures_of_restored hheads hcells]
  · rw [decryptAll_store_eq_iff hcalm₁ hsecond]
    -- The owners are the same in both runs, and the second finds each as the first left it.
    have hiff : ∀ owner owner', v.store.owner? owner.id = some owner → owner.tenant = tenant →
        v₁.store.owner? owner.id = some owner' →
        ((∀ field, v₁.store.restored k owner' field = v₁.store.cell owner'.id field) ↔
          ((¬∃ field, v.Fails owner field) → v.OpensOnce owner)) := by
      intro owner owner' ho htenant ho'
      rw [opensOnce_iff h ho, ← Store.unreadable_eq_nil_iff h ho]
      exact Store.restored_restored_iff ho ho' (hcells owner ho htenant) (hheads owner.id)
    constructor
    · intro hsame owner ho htenant
      obtain ⟨owner', ho', htenant', -⟩ := Store.exists_owner_of_head?_eq ho (hheads owner.id)
      have hid := Store.id_of_owner? ho'
      exact (hiff owner owner' ho htenant ho').1
        (hsame owner' (hid ▸ ho') (htenant'.trans htenant))
    · intro honce owner' ho' htenant'
      obtain ⟨owner, ho, htenant, -⟩ :=
        Store.exists_owner_of_head?_eq ho' (hheads owner'.id).symm
      have hid := Store.id_of_owner? ho
      rw [← hid] at ho ho'
      have htenant := htenant.trans htenant'
      exact (hiff owner owner' ho htenant ho').2 (honce owner ho htenant)

/-- A second run leaves the text of a plain token alone. -/
theorem decryptAll_twice_alice :
    let k : Key := ⟨List.replicate 16 7, .inl rfl⟩
    let alice : Owner := ⟨"alice", "acme", false,
      Registry.empty.file ⟨"email", some (k.tokenText Block.zero "a@acme")⟩⟩
    let v := settled k (({} : Store).putOwner alice) .none
    let once := after (decryptAll "acme") v
    (after (decryptAll "acme") once).store = once.store := by
  intro k alice v once
  have hcalm : v.Calm (.ok k) := calm_settled k _ _
  obtain ⟨first, v₁, second, v₂, hfirst, hsecond, -, hstore, -⟩ := decryptAll_twice hcalm "acme"
  have honce : once = v₁ := after_of_run hfirst
  rw [honce, after_of_run hsecond, hstore]
  intro owner ho htenant hfails
  have halice := Store.eq_of_owner?_single ho
  subst halice
  rw [opensOnce_iff hcalm ho]
  intro field text htext
  -- The record has no other value than the token, and there is no shadow record to read instead.
  rw [Cell.read_of_not_live rfl, Store.stored_cell ho] at htext
  cases hvalue : alice.value field with
  | none =>
    rw [hvalue] at htext
    cases htext
  | some value =>
    rw [hvalue, Owner.eq_of_value_single hvalue, storedText_lenient, openedText, Option.map_some,
      reveal_tokenText] at htext
    cases htext
    have hplain : opens k (some "a@acme") = false := opens_of_not_marked (by decide)
    exact hplain

/-- Decrypting the tenant of an owner without shadow records opens the tokens in its fields. -/
theorem decryptAll_opens (h : v.Calm (.ok k)) {owner : Owner}
    (ho : v.store.owner? owner.id = some owner) (hnone : v.store.shadowsOf owner.id = [])
    {tenant : TenantId} (htenant : owner.tenant = tenant) {report : Report}
    (hrun : decryptAll tenant v = .ok report v') :
    v'.Calm (.ok k) ∧ ∃ owner', v'.store.owner? owner.id = some owner' ∧
      owner'.tenant = tenant ∧ v'.store.shadowsOf owner.id = [] ∧
      ∀ field, owner'.value field = openedText k (owner.value field) := by
  obtain ⟨w, hrun', hwrites, hcells⟩ := decryptAll_run_report h tenant
  cases hrun.symm.trans hrun'
  obtain ⟨owner', ho', htenant', -⟩ :=
    Store.exists_owner_of_head?_eq ho (hwrites.off.heads owner.id)
  have hcell : ∀ field, v'.store.cell owner.id field =
      ⟨(owner.entry field).map (openedText k), none⟩ := by
    intro field
    have hlive : (v.store.cell owner.id field).live? = none := by
      rw [Cell.live?, show (v.store.cell owner.id field).shadow = none from
        Store.shadow?_of_shadowsOf_nil hnone]
      rfl
    rw [hcells owner ho htenant, Store.restored,
      if_pos (Store.unreadable_of_shadowsOf_nil ho hnone), Cell.decrypted_of_not_live hlive,
      Store.entry_cell ho]
  refine ⟨hwrites.calm, owner', ho', htenant'.trans htenant,
    Store.shadowsOf_eq_nil fun field => congrArg Cell.shadow (hcell field), fun field => ?_⟩
  rw [← Store.stored_cell ho', hcell, Cell.stored, Owner.value_eq_join]
  rcases owner.entry field with _ | _ | value <;> rfl

/-- A token in a token is opened by the second run: it changes the store and counts the change. -/
theorem decryptAll_twice_changes :
    let k : Key := ⟨List.replicate 16 7, .inl rfl⟩
    let inner := k.tokenText Block.zero "a@acme"
    let alice : Owner := ⟨"alice", "acme", false,
      Registry.empty.file ⟨"email", some (k.tokenText Block.zero inner)⟩⟩
    let v := settled k (({} : Store).putOwner alice) .none
    ∃ first v₁ second v₂, decryptAll "acme" v = .ok first v₁ ∧
      decryptAll "acme" v₁ = .ok second v₂ ∧
      (v₁.store.owner? "alice").bind (·.value "email") = some inner ∧
      (v₂.store.owner? "alice").bind (·.value "email") = some "a@acme" ∧
      v₂.store ≠ v₁.store ∧ second.fieldsChanged ≠ 0 := by
  intro k inner alice v
  have hcalm : v.Calm (.ok k) := calm_settled k _ _
  have ho : v.store.owner? alice.id = some alice := Store.owner?_putOwner_self {} alice
  have hvalue : alice.value "email" = some (k.tokenText Block.zero inner) :=
    Owner.value_write_self ⟨"alice", "acme", false, .empty⟩ "email" _
  have hopened : ∀ text, openedText k (some (k.tokenText Block.zero text)) = some text := by
    intro text
    rw [openedText, Option.map_some, reveal_tokenText]
    rfl
  obtain ⟨first, v₁, hfirst, -⟩ := decryptAll_run hcalm "acme"
  obtain ⟨hcalm₁, owner₁, ho₁, htenant₁, hnone₁, hvalues₁⟩ :=
    decryptAll_opens hcalm ho rfl rfl hfirst
  have hid₁ := Store.id_of_owner? ho₁
  obtain ⟨second, v₂, hsecond, -⟩ := decryptAll_run hcalm₁ "acme"
  rw [← hid₁] at ho₁ hnone₁
  obtain ⟨-, owner₂, ho₂, -, -, hvalues₂⟩ :=
    decryptAll_opens hcalm₁ ho₁ hnone₁ htenant₁ hsecond
  rw [hid₁] at ho₁ ho₂
  have hinner : (v₁.store.owner? "alice").bind (·.value "email") = some inner := by
    rw [show v₁.store.owner? "alice" = some owner₁ from ho₁, Option.bind_some, hvalues₁, hvalue,
      hopened]
  have hplain : (v₂.store.owner? "alice").bind (·.value "email") = some "a@acme" := by
    rw [show v₂.store.owner? "alice" = some owner₂ from ho₂, Option.bind_some, hvalues₂, hvalues₁,
      hvalue, hopened, hopened]
  have hstore : v₂.store ≠ v₁.store := by
    intro hsame
    rw [hsame, hinner] at hplain
    exact Key.tokenText_ne k Block.zero "a@acme" (Option.some.inj hplain)
  exact ⟨first, v₁, second, v₂, hfirst, hsecond, hinner, hplain, hstore,
    mt (decryptAll_counts_changes hcalm₁ hsecond).1 hstore⟩

end Work

end FieldVault

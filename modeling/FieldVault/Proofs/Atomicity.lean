/-
Failures are atomic.

A unit of work that fails brings its store back, so an owner is encrypted as a whole or not at all,
and a migration that fails has handled some owners and left the others. For want of a key more can
be said. No write of a field and no new shadow record comes about without a key: a token needs one
to be opened, and a text needs one to be sealed. A key once had is kept. So where a migration fails
for want of a key there never was one, and the owners before the failure, whose units went through,
had nothing to seal. All that can have happened to them is that stale shadow records were swept
away.
-/
import FieldVault.Event
import FieldVault.Proofs.Stopping

set_option autoImplicit false

namespace FieldVault

open Vault

variable {e : KeyError} {tenant : TenantId} {done rest : List OwnerId} {v v' : Vault}

/-! ## Encrypting without a key -/

/-- Without a key a value reveals a text only if it is that text. -/
theorem eq_of_reveal_of_error {value text : String} (h : reveal (.error e) value = .ok text) :
    Token.isMarked value = false ∧ text = value := by
  unfold reveal at h
  split at h
  · cases hp : Token.parse value <;> simp [hp, openToken] at h
  · rename_i hm
    cases h
    exact ⟨Bool.eq_false_of_not_eq_true hm, rfl⟩

namespace Work

theorem encrypt_reads_of_error (h : v.Calm (.error e)) {text : String}
    (hm : Token.isMarked text = false) :
    ReadsAs (.error e) (onCipher (FieldCipher.encrypt text)) v (.error (.key e)) := by
  have hunmarked : ¬Token.isMarked text = true := by
    rw [hm]
    exact Bool.false_ne_true
  unfold FieldCipher.encrypt
  rw [if_neg hunmarked, onCipher_bind]
  exact (key_reads h).bind_error _

theorem sealField_reads_of_error (h : v.Calm (.error e)) (id : OwnerId) (field : FieldName)
    {text : String} (hm : Token.isMarked text = false) :
    ReadsAs (.error e) (sealField id field text) v (.error (.key e)) :=
  (encrypt_reads_of_error h hm).bind_error _

/-- Without a key nothing is sealed: either there is nothing to seal or the work fails. -/
theorem encryptField_reads_of_error (h : v.Calm (.error e)) (owner : Owner) (field : Field) :
    ∃ x, ReadsAs (.error e) (encryptField owner field) v x := by
  have hasked : inScope owner.tenant field.name v =
      .ok (v.tenancy.inScope owner.tenant field.name) v := rfl
  unfold encryptField
  refine Exists.imp (fun _ => ReadsAs.bind_run hasked) ?_
  cases v.tenancy.inScope owner.tenant field.name with
  | false => exact ⟨.ok {}, .pure h _⟩
  | true =>
    cases field.value with
    | none => exact ⟨.ok {}, .pure h _⟩
    | some value =>
      by_cases hshaped : LookupHash.isShaped value = true
      · simp only [if_pos hshaped]
        exact ⟨.ok { hashedSkipped := 1 }, .pure h _⟩
      · simp only [if_neg hshaped]
        have hplain := plainText_reads h owner.id field.name value
        cases hr : reveal (.error e) value with
        | error e' =>
          rw [hr] at hplain
          cases e' with
          | key e' => exact ⟨.error (.key e'), hplain.bind_error _⟩
          | _ => exact ⟨.ok {}, hplain.bind (.pure hplain.reads.calm _)⟩
        | ok text =>
          rw [hr] at hplain
          -- The text is the value as it stands, and that cannot be sealed.
          obtain ⟨hm, rfl⟩ := eq_of_reveal_of_error hr
          have hfails := sealField_reads_of_error hplain.reads.calm owner.id field.name hm
          exact ⟨.error (.key e), hplain.bind (hfails.bind_error _)⟩

/-- Encrypting an owner without a key, if it succeeds, has only swept its shadow records. -/
theorem encryptOwnerIn_sweeps (h : v.Calm (.error e)) {id : OwnerId} {report : Report}
    (hrun : encryptOwnerIn id v = .ok report v') :
    Writes (.error e) (fun id' _ => id' = id) v v' ∧
      ∀ field, v'.store.cell id field = v.store.cell id field ∨
        v'.store.cell id field = (v.store.cell id field).swept := by
  unfold encryptOwnerIn at hrun
  rw [run_bind_of_ok (loadOwner_run h id)] at hrun
  cases ho : v.store.owner? id with
  | none =>
    simp only [ho] at hrun
    cases hrun
  | some owner =>
    have hid := Store.id_of_owner? ho
    subst hid
    have henabled : isEnabled owner.tenant v = .ok (v.tenancy.enabled owner.tenant) v := rfl
    simp only [ho] at hrun
    rw [run_bind_of_ok henabled] at hrun
    by_cases hactive : v.tenancy.enabled owner.tenant = true
    · rw [if_pos hactive] at hrun
      by_cases hservice : owner.serviceAccount = true
      · rw [if_pos hservice] at hrun
        cases hrun
        exact ⟨.refl h, fun _ => .inl rfl⟩
      · rw [if_neg hservice] at hrun
        obtain ⟨x, hseals⟩ := ReadsAs.each_any h owner.fields.toList
          fun field v' hv' => encryptField_reads_of_error hv' owner field
        cases x with
        | error e' =>
          have hfails : ReadsAs (.error e) (tally (encryptField owner) owner.fields.toList) v
              (.error e') := hseals.bind_error _
          rw [run_bind_of_error (run_of_answer_error hfails.answer)] at hrun
          cases hrun
        | ok reports =>
          -- Nothing was sealed, and sweeping finds the owner as it was.
          have hreads := hseals.reads
          have hload := loadOwner_run hreads.calm owner.id
          rw [hreads.store, ho] at hload
          obtain ⟨v₂, hsweep, hwrites, hcells⟩ := sweepShadows_run hreads.calm
            (show _ = some owner by rw [hreads.store, ho])
          rw [run_bind_of_ok (tally_run_of_each hseals.run), run_bind_of_ok hload,
            run_bind_of_ok (shadowsOf_run hreads.calm owner.id), Option.getD_some,
            run_bind_of_ok hsweep] at hrun
          cases hrun
          refine ⟨hreads.writes.trans hwrites, fun field => .inr ?_⟩
          rw [hcells, hreads.store]
    · rw [if_neg hactive] at hrun
      cases hrun
      exact ⟨.refl h, fun _ => .inl rfl⟩

/-- The same for a list of owners. -/
theorem encryptOwners_sweep (h : v.Calm (.error e)) {ids : List OwnerId} {reports : List Report}
    (hrun : each encryptOwner ids v = .ok reports v') :
    Writes (.error e) (fun id _ => id ∈ ids) v v' ∧
      ∀ id field, v'.store.cell id field = v.store.cell id field ∨
        v'.store.cell id field = (v.store.cell id field).swept := by
  induction ids generalizing v reports with
  | nil =>
    cases hrun
    exact ⟨.refl h, fun _ _ => .inl rfl⟩
  | cons id rest ih =>
    rw [each] at hrun
    cases hfirst : encryptOwnerIn id v with
    | error e' v₁ =>
      have hunit : encryptOwner id v = .error e' { v₁ with store := v.store } :=
        transaction_run_of_error h hfirst
      rw [run_bind_of_error hunit] at hrun
      cases hrun
    | ok report v₁ =>
      have hunit : encryptOwner id v = .ok report v₁ := transaction_run_of_ok h hfirst
      rw [run_bind_of_ok hunit] at hrun
      obtain ⟨hwrites, hcells⟩ := encryptOwnerIn_sweeps h hfirst
      cases hrest : each encryptOwner rest v₁ with
      | error e' w =>
        rw [run_bind_of_error hrest] at hrun
        cases hrun
      | ok reports' w =>
        rw [run_bind_of_ok hrest] at hrun
        cases hrun
        obtain ⟨hwrites', hcells'⟩ := ih hwrites.calm hrest
        refine ⟨(hwrites.mono fun id' _ hid => hid ▸ List.mem_cons_self).trans
          (hwrites'.mono fun id' _ hid => List.mem_cons_of_mem id hid), fun id' field => ?_⟩
        have hthen : v₁.store.cell id' field = v.store.cell id' field ∨
            v₁.store.cell id' field = (v.store.cell id' field).swept := by
          by_cases hid : id' = id
          · subst hid
            exact hcells field
          · exact .inl (hwrites.off.cells id' field hid)
        -- Sweeping twice is sweeping once.
        have hafter := hcells' id' field
        rcases hthen with hv₁ | hv₁ <;> rw [hv₁] at hafter
        · exact hafter
        · rw [Cell.swept_swept, or_self] at hafter
          exact .inr hafter

end Work

namespace Vault

/-- The records are the same, and so are the shadow records, but for stale ones of these owners that
are gone. -/
structure SweptOnly (ids : List OwnerId) (v v' : Vault) : Prop where
  owners : v'.store.owners = v.store.owners
  shadows : ∀ id field, v'.store.shadow? id field = v.store.shadow? id field ∨
    (v'.store.shadow? id field = none ∧ id ∈ ids ∧
      ∃ owner, v.store.owner? id = some owner ∧ isStale (owner.value field) = true)

/-- Where no key is settled in the end, the owners that were handled were only swept. -/
theorem StoppedAfter.sweptOnly (h : StoppedAfter Work.encryptOwner tenant done rest v v')
    (hkey : v'.key? = none) : v.SweptOnly done v' := by
  have hallows : v'.cipher.keys.Allows (.error .missing) := by
    intro k hk
    rw [show v'.cipher.keys.key = none from hkey] at hk
    cases hk
  obtain ⟨reports, u, hrun, hstore⟩ := h.handled _ hallows
  obtain ⟨hwrites, hcells⟩ := Work.encryptOwners_sweep
    (calmed_calmed (.error .missing) v).calm hrun
  refine ⟨?_, fun id field => ?_⟩
  · rw [← hstore]
    refine Store.owners_congr hwrites.off.heads fun id field => ?_
    rcases hcells id field with hcell | hcell <;> rw [hcell]
    · rfl
    · exact Cell.entry_swept _
  · rw [← hstore]
    by_cases hid : id ∈ done
    · obtain ⟨owner, ho, -⟩ := h.exists_owner hid
      rcases hcells id field with hcell | hcell
      · exact .inl (congrArg Cell.shadow hcell)
      · -- A shadow record that was swept away was stale.
        have hshadow := (congrArg Cell.shadow hcell).trans (Cell.shadow_swept _)
        rw [show ((v.calmed (.error .missing)).store.cell id field).stored = owner.value field from
          Store.stored_cell ho] at hshadow
        cases hstale : isStale (owner.value field) with
        | true =>
          rw [hstale, if_pos rfl] at hshadow
          exact .inr ⟨hshadow, hid, owner, ho, hstale⟩
        | false =>
          rw [hstale, if_neg Bool.false_ne_true] at hshadow
          exact .inl hshadow
    · exact .inl (congrArg Cell.shadow (hwrites.off.cells id field hid))

/-- A tenant was encrypted up to some owner: the owners before it were encrypted, each as a whole,
and the rest are as they were, with their shadow records. -/
structure EncryptedUpTo (tenant : TenantId) (done rest : List OwnerId) (v v' : Vault) : Prop where
  stopped : StoppedAfter Work.encryptOwner tenant done rest v v'
  converted : ∀ k, v'.cipher.keys.Allows (.ok k) →
    ∀ id ∈ done, ∀ owner, v.store.owner? id = some owner → ∀ field,
      Cell.MigratesTo k v.tenancy (owner.tenant, owner.serviceAccount) field
        (v.store.cell id field) (v'.store.cell id field)
  untouched : ∀ id ∈ rest, v'.store.view? id = v.store.view? id

/-- A tenant was decrypted up to some owner: the owners before it were restored as a whole, or left
as a whole because a field failed, and the rest are as they were. -/
structure DecryptedUpTo (tenant : TenantId) (done rest : List OwnerId) (v v' : Vault) : Prop where
  stopped : StoppedAfter Work.decryptOwner tenant done rest v v'
  converted : ∀ k, v'.cipher.keys.Allows (.ok k) →
    ∀ owner, v.store.owner? owner.id = some owner → owner.id ∈ done →
      (v.calmed (.ok k)).DecryptsAlone v' owner
  untouched : ∀ id ∈ rest, v'.store.view? id = v.store.view? id

theorem StoppedAfter.encryptedUpTo (h : StoppedAfter Work.encryptOwner tenant done rest v v') :
    EncryptedUpTo tenant done rest v v' := by
  obtain ⟨k, hk⟩ := v'.cipher.keys.exists_allows
  exact ⟨h, fun k' hk' => (h.encrypted hk').2,
    fun id hid => (h.encrypted hk).1.view?_eq fun _ => h.not_mem_done hid⟩

theorem StoppedAfter.decryptedUpTo (h : StoppedAfter Work.decryptOwner tenant done rest v v') :
    DecryptedUpTo tenant done rest v v' := by
  obtain ⟨k, hk⟩ := v'.cipher.keys.exists_allows
  refine ⟨h, fun k' hk' owner ho hid => ?_,
    fun id hid => (h.decrypted hk).1.view?_eq fun _ => h.not_mem_done hid⟩
  obtain ⟨hoff, hcells⟩ := h.decrypted hk'
  exact Work.decryptsAlone_of_restored (calmed_calmed (.ok k') v).calm ho (hoff.heads owner.id)
    (hcells owner ho hid)

end Vault

namespace Work

/-! ## Failures -/

theorem search_keepsStore (tenant : TenantId) (field : FieldName) (value : String) :
    KeepsStore (search tenant field value) := by
  have hholders : ∀ value, KeepsStore (holders tenant field value) := fun value =>
    (attempt_keepsStore _).bind fun _ => ensureServing_keepsStore.bind fun _ _ => rfl
  refine (hholders value).bind fun found => ?_
  cases found with
  | cons id ids => exact fun _ => rfl
  | nil =>
    refine KeepsStore.bind (fun _ => rfl) fun scope => ?_
    cases scope with
    | false => exact fun _ => rfl
    | true => exact hholders _

/-- Finding out which owner an event is about leaves the store, and encrypting it is atomic. -/
theorem handleEvent_atomic (event : Event) : Atomic (handleEvent event) := by
  refine .bind (fun _ => rfl) fun enabled => ?_
  cases enabled with
  | false => exact KeepsStore.atomic fun _ => rfl
  | true =>
    have howner : KeepsStore (ownerOfEvent event) := by
      cases event with
      | adminCreated tenant username =>
        exact (search_keepsStore tenant _ username).bind fun _ _ => rfl
      | _ => exact fun _ => rfl
    refine .bind howner fun found => ?_
    cases found with
    | some owner => exact transaction_atomic _
    | none => exact KeepsStore.atomic fun _ => rfl

/-- **Failures are atomic**, in every vault: whatever is in the store, whatever the key source
answers on each attempt, and whatever is out of order. If encrypting an owner or handling an event
fails, the store is as it was. If encrypting or decrypting a tenant fails, it has handled the first
few of its owners, in the order of their ids and each as a whole, and the rest are as they were. If
encrypting a tenant fails for want of a key, moreover, no record has changed, and all that can have
happened to a shadow record is that it was stale, belonged to one of the owners before, and is
gone. -/
theorem failures_atomic (v : Vault) :
    (∀ id e, answer (encryptOwner id) v = .error e →
      (after (encryptOwner id) v).store = v.store) ∧
    (∀ event e, answer (handleEvent event) v = .error e →
      (after (handleEvent event) v).store = v.store) ∧
    (∀ tenant e, answer (encryptAll tenant) v = .error e → ∃ done rest,
      EncryptedUpTo tenant done rest v (after (encryptAll tenant) v) ∧
        ∀ e', e = .key e' → v.SweptOnly done (after (encryptAll tenant) v)) ∧
    (∀ tenant e, answer (decryptAll tenant) v = .error e → ∃ done rest,
      DecryptedUpTo tenant done rest v (after (decryptAll tenant) v)) := by
  refine ⟨fun id => transaction_atomic (encryptOwnerIn id) v,
    fun event => handleEvent_atomic event v, fun tenant e he => ?_, fun tenant e _ => ?_⟩
  · obtain ⟨done, rest, hstopped, -⟩ := encryptAll_stops tenant v
    refine ⟨done, rest, hstopped.encryptedUpTo, fun e' hkey => ?_⟩
    subst hkey
    exact hstopped.sweptOnly ((encryptAll_steady tenant).unsettled v e' he)
  · obtain ⟨done, rest, hstopped, -⟩ := decryptAll_stops tenant v
    exact ⟨done, rest, hstopped.decryptedUpTo⟩

/-- Without a key, the first owner loses a stale shadow record and the second one ends the run. -/
theorem failures_atomic_alice_bob :
    let k : Key := ⟨List.replicate 16 7, .inl rfl⟩
    let alice : Owner := ⟨"alice", "acme", false, Registry.empty.file ⟨"email", none⟩⟩
    let bob : Owner := ⟨"bob", "acme", false, Registry.empty.file ⟨"email", some "b@acme"⟩⟩
    let store := { (({} : Store).putOwner alice).putOwner bob with
      shadows := Registry.empty.file ⟨⟨Block.zero⟩, "alice", "email", "$$$"⟩ }
    let v := (settled k store (Tenancy.none.setEnabled "acme" true)).calmed (.error .missing)
    answer (encryptAll "acme") v = .error (.key .missing) ∧
      (after (encryptAll "acme") v).store.owners = v.store.owners ∧
      (after (encryptAll "acme") v).store.shadow? "alice" "email" = none := by
  intro k alice bob store v
  have hfails : answer (encryptAll "acme") v = .error (.key .missing) := by decide +kernel +revert
  have hgone : (after (encryptAll "acme") v).store.shadow? "alice" "email" = none := by
    clear hfails
    decide +kernel +revert
  obtain ⟨-, -, hencrypt, -⟩ := failures_atomic v
  obtain ⟨done, rest, hstopped, hswept⟩ := hencrypt "acme" _ hfails
  exact ⟨hfails, (hswept .missing rfl).owners, hgone⟩

end Work

end FieldVault

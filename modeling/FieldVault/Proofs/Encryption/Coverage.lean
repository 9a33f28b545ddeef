/-
Encrypting a tenant leaves nothing plain in scope.

What is in scope after a run is in one of two states. It has the shape of a lookup hash, because it
was sealed or because it looked like one before; or it is a marked value that nobody can decrypt
with the key, and then it stands there untouched. Everything else had a plain text, and a plain text
is always sealed. The shadow records that are left all stand beside a value of the shape of a lookup
hash: those that were sealed for that reason, and the others because they would have been swept.
-/
import FieldVault.Proofs.Idempotence

set_option autoImplicit false

namespace FieldVault

open Vault

variable {k : Key} {v : Vault}

/-! ## Cells -/

namespace Cell

variable {c c' : Cell} {inScope : Bool} {value text : String}

/-- A value in scope that is no lookup hash after encrypting was there before, and is a token that
cannot be opened. -/
theorem EncryptsTo.hidden (h : EncryptsTo k true c c') (hstored : c'.stored = some value) :
    LookupHash.isShaped value = true ∨
      (Token.isMarked value = true ∧ c.stored = some value ∧
        ∀ text, reveal (.ok k) value ≠ .ok text) := by
  rcases h.cases with ⟨text, -, hsealed⟩ | ⟨hs, rfl⟩
  · cases hsealed.stored.symm.trans hstored
    exact .inl (LookupHash.isShaped_of text)
  · rw [stored_swept] at hstored
    cases hshaped : LookupHash.isShaped value with
    | true => exact .inl rfl
    | false =>
      -- Had it a plain text, there would have been something to seal.
      have hclosed : ∀ text, reveal (.ok k) value ≠ .ok text := by
        intro text hreveal
        have hsealable : c.sealable k true = some text :=
          sealable_eq_some_iff.2 ⟨rfl, value, hstored, hshaped, hreveal⟩
        cases hs.symm.trans hsealable
      refine .inr ⟨?_, hstored, hclosed⟩
      refine Bool.eq_true_of_not_eq_false fun hm => ?_
      exact hclosed value (reveal_of_not_marked _ hm)

/-- A shadow record that is left stands beside a value of the shape of a lookup hash. -/
theorem EncryptsTo.shaped (h : EncryptsTo k inScope c c') {shadow : Shadow}
    (hshadow : c'.shadow = some shadow) :
    ∃ hash, c'.stored = some hash ∧ LookupHash.isShaped hash = true :=
  isStale_eq_false_iff.1 (h.settled.not_stale hshadow)

end Cell

/-! ## Owners -/

namespace Vault

/-- What encrypting its tenant has made of an owner. A value in scope has the shape of a lookup
hash, unless it is a marked value that was there before and cannot be decrypted. A value in scope
that was no lookup hash and could be decrypted, as every value can that is not marked, is the lookup
hash of its text now and has a shadow record, with the id of the one before if there was one. And
shadow records stand beside lookup hashes only. -/
structure Conceals (v v' : Vault) (owner owner' : Owner) : Prop where
  hidden : ∀ field value, v.tenancy.inScope owner.tenant field = true →
    owner'.value field = some value → LookupHash.isShaped value = true ∨
      (Token.isMarked value = true ∧ owner.value field = some value ∧
        ∀ text, answer (FieldCipher.decrypt value) v.cipher ≠ .ok text)
  sealed : ∀ field value text, v.tenancy.inScope owner.tenant field = true →
    owner.value field = some value → LookupHash.isShaped value = false →
    answer (FieldCipher.decrypt value) v.cipher = .ok text →
    owner'.value field = some (LookupHash.of text) ∧
      ∃ shadow, v'.store.shadow? owner.id field = some shadow ∧
        ∀ old, v.store.shadow? owner.id field = some old → shadow.id = old.id
  shadows : ∀ shadow ∈ v'.store.shadowsOf owner.id,
    ∃ hash, owner'.value shadow.field = some hash ∧ LookupHash.isShaped hash = true

/-- The key that encrypts is the one that the next request gets. -/
theorem conceals_of_encrypted_with {v' : Vault} {owner owner' : Owner}
    (hkey : v.cipher.keys.get.1.outcome = .ok k)
    (ho : v.store.owner? owner.id = some owner) (ho' : v'.store.owner? owner.id = some owner')
    (hcells : ∀ field, Cell.EncryptsTo k (v.tenancy.inScope owner.tenant field)
      (v.store.cell owner.id field) (v'.store.cell owner.id field)) :
    v.Conceals v' owner owner' := by
  refine ⟨?_, ?_, ?_⟩
  · intro field value hscope hvalue
    have hcell := hcells field
    rw [hscope] at hcell
    rw [← Store.stored_cell ho'] at hvalue
    rw [← Store.stored_cell ho, FieldCipher.answer_decrypt_eq, hkey]
    exact hcell.hidden hvalue
  · intro field value text hscope hvalue hshaped hdecrypt
    have hcell := hcells field
    rw [hscope] at hcell
    rw [← Store.stored_cell ho] at hvalue
    rw [FieldCipher.answer_decrypt_eq, hkey] at hdecrypt
    have hsealed := hcell.sealed hvalue hshaped hdecrypt
    obtain ⟨shadow, -, hshadow, -, hid⟩ := hsealed.shadow
    refine ⟨?_, shadow, hshadow, hid⟩
    rw [← Store.stored_cell ho', hsealed.stored]
  · intro shadow hshadow
    rw [← Store.stored_cell ho']
    exact (hcells shadow.field).shaped (Store.mem_shadowsOf_iff.1 hshadow)

theorem conceals_of_encrypted {v' : Vault} {owner owner' : Owner} (h : v.Calm (.ok k))
    (ho : v.store.owner? owner.id = some owner) (ho' : v'.store.owner? owner.id = some owner')
    (hcells : ∀ field, Cell.EncryptsTo k (v.tenancy.inScope owner.tenant field)
      (v.store.cell owner.id field) (v'.store.cell owner.id field)) :
    v.Conceals v' owner owner' :=
  conceals_of_encrypted_with h.answers.outcome_get ho ho' hcells

end Vault

namespace Work

/-- **Encrypting a tenant leaves nothing plain in scope.** From every state of the store, with a key
at hand and encryption on: encrypting the tenant succeeds, no owner comes or goes, and every owner
of the tenant that is not a service account is concealed. -/
theorem encryptAll_conceals (h : v.Calm (.ok k)) {tenant : TenantId}
    (henabled : v.tenancy.enabled tenant = true) :
    ∃ report v', encryptAll tenant v = .ok report v' ∧
      (∀ id, v'.store.head? id = v.store.head? id) ∧
      ∀ owner, v.store.owner? owner.id = some owner → owner.tenant = tenant →
        owner.serviceAccount = false →
        ∃ owner', v'.store.owner? owner.id = some owner' ∧ v.Conceals v' owner owner' := by
  obtain ⟨report, v', hrun, hwrites, hcells⟩ := encryptAll_run h tenant
  refine ⟨report, v', hrun, hwrites.off.heads, ?_⟩
  intro owner ho htenant hservice
  obtain ⟨owner', ho', -⟩ := Store.exists_owner_of_head?_eq ho (hwrites.off.heads owner.id)
  refine ⟨owner', ho', conceals_of_encrypted h ho ho' fun field => ?_⟩
  -- Encryption is on and the owner is no service account, so its cells are worked on.
  have hcell := hcells owner.id owner ho htenant field
  rw [Cell.MigratesTo, hservice, htenant, henabled] at hcell
  rw [htenant]
  exact hcell

/-- An address in a core field is replaced by its lookup hash. -/
theorem encryptAll_conceals_alice :
    let k : Key := ⟨List.replicate 16 7, .inl rfl⟩
    let alice : Owner := ⟨"alice", "acme", false, Registry.empty.file ⟨"email", some "a@acme"⟩⟩
    let v := settled k (({} : Store).putOwner alice) (Tenancy.none.setEnabled "acme" true)
    ∃ report v' alice', encryptAll "acme" v = .ok report v' ∧
      v'.store.owner? "alice" = some alice' ∧
      alice'.value "email" = some (LookupHash.of "a@acme") ∧
      (v'.store.shadow? "alice" "email").isSome = true := by
  intro k alice v
  have hcalm : v.Calm (.ok k) := calm_settled k _ _
  have ho : v.store.owner? alice.id = some alice := Store.owner?_putOwner_self {} alice
  have henabled : v.tenancy.enabled "acme" = true := Tenancy.enabled_setEnabled_self _ _ _
  obtain ⟨report, v', hrun, -, howners⟩ := encryptAll_conceals hcalm henabled
  obtain ⟨alice', ho', hconceals⟩ := howners alice ho rfl rfl
  have hvalue : alice.value "email" = some "a@acme" :=
    Owner.value_write_self ⟨"alice", "acme", false, .empty⟩ "email" _
  have hdecrypt : answer (FieldCipher.decrypt "a@acme") v.cipher = .ok "a@acme" := by
    rw [FieldCipher.answer_decrypt hcalm.answers, reveal_of_not_marked _ (by decide)]
  obtain ⟨hhash, shadow, hshadow, -⟩ :=
    hconceals.sealed "email" "a@acme" "a@acme" (by decide) hvalue (by decide) hdecrypt
  refine ⟨report, v', alice', hrun, ho', hhash, ?_⟩
  rw [Option.isSome_iff_exists]
  exact ⟨shadow, hshadow⟩

end Work

end FieldVault

/-
Switching a tenant on, whatever the source of the key does.

The key is asked for before anything else, and what that one request gets decides the run. If it
fails, nothing has been done yet. If it gets a key, the provider is settled on it and never asks its
source again, so the source may be out of reach by the time the owners are encrypted. From then on
the vault is calm, and in a calm vault encrypting a tenant cannot fail: the owners that it lists are
there, and a field has no second shadow record to refuse.
-/
import FieldVault.Proofs.Encryption.Coverage
import FieldVault.Proofs.Steady
import FieldVault.Proofs.Switching

set_option autoImplicit false

namespace FieldVault

open Vault

/-- What switching its tenant on makes of an owner. A service account is left as it is. Of any other
owner every field is encrypted if it is in scope, and nothing plain is left there. -/
structure Vault.Converts (k : Key) (v v' : Vault) (owner : Owner) : Prop where
  service : owner.serviceAccount = true → v'.store.view? owner.id = v.store.view? owner.id
  cells : owner.serviceAccount = false → ∀ field,
    Cell.EncryptsTo k (v.tenancy.inScope owner.tenant field) (v.store.cell owner.id field)
      (v'.store.cell owner.id field)
  conceals : owner.serviceAccount = false →
    ∃ owner', v'.store.owner? owner.id = some owner' ∧ v.Conceals v' owner owner'

namespace Work

variable {v : Vault} {tenant : TenantId}

/-- Without a key, switching a tenant on comes to nothing. -/
theorem switchOn_run_of_no_key {e : KeyError} (hkey : v.cipher.keys.get.1.outcome = .error e)
    (tenant : TenantId) :
    setTenantEncryption tenant true v =
      .error (.key e) { v with cipher := after FieldCipher.key v.cipher } := by
  have hfails : answer (onCipher FieldCipher.key) v = .error (.key e) := by
    rw [answer_onCipher, FieldCipher.answer_key_eq, hkey]
    rfl
  have hrun := run_of_answer_error hfails
  rw [after_onCipher] at hrun
  exact run_bind_of_error hrun _

/-- Encrypting a tenant that is switched on converts its owners. -/
theorem converts_of_migrated {k : Key} {v' : Vault} {owner : Owner}
    (hkey : v.cipher.keys.get.1.outcome = .ok k) (ho : v.store.owner? owner.id = some owner)
    (hhead : v'.store.head? owner.id = v.store.head? owner.id)
    (henabled : v.tenancy.enabled owner.tenant = true)
    (hcells : ∀ field, Cell.MigratesTo k v.tenancy (owner.tenant, owner.serviceAccount) field
      (v.store.cell owner.id field) (v'.store.cell owner.id field)) :
    v.Converts k v' owner := by
  have hencrypts : owner.serviceAccount = false → ∀ field,
      Cell.EncryptsTo k (v.tenancy.inScope owner.tenant field) (v.store.cell owner.id field)
        (v'.store.cell owner.id field) := by
    intro hservice field
    exact (hcells field).encrypts henabled hservice
  refine ⟨?_, hencrypts, ?_⟩
  · intro hservice
    refine (Store.view?_eq_iff ho hhead).2 ?_
    intro field
    exact (hcells field).stays (.inl hservice)
  · intro hservice
    obtain ⟨owner', ho', -⟩ := Store.exists_owner_of_head?_eq ho hhead
    exact ⟨owner', ho', conceals_of_encrypted_with hkey ho ho' (hencrypts hservice)⟩

/-- **Switching a tenant on is all or nothing.** From every state of the store and of the settings,
and whatever the source of the key answers now and later: if the first request for the key fails,
that failure is the answer, the store and the settings are as they were, and no key is settled.
Otherwise the run succeeds and the vault is settled on the key. The flag of the tenant is set, and
it is the only setting that changes. No failure is reported, every owner of the tenant is converted,
and nobody else is touched. -/
theorem setTenantEncryption_all_or_nothing (hserving : v.poisoned = false)
    (houtages : v.outages = .none) (tenant : TenantId) :
    (∃ e v', setTenantEncryption tenant true v = .error (.key e) v' ∧
      v.cipher.keys.get.1.outcome = .error e ∧
      v'.store = v.store ∧ v'.tenancy = v.tenancy ∧ v'.key? = none) ∨
    (∃ k report v', setTenantEncryption tenant true v = .ok report v' ∧
      v.cipher.keys.get.1.outcome = .ok k ∧ v'.key? = some k ∧
      v'.tenancy = v.tenancy.setEnabled tenant true ∧ report.failures = [] ∧
      v.store.SameOff (fun id _ => id ∈ v.store.ownersIn tenant) v'.store ∧
      ∀ owner, v.store.owner? owner.id = some owner → owner.tenant = tenant →
        ({ v with tenancy := v.tenancy.setEnabled tenant true } : Vault).Converts k v' owner) := by
  cases hkey : v.cipher.keys.get.1.outcome with
  | error e =>
    refine .inl ⟨e, _, switchOn_run_of_no_key hkey tenant, rfl, rfl, rfl, ?_⟩
    rw [key?, FieldCipher.keys_after_key, KeyProvider.key_get, hkey]
    rfl
  | ok k =>
    -- From the first answer on the source is not asked again, and the vault is calm.
    obtain ⟨w, hcalm, hsettled, hstore, htenancy, hon⟩ :=
      switchOn_run_of_key hserving houtages hkey tenant
    obtain ⟨report, v', hrun, hwrites, hcells⟩ := encryptAll_run hcalm tenant
    have hclean := encryptAll_clean tenant w report (answer_of_run hrun)
    have hkept := (encryptAll_steady tenant).keeps w k hsettled
    rw [after_of_run hrun] at hkept
    rw [hstore, htenancy] at hcells
    have hoff := hwrites.off
    rw [hstore] at hoff
    refine .inr ⟨k, report, v', hon.trans hrun, rfl, hkept, hwrites.tenancy.trans htenancy, hclean,
      hoff, ?_⟩
    intro owner ho htenant
    refine converts_of_migrated hkey ho (hoff.heads owner.id) ?_ (hcells owner.id owner ho htenant)
    rw [htenant]
    exact Tenancy.enabled_setEnabled_self _ _ _

/-- A source that answers at first and then fails is enough to encrypt a tenant. One that fails at
first and then answers is not. -/
theorem setTenantEncryption_all_or_nothing_alice :
    let k : Key := ⟨List.replicate 16 0x61, .inl rfl⟩
    let found : KeyAnswer := ⟨.ok (some "aaaaaaaaaaaaaaaa"), .ok none⟩
    let lost : KeyAnswer := ⟨.error .missing, .ok none⟩
    let alice : Owner := ⟨"alice", "acme", false, Registry.empty.file ⟨"email", some "a@acme"⟩⟩
    let v (source : KeySource) : Vault :=
      { settled k (({} : Store).putOwner alice) .none with
        cipher := ⟨⟨source, 0, none⟩, ⟨fun _ => Block.zero, 0⟩, []⟩ }
    (∃ report v' alice', setTenantEncryption "acme" true (v (.script [found, lost])) =
        .ok report v' ∧ v'.tenancy.enabled "acme" = true ∧
      v'.store.owner? "alice" = some alice' ∧
      alice'.value "email" = some (LookupHash.of "a@acme")) ∧
    ∃ v', setTenantEncryption "acme" true (v (.script [lost, found])) =
        .error (.key .missing) v' ∧ v'.tenancy.enabled "acme" = false ∧
      v'.store.owner? "alice" = some alice := by
  intro k found lost alice v
  have ho : (({} : Store).putOwner alice).owner? alice.id = some alice :=
    Store.owner?_putOwner_self {} alice
  have hkey : (v (.script [found, lost])).cipher.keys.get.1.outcome = .ok k := by decide +kernel
  have hvalue : alice.value "email" = some "a@acme" :=
    Owner.value_write_self ⟨"alice", "acme", false, .empty⟩ "email" _
  refine ⟨?_, ?_⟩
  · rcases setTenantEncryption_all_or_nothing (v := v (.script [found, lost])) rfl rfl "acme" with
      ⟨e, v', -, hfails, -⟩ | ⟨k', report, v', hrun, -, -, htenancy, -, -, hconverts⟩
    · rw [hkey] at hfails
      cases hfails
    · obtain ⟨alice', ho', hconceals⟩ := (hconverts alice ho rfl).conceals rfl
      refine ⟨report, v', alice', hrun, ?_, ho', ?_⟩
      · rw [htenancy]
        exact Tenancy.enabled_setEnabled_self _ _ _
      · refine (hconceals.sealed "email" "a@acme" "a@acme" (by decide) hvalue (by decide) ?_).1
        rw [FieldCipher.answer_decrypt_eq, reveal_of_not_marked _ (by decide)]
  · rcases setTenantEncryption_all_or_nothing (v := v (.script [lost, found])) rfl rfl "acme" with
      ⟨e, v', hrun, hfails, hstore, htenancy, -⟩ | ⟨k', report, v', -, hfound, -⟩
    · cases hfails
      refine ⟨v', hrun, ?_, ?_⟩
      · rw [htenancy]
        rfl
      · rw [hstore]
        exact ho
    · cases hfound

end Work

end FieldVault

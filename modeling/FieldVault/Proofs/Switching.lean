/-
Switching a tenant on and off again.

Switching on encrypts the tenant and switching off decrypts it, so together they are the round trip
of the tenant. The vault may be another one by the time the tenant is switched off, as it is when
each switch is a run of its own over the store that the run before left. All that it must share with
the first one is the key.
-/
import FieldVault.Proofs.RoundTrip

set_option autoImplicit false

namespace FieldVault

open Vault

/-- The owners of the tenant have no shadow records, and no value of theirs is marked as a token. -/
def Store.Untouched (s : Store) (tenant : TenantId) : Prop :=
  ∀ id owner, s.owner? id = some owner → owner.tenant = tenant → s.shadowsOf owner.id = [] ∧
    ∀ field value, owner.value field = some value → Token.isMarked value = false

namespace Work

variable {k : Key} {v : Vault}

/-- If the next request gets a key, switching a tenant on encrypts it in a vault that has settled on
the key and has the flag of the tenant set. -/
theorem switchOn_run_of_key (hserving : v.poisoned = false) (houtages : v.outages = .none)
    (hkey : v.cipher.keys.get.1.outcome = .ok k) (tenant : TenantId) :
    ∃ w, w.Calm (.ok k) ∧ w.cipher.keys.key = some k ∧ w.store = v.store ∧
      w.tenancy = v.tenancy.setEnabled tenant true ∧
      setTenantEncryption tenant true v = encryptAll tenant w := by
  have hasked : onCipher FieldCipher.key v =
      .ok k { v with cipher := after FieldCipher.key v.cipher } := by
    have hok : answer (onCipher FieldCipher.key) v = .ok k := by
      rw [answer_onCipher, FieldCipher.answer_key_eq, hkey]
      rfl
    rw [run_of_answer hok, after_onCipher]
  have hsettled : (after FieldCipher.key v.cipher).keys.key = some k := by
    rw [FieldCipher.keys_after_key, KeyProvider.key_get, hkey]
    rfl
  have hcalm : ({ v with cipher := after FieldCipher.key v.cipher } : Vault).Calm (.ok k) :=
    ⟨KeyProvider.answers_of_key hsettled, hserving, houtages⟩
  refine ⟨_, ?_, ?_, ?_, ?_, (run_bind_of_ok hasked _).trans
    (run_bind_of_ok (setEnabled_run hcalm tenant true) _)⟩
  · exact ⟨hcalm.answers, hserving, houtages⟩
  · exact hsettled
  · rfl
  · rfl

/-- With a key at hand, switching a tenant on encrypts it in a vault over the same store. -/
theorem switchOn_run (h : v.Calm (.ok k)) (tenant : TenantId) :
    ∃ w, w.Calm (.ok k) ∧ w.store = v.store ∧
      setTenantEncryption tenant true v = encryptAll tenant w := by
  obtain ⟨w, hcalm, -, hstore, -, hrun⟩ :=
    switchOn_run_of_key h.serving h.outages h.answers.outcome_get tenant
  exact ⟨w, hcalm, hstore, hrun⟩

/-- **On and off again.** Switching a tenant on, and off again in whatever calm vault with the same
key the store is by then, restores an untouched tenant, and no failure is reported on either way. -/
theorem switch_restores (h : v.Calm (.ok k)) {tenant : TenantId}
    (huntouched : v.store.Untouched tenant) :
    ∃ encrypted v₁, setTenantEncryption tenant true v = .ok encrypted v₁ ∧
      encrypted.failures = [] ∧ ∀ w₁ : Vault, w₁.Calm (.ok k) → w₁.store = v₁.store →
        ∃ restored v₂, setTenantEncryption tenant false w₁ = .ok restored v₂ ∧
          restored.failures = [] ∧ v₂.store = v.store := by
  obtain ⟨w, hcalm, hstore, hon⟩ := switchOn_run h tenant
  have hplain : ∀ id owner, w.store.owner? id = some owner → owner.tenant = tenant →
      w.Untouched owner := by
    intro id owner ho htenant
    rw [hstore] at ho
    obtain ⟨hshadows, hvalues⟩ := huntouched id owner ho htenant
    exact ⟨hstore ▸ hshadows, hvalues⟩
  obtain ⟨encrypted, v₁, hencrypt, -⟩ := encryptAll_run hcalm tenant
  have hclean := encryptAll_clean tenant w encrypted (answer_of_run hencrypt)
  refine ⟨encrypted, v₁, hon.trans hencrypt, hclean, fun w₁ hcalm₁ hstore₁ => ?_⟩
  -- Switching off changes a setting that decrypting does not look at.
  have hoff : setTenantEncryption tenant false w₁ =
      decryptAll tenant { w₁ with tenancy := w₁.tenancy.setEnabled tenant false } :=
    run_bind_of_ok (setEnabled_run hcalm₁ tenant false) _
  have hcalm₂ : ({ w₁ with tenancy := w₁.tenancy.setEnabled tenant false } : Vault).Calm (.ok k) :=
    ⟨hcalm₁.answers, hcalm₁.serving, hcalm₁.outages⟩
  obtain ⟨direct, w', restored, v₂, hdirect, -, hrestored, hfailures, hstore₂⟩ :=
    decryptAll_of_encrypted_store hcalm (fun id owner ho htenant =>
      (hplain id owner ho htenant).restorable) hencrypt hcalm₂ hstore₁
  refine ⟨restored, v₂, hoff.trans hrestored, hfailures, ?_⟩
  rw [hstore₂, decryptAll_store_of_untouched hcalm hplain hdirect, hstore]

end Work

end FieldVault

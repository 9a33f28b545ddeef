/-
Vaults in which anything can happen.

The source of the key may answer differently each time it is asked, any call may be out of order,
and the store may have been poisoned. Some things can be said of migrating owners all the same. The
settings of the tenants stay, and so does a key that is settled. Work that fails for want of a key
leaves none settled, so no part of it had one. And work that comes to its end, or fails over a
value only, has met with no disturbance: it ran as it would have run in a vault in which nothing is
out of order and every request for the key gets the answer that was settled on the way, any answer
if none was. So what is known of calm vaults carries over to every run that succeeds.

All of this is kept when work is put together, and it is kept together: that a part has met with no
other key than the whole rests on keys staying settled.
-/
import FieldVault.Migration
import FieldVault.Proofs.Vault

set_option autoImplicit false

namespace FieldVault

variable {α β : Type} {r : Except KeyError Key}

/-- The answer is a result, or a failure of a single value. -/
def Undisturbed (x : Except Error α) : Prop := ∀ e, x = .error e → e.isOfValue = true

theorem undisturbed_ok (a : α) : Undisturbed (.ok a : Except Error α) := fun _ he => by cases he

namespace Vault

/-- The vault as it would be if nothing were out of order and every request for the key got this
answer. -/
def calmed (r : Except KeyError Key) (v : Vault) : Vault :=
  { v with
    cipher := { v.cipher with keys := .answering r }
    poisoned := false
    outages := .none }

/-- The second vault is calm, answers requests for the key with `r`, and has the same store, the
same settings and the same draws ahead as the first. -/
structure Calmed (r : Except KeyError Key) (v w : Vault) : Prop where
  calm : w.Calm r
  store : w.store = v.store
  tenancy : w.tenancy = v.tenancy
  ids : w.ids = v.ids
  ivs : w.cipher.ivs = v.cipher.ivs

theorem calmed_calmed (r : Except KeyError Key) (v : Vault) : v.Calmed r (v.calmed r) :=
  ⟨⟨KeyProvider.answers_answering r, rfl, rfl⟩, rfl, rfl, rfl, rfl⟩

/-- The key that the vault has settled on. -/
def key? (v : Vault) : Option Key := v.cipher.keys.key

end Vault

namespace Work

open Vault

/-- However it ends, the work leaves the settings and does nothing about keys but settle one; and if
it is not disturbed, it runs as in a calm vault. -/
structure Steady (work : Work α) : Prop where
  tenancy : ∀ v, (after work v).tenancy = v.tenancy
  keeps : ∀ v k, v.key? = some k → (after work v).key? = some k
  unsettled : ∀ v e, answer work v = .error (.key e) → (after work v).key? = none
  runs : ∀ r v w, v.Calmed r w → (after work v).cipher.keys.Allows r →
    Undisturbed (answer work v) →
      answer work w = answer work v ∧ (after work v).Calmed r (after work w)

namespace Steady

/-- What is allowed at the end was allowed before. -/
theorem allows {work : Work α} (h : Steady work) {v : Vault}
    (hallows : (after work v).cipher.keys.Allows r) : v.cipher.keys.Allows r :=
  fun k hk => hallows k (h.keeps v k hk)

/-! ## Parts -/

/-- Work that has nothing to do with the cipher. -/
theorem of_plain {work : Work α}
    (hkept : ∀ v, (after work v).tenancy = v.tenancy ∧ (after work v).cipher = v.cipher)
    (hkey : ∀ v e, answer work v ≠ .error (.key e))
    (hruns : ∀ r v w, v.Calmed r w → Undisturbed (answer work v) →
      answer work w = answer work v ∧ (after work v).Calmed r (after work w)) : Steady work := by
  refine ⟨fun v => (hkept v).1, fun v k hk => ?_, fun v e he => absurd he (hkey v e),
    fun r v w hvw _ => hruns r v w hvw⟩
  unfold key?
  rw [(hkept v).2]
  exact hk

theorem throw {e : Error} (h : ∀ e', e ≠ .key e') : Steady (throwThe Error e : Work α) := by
  refine .of_plain (fun _ => ⟨rfl, rfl⟩) (fun _ e' he => ?_) fun _ _ _ hvw _ => ⟨rfl, hvw⟩
  cases he
  exact h e' rfl

/-- Work that fails over the store, which is a disturbance, if it fails. -/
theorem of_call {work : Work α}
    (hkept : ∀ v, (after work v).tenancy = v.tenancy ∧ (after work v).cipher = v.cipher)
    (hends : ∀ v, (∃ a, answer work v = .ok a) ∨ ∃ e, answer work v = .error (.store e))
    (hruns : ∀ r v w a, v.Calmed r w → answer work v = .ok a →
      answer work w = .ok a ∧ (after work v).Calmed r (after work w)) : Steady work := by
  refine .of_plain hkept (fun v e he => ?_) fun r v w hvw hcalm => ?_
  · rcases hends v with ⟨a, hok⟩ | ⟨e', hfails⟩
    · rw [hok] at he
      cases he
    · rw [hfails] at he
      cases he
  · rcases hends v with ⟨a, hok⟩ | ⟨e, hfails⟩
    · rw [hok]
      exact hruns r v w a hvw hok
    · rw [hfails] at hcalm
      cases hcalm _ rfl

/-- Work that looks at the store or the settings. -/
theorem of_look {work : Work α} (look : Store → Tenancy → α)
    (h : ∀ v, work v = .ok (look v.store v.tenancy) v) : Steady work := by
  refine .of_call (fun v => ?_) (fun v => .inl ⟨_, answer_of_run (h v)⟩) fun r v w a hvw ha => ?_
  · rw [after_of_run (h v)]
    exact ⟨rfl, rfl⟩
  · rw [← ha, answer_of_run (h v), answer_of_run (h w), after_of_run (h v), after_of_run (h w),
      hvw.store, hvw.tenancy]
    exact ⟨rfl, hvw⟩

theorem pure (a : α) : Steady (Pure.pure a : Work α) := .of_look (fun _ _ => a) fun _ => rfl

theorem attempt (call : Call) : Steady (attempt call) := by
  refine .of_call (fun v => ?_) (fun v => (answer_attempt call v).imp_left fun hok => ⟨(), hok⟩)
    fun r v w _ hvw _ => ?_
  · obtain ⟨outages, hafter⟩ := after_attempt call v
    rw [hafter]
    exact ⟨rfl, rfl⟩
  · obtain ⟨outages, hafter⟩ := after_attempt call v
    have hw := attempt_run hvw.calm call
    rw [answer_of_run hw, after_of_run hw, hafter]
    exact ⟨rfl, hvw.calm, hvw.store, hvw.tenancy, hvw.ids, hvw.ivs⟩

theorem ensureServing : Steady ensureServing := by
  refine .of_call (fun v => ?_) (fun v => ?_) fun r v w _ hvw _ => ?_
  · rw [after_ensureServing]
    exact ⟨rfl, rfl⟩
  · exact (answer_ensureServing v).imp (fun hok => ⟨(), hok⟩) fun hfails => ⟨_, hfails⟩
  · rw [after_ensureServing, after_ensureServing, answer_of_run (ensureServing_run hvw.calm)]
    exact ⟨rfl, hvw⟩

theorem changeStore (change : Store → Except StoreError Store) : Steady (changeStore change) := by
  refine .of_call (fun v => ?_) (fun v => ?_) fun r v w _ hvw hok => ?_
  · obtain ⟨store, hafter⟩ := after_changeStore change v
    rw [hafter]
    exact ⟨rfl, rfl⟩
  · unfold answer Work.changeStore
    cases change v.store with
    | ok store => exact .inl ⟨(), rfl⟩
    | error e => exact .inr ⟨e, rfl⟩
  · simp only [answer, after, Work.changeStore, hvw.store] at hok ⊢
    cases hchange : change v.store with
    | ok store =>
      exact ⟨rfl, (hvw.calm.follows_store store).calm, rfl, hvw.tenancy, hvw.ids, hvw.ivs⟩
    | error e =>
      rw [hchange] at hok
      cases hok

theorem newShadow (owner : OwnerId) (field : FieldName) : Steady (newShadow owner field) := by
  refine .of_call (fun _ => ⟨rfl, rfl⟩) (fun _ => .inl ⟨_, rfl⟩) fun r v w a hvw ha => ?_
  have hids := congrArg Supply.next hvw.ids
  have hdraws : ∀ v : Vault, answer (Work.newShadow owner field) v =
      .ok ⟨v.ids.next.1, owner, field, ""⟩ := fun _ => rfl
  rw [← ha, hdraws, hdraws, hids]
  exact ⟨rfl, ⟨hvw.calm.answers, hvw.calm.serving, hvw.calm.outages⟩, hvw.store, hvw.tenancy,
    congrArg Prod.snd hids, hvw.ivs⟩

theorem note (notice : Notice) : Steady (note notice) :=
  ⟨fun _ => rfl, fun _ _ hk => hk, fun _ _ he => (by cases he), fun _ _ _ hvw _ _ =>
    ⟨rfl, ⟨hvw.calm.answers, hvw.calm.serving, hvw.calm.outages⟩, hvw.store, hvw.tenancy, hvw.ids,
      hvw.ivs⟩⟩

/-- Asking for the key settles it, unless the request fails. -/
theorem key : Steady (onCipher FieldCipher.key) := by
  have hsettles : ∀ v : Vault, (after (onCipher FieldCipher.key) v).key? =
      v.cipher.keys.get.1.outcome.toOption := by
    intro v
    rw [after_onCipher]
    exact (congrArg KeyProvider.key (FieldCipher.keys_after_key v.cipher)).trans
      (KeyProvider.key_get _)
  have hanswers : ∀ v, answer (onCipher FieldCipher.key) v =
      v.cipher.keys.get.1.outcome.mapError Error.key := by
    intro v
    rw [answer_onCipher, FieldCipher.answer_key_eq]
  refine ⟨fun v => ?_, fun v k hk => ?_, fun v e he => ?_, fun r v w hvw hallows hcalm => ?_⟩
  · rw [after_onCipher]
  · rw [hsettles, KeyProvider.get_of_key hk]
    rfl
  · rw [hanswers] at he
    rw [hsettles]
    cases ho : v.cipher.keys.get.1.outcome with
    | ok k =>
      rw [ho] at he
      cases he
    | error e => rfl
  · rw [hanswers v] at hcalm ⊢
    cases ho : v.cipher.keys.get.1.outcome with
    | error e =>
      rw [ho] at hcalm
      cases hcalm _ rfl
    | ok k =>
      -- The key that is settled now is the one that the calm vault has.
      have hr : r = .ok k := by
        apply hallows k
        have hkey := hsettles v
        rw [ho] at hkey
        exact hkey
      subst hr
      have hw := key_reads hvw.calm
      refine ⟨hw.answer, hw.reads.calm, ?_, ?_, ?_, ?_⟩
      · rw [hw.reads.store, after_onCipher, hvw.store]
      · rw [hw.reads.tenancy, after_onCipher, hvw.tenancy]
      · rw [hw.reads.ids, after_onCipher, hvw.ids]
      · rw [hw.reads.ivs, after_onCipher, hvw.ivs, FieldCipher.ivs_after_key]

theorem drawIv : Steady (onCipher FieldCipher.drawIv) := by
  refine ⟨fun _ => rfl, fun _ _ hk => hk, fun _ _ he => (by cases he), fun r v w hvw _ _ => ?_⟩
  have hivs := congrArg Supply.next hvw.ivs
  have hdraws : ∀ v, answer (onCipher FieldCipher.drawIv) v = .ok v.cipher.ivs.next.1 :=
    fun _ => rfl
  refine ⟨by rw [hdraws, hdraws, hivs],
    ⟨hvw.calm.answers, hvw.calm.serving, hvw.calm.outages⟩, hvw.store, hvw.tenancy, hvw.ids,
    congrArg Prod.snd hivs⟩

/-! ## Putting work together -/

theorem bind {work : Work α} {next : α → Work β} (h : Steady work)
    (hnext : ∀ a, Steady (next a)) : Steady (work >>= next) := by
  refine ⟨fun v => ?_, fun v k hk => ?_, fun v e he => ?_, fun r v w hvw hallows hcalm => ?_⟩
  · rw [after_bind]
    cases answer work v with
    | ok a => exact ((hnext a).tenancy _).trans (h.tenancy v)
    | error e => exact h.tenancy v
  · have hk' := h.keeps v k hk
    rw [after_bind]
    cases answer work v with
    | ok a => exact (hnext a).keeps _ k hk'
    | error e => exact hk'
  · cases ha : answer work v with
    | ok a =>
      rw [answer_bind_of_ok ha] at he
      rw [after_bind_of_ok ha]
      exact (hnext a).unsettled _ e he
    | error e' =>
      rw [answer_bind_of_error ha] at he
      rw [after_bind_of_error ha]
      cases he
      exact h.unsettled v e ha
  · cases ha : answer work v with
    | ok a =>
      rw [answer_bind_of_ok ha] at hcalm ⊢
      rw [after_bind_of_ok ha] at hallows ⊢
      obtain ⟨hw, hvw'⟩ := h.runs r v w hvw ((hnext a).allows hallows) (ha ▸ undisturbed_ok a)
      rw [ha] at hw
      rw [answer_bind_of_ok hw, after_bind_of_ok hw]
      exact (hnext a).runs r _ _ hvw' hallows hcalm
    | error e =>
      rw [answer_bind_of_error ha] at hcalm ⊢
      rw [after_bind_of_error ha] at hallows ⊢
      obtain ⟨hw, hvw'⟩ := h.runs r v w hvw hallows fun e' he' => hcalm e' (by cases ha ▸ he'; rfl)
      rw [ha] at hw
      rw [answer_bind_of_error hw, after_bind_of_error hw]
      exact ⟨rfl, hvw'⟩

theorem each {work : α → Work β} (h : ∀ a, Steady (work a)) (items : List α) :
    Steady (each work items) := by
  induction items with
  | nil => exact .pure []
  | cons a as ih => exact (h a).bind fun _ => ih.bind fun _ => .pure _

theorem tally {work : α → Work Report} (h : ∀ a, Steady (work a)) (items : List α) :
    Steady (tally work items) :=
  (Steady.each h items).bind fun _ => .pure _

/-- A handler may look at failures of values only: any other one it throws again. -/
theorem handle {work : Work α} {next : Except Error α → Work β} (h : Steady work)
    (hnext : ∀ x, Undisturbed x → Steady (next x))
    (hrethrow : ∀ v e, answer work v = .error e → e.isOfValue = false →
      next (.error e) = throwThe Error e) : Steady (outcome work >>= next) := by
  have hok : ∀ v, answer (outcome work) v = .ok (answer work v) := answer_outcome work
  -- Either the handler is at work, or the failure goes through.
  have hcases : ∀ v, Undisturbed (answer work v) ∨ ∃ e, answer work v = .error e ∧
      e.isOfValue = false ∧ next (answer work v) = throwThe Error e := by
    intro v
    cases ha : answer work v with
    | ok a => exact .inl (undisturbed_ok a)
    | error e =>
      cases hv : e.isOfValue with
      | true => exact .inl fun e' he' => by cases he'; exact hv
      | false => exact .inr ⟨e, rfl, hv, hrethrow v e ha hv⟩
  refine ⟨fun v => ?_, fun v k hk => ?_, fun v e he => ?_, fun r v w hvw hallows hcalm => ?_⟩
  · rw [after_bind_of_ok (hok v), after_outcome]
    rcases hcases v with hv | ⟨e, -, -, hthrow⟩
    · exact ((hnext _ hv).tenancy _).trans (h.tenancy v)
    · rw [hthrow]
      exact h.tenancy v
  · have hk' := h.keeps v k hk
    rw [after_bind_of_ok (hok v), after_outcome]
    rcases hcases v with hv | ⟨e, -, -, hthrow⟩
    · exact (hnext _ hv).keeps _ k hk'
    · rw [hthrow]
      exact hk'
  · rw [answer_bind_of_ok (hok v), after_outcome] at he
    rw [after_bind_of_ok (hok v), after_outcome]
    rcases hcases v with hv | ⟨e', ha, -, hthrow⟩
    · exact (hnext _ hv).unsettled _ e he
    · rw [hthrow] at he ⊢
      cases he
      exact h.unsettled v e ha
  · rw [answer_bind_of_ok (hok v), after_outcome] at hcalm ⊢
    rw [after_bind_of_ok (hok v), after_outcome] at hallows ⊢
    rcases hcases v with hv | ⟨e, -, hof, hthrow⟩
    · obtain ⟨hw, hvw'⟩ := h.runs r v w hvw ((hnext _ hv).allows hallows) hv
      rw [answer_bind_of_ok (hok w), after_bind_of_ok (hok w), after_outcome, hw]
      exact (hnext _ hv).runs r _ _ hvw' hallows hcalm
    · rw [hthrow] at hcalm
      rw [hcalm e rfl] at hof
      cases hof

/-- What a failed unit of work brings back is the same in the calm vault. -/
theorem undoing {work : Work α} (h : Steady work) : Steady (undoing work) := by
  have hcipher : ∀ v, (after (Work.undoing work) v).cipher = (after work v).cipher := by
    intro v
    rw [after_undoing]
    cases answer work v <;> rfl
  refine ⟨fun v => ?_, fun v k hk => ?_, fun v e he => ?_, fun r v w hvw hallows hcalm => ?_⟩
  · rw [after_undoing]
    cases answer work v <;> exact h.tenancy v
  · unfold key?
    rw [hcipher]
    exact h.keeps v k hk
  · unfold key?
    rw [hcipher]
    rw [answer_undoing] at he
    exact h.unsettled v e he
  · rw [hcipher] at hallows
    rw [answer_undoing] at hcalm
    obtain ⟨hanswer, hafter⟩ := h.runs r v w hvw hallows hcalm
    rw [answer_undoing, answer_undoing, after_undoing, after_undoing, hanswer]
    refine ⟨rfl, ?_⟩
    cases answer work v with
    | ok a => exact hafter
    | error e =>
      exact ⟨(hafter.calm.follows_store _).calm, hvw.store, hafter.tenancy, hafter.ids, hafter.ivs⟩

theorem transaction {work : Work α} (h : Steady work) : Steady (transaction work) := by
  have hbegin : Steady begin := (attempt .transaction).bind fun _ => ensureServing
  rw [transaction_eq]
  exact hbegin.bind fun _ => h.undoing

end Steady

/-! ## Ciphers -/

section Cipher

variable (action : FieldCipher.Action α)

theorem onCipher_bind (next : α → FieldCipher.Action β) :
    onCipher (action >>= next) = onCipher action >>= fun a => onCipher (next a) := by
  funext v
  simp only [onCipher, bind, EStateM.bind]
  cases action v.cipher <;> rfl

theorem onCipher_outcome : onCipher (outcome action) = outcome (onCipher action) := by
  funext v
  simp only [onCipher, outcome]
  cases action v.cipher <;> rfl

end Cipher

theorem decrypt_steady (value : String) : Steady (onCipher (FieldCipher.decrypt value)) := by
  rw [FieldCipher.decrypt_eq]
  split
  · cases Token.parse value with
    | error fault => exact .throw fun _ he => by cases he
    | ok token =>
      simp only
      rw [FieldCipher.openWithKey, onCipher_bind]
      refine Steady.key.bind fun k => ?_
      cases hu : k.unsealText token with
      | error fault => exact .throw fun _ he => by cases he
      | ok text => exact .pure text
  · exact .pure value

theorem encrypt_steady (value : String) : Steady (onCipher (FieldCipher.encrypt value)) := by
  rw [FieldCipher.encrypt]
  split
  · exact .pure value
  · rw [onCipher_bind]
    refine Steady.key.bind fun k => ?_
    rw [onCipher_bind]
    exact Steady.drawIv.bind fun _ => .pure _

/-- Decrypting fails over the value or for want of a key. -/
theorem decrypt_error {value : String} {v : Vault} {e : Error}
    (h : answer (onCipher (FieldCipher.decrypt value)) v = .error e) :
    e.isOfValue = true ∨ ∃ e', e = .key e' := by
  rw [answer_onCipher, FieldCipher.answer_decrypt_eq] at h
  exact (reveal_error h).imp_right fun ⟨e', he, _⟩ => ⟨e', he⟩

theorem decryptVerified_steady (field : FieldRef) (stored : Option String) (ciphertext : String) :
    Steady (onCipher (FieldCipher.decryptVerified field stored ciphertext)) := by
  rw [FieldCipher.decryptVerified, onCipher_bind, onCipher_outcome]
  refine (decrypt_steady ciphertext).handle (fun x hx => ?_) fun v e he hof => ?_
  · cases x with
    | ok text =>
      simp only
      split
      · exact .pure text
      · exact .throw fun _ he => by cases he
    | error e =>
      cases e with
      | key e => cases hx _ rfl
      | _ => exact .throw fun _ he => by cases he
  · rcases decrypt_error he with hv | ⟨e', rfl⟩
    · rw [hv] at hof
      cases hof
    · rfl

/-! ## Encrypting an owner -/

theorem plainText_steady (owner : OwnerId) (field : FieldName) (value : String) :
    Steady (plainText owner field value) := by
  rw [plainText]
  split
  · refine (decrypt_steady value).handle (fun x hx => ?_) fun v e he hof => ?_
    · cases x with
      | ok text => exact .pure _
      | error e =>
        cases e with
        | key e => cases hx _ rfl
        | _ => exact (Steady.note _).bind fun _ => .pure _
    · rcases decrypt_error he with hv | ⟨e', rfl⟩
      · rw [hv] at hof
        cases hof
      · rfl
  · exact .pure _

theorem Steady.lookup (call : Call) (read : Store → α) :
    Steady (do Work.attempt call; fromStore read) :=
  (attempt call).bind fun _ => .of_look (fun s _ => read s) fun _ => rfl

theorem Steady.change (call : Call) (change : Store → Except StoreError Store) :
    Steady (do Work.attempt call; Work.changeStore change) :=
  (attempt call).bind fun _ => changeStore change

theorem sealField_steady (owner : OwnerId) (field : FieldName) (text : String) :
    Steady (sealField owner field text) := by
  have hshadow : Steady (shadowOrNew owner field) := by
    refine (Steady.lookup _ _).bind fun found => ?_
    cases found with
    | some shadow => exact .pure shadow
    | none => exact .newShadow owner field
  refine (encrypt_steady text).bind fun token => hshadow.bind fun shadow => ?_
  exact (Steady.change _ _).bind fun _ => .change _ _

theorem encryptField_steady (owner : Owner) (field : Field) :
    Steady (encryptField owner field) := by
  have hscope : Steady (inScope owner.tenant field.name) :=
    .of_look (fun _ tenancy => tenancy.inScope owner.tenant field.name) fun _ => rfl
  refine hscope.bind fun scope => ?_
  cases scope with
  | false => exact .pure _
  | true =>
    cases field.value with
    | none => exact .pure _
    | some value =>
      by_cases hshaped : LookupHash.isShaped value = true
      · simp only [if_pos hshaped]
        exact .pure _
      · simp only [if_neg hshaped]
        refine (plainText_steady owner.id field.name value).bind fun text => ?_
        cases text with
        | none => exact .pure _
        | some text => exact (sealField_steady owner.id field.name text).bind fun _ => .pure _

theorem sweep_steady (owner : Owner) (shadow : Shadow) : Steady (sweep owner shadow) := by
  rw [sweep]
  split
  · exact (Steady.change _ _).bind fun _ => .pure _
  · exact .pure _

theorem isEnabled_steady (tenant : TenantId) : Steady (isEnabled tenant) :=
  .of_look (fun _ tenancy => tenancy.enabled tenant) fun _ => rfl

theorem encryptOwner_steady (id : OwnerId) : Steady (encryptOwner id) := by
  refine Steady.transaction ?_
  refine (Steady.lookup _ _).bind fun found => ?_
  cases found with
  | none => exact .throw fun _ he => by cases he
  | some owner =>
    refine (isEnabled_steady owner.tenant).bind fun enabled => ?_
    cases enabled with
    | false => exact .pure _
    | true =>
      by_cases hservice : owner.serviceAccount = true
      · simp only [if_pos hservice]
        exact .pure _
      · simp only [if_neg hservice]
        refine (Steady.tally (encryptField_steady owner) _).bind fun encrypted => ?_
        refine (Steady.lookup _ _).bind fun current => (Steady.lookup _ _).bind fun shadows => ?_
        exact (Steady.tally (sweep_steady _) _).bind fun swept => .pure _

/-! ## Decrypting an owner -/

theorem openField_steady (owner : Owner) (field : Field) : Steady (openField owner field) := by
  rw [openField]
  cases field.value with
  | none => exact .pure _
  | some value =>
    simp only
    split
    · refine (plainText_steady owner.id field.name value).bind fun text => ?_
      cases text with
      | none => exact .pure _
      | some text => exact (Steady.change _ _).bind fun _ => .pure _
    · exact .pure _

theorem decryptOwner_steady (id : OwnerId) : Steady (decryptOwner id) := by
  have hunit : Steady (transaction (decryptOwnerIn id)) := by
    refine Steady.transaction ?_
    refine (Steady.lookup _ _).bind fun found => ?_
    cases found with
    | none => exact .pure _
    | some owner =>
      refine (Steady.lookup _ _).bind fun shadows => ?_
      refine (Steady.each (fun shadow => ?_) _).bind fun verified => ?_
      · exact (decryptVerified_steady _ _ _).bind fun _ => .pure _
      · refine (Steady.tally (fun shadow => ?_) _).bind fun dropped => ?_
        · exact (Steady.change _ _).bind fun _ => .pure _
        · refine (Steady.tally (fun p => ?_) _).bind fun restored => ?_
          · exact (Steady.change _ _).bind fun _ => (Steady.change _ _).bind fun _ => .pure _
          · exact (Steady.tally (openField_steady owner) _).bind fun opened => .pure _
  refine hunit.handle (fun x hx => ?_) fun v e he hof => ?_
  · cases x with
    | ok report => exact .pure report
    | error e =>
      cases e with
      | key e => cases hx _ rfl
      | integrity field => exact (Steady.note _).bind fun _ => .pure _
      | _ => exact .throw fun _ he => by cases he
  · cases e with
    | integrity field => cases hof
    | _ => rfl

/-! ## Migrating a tenant -/

theorem ownersIn_steady (tenant : TenantId) : Steady (ownersIn tenant) :=
  (Steady.attempt _).bind fun _ => Steady.ensureServing.bind fun _ =>
    .of_look (fun s _ => s.ownersIn tenant) fun _ => rfl

theorem encryptAll_steady (tenant : TenantId) : Steady (encryptAll tenant) := by
  refine (isEnabled_steady tenant).bind fun enabled => ?_
  cases enabled with
  | false => exact .pure _
  | true => exact (ownersIn_steady tenant).bind fun ids => .tally encryptOwner_steady ids

theorem decryptAll_steady (tenant : TenantId) : Steady (decryptAll tenant) :=
  (ownersIn_steady tenant).bind fun ids => .tally decryptOwner_steady ids

end Work

end FieldVault

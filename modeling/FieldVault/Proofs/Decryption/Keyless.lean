/-
Migrating without a key.

In a calm vault the store is never in the way, so there is little that a migration can fail over. A
failed verification ends the unit of work of its owner and is reported, not thrown. What is left is
the key: switching a tenant on or off fails only if the key was asked for and there is none.

How a part of the work can end is told together with what it leaves, a calm vault with the owners
that there were, for only then can the next part be told to find the owner it writes to.
-/
import FieldVault.Proofs.Decryption
import FieldVault.Proofs.Store.Change

set_option autoImplicit false

namespace FieldVault

variable {α β : Type} {P Q : Error → Prop} {r : Except KeyError Key} {v v' v'' : Vault}

namespace Vault

/-- A calm vault with the owners that `v` has, whatever their fields hold. -/
structure KeepsOwners (r : Except KeyError Key) (v v' : Vault) : Prop where
  calm : v'.Calm r
  heads : ∀ id, v'.store.head? id = v.store.head? id

theorem KeepsOwners.refl (h : v.Calm r) : KeepsOwners r v v := ⟨h, fun _ => rfl⟩

theorem KeepsOwners.trans (h : KeepsOwners r v v') (h' : KeepsOwners r v' v'') :
    KeepsOwners r v v'' :=
  ⟨h'.calm, fun id => (h'.heads id).trans (h.heads id)⟩

theorem KeepsOwners.exists_owner (h : KeepsOwners r v v') {id : OwnerId} {owner : Owner}
    (ho : v.store.owner? id = some owner) : ∃ owner', v'.store.owner? id = some owner' := by
  obtain ⟨owner', ho', -⟩ := Store.exists_owner_of_head?_eq ho (h.heads id)
  exact ⟨owner', ho'⟩

end Vault

namespace Work

open Vault

/-- In this vault the work fails only as `P` allows, and however it ends it keeps the owners. -/
structure FailsOnly (P : Error → Prop) (r : Except KeyError Key) (work : Work α) (v : Vault) :
    Prop where
  keeps : KeepsOwners r v (after work v)
  error : ∀ e, answer work v = .error e → P e

/-- The failure is that there is no key. -/
def WantsKey (r : Except KeyError Key) (e : Error) : Prop := ∃ e', e = .key e' ∧ r = .error e'

/-- The failure is that there is no key, or that a field failed verification. -/
def WantsKeyOrRefuses (r : Except KeyError Key) (e : Error) : Prop :=
  WantsKey r e ∨ ∃ field, e = .integrity field

namespace FailsOnly

/-! ## Parts -/

theorem of_reads {work : Work α} {x : Except Error α} (h : ReadsAs r work v x)
    (hx : ∀ e, x = .error e → P e) : FailsOnly P r work v :=
  ⟨⟨h.reads.calm, fun id => by rw [h.reads.store]⟩, fun e he => hx e (h.answer.symm.trans he)⟩

theorem of_run {work : Work α} {a : α} (hrun : work v = .ok a v') (hkeeps : KeepsOwners r v v') :
    FailsOnly P r work v := by
  refine ⟨?_, fun e he => ?_⟩
  · rwa [after_of_run hrun]
  · rw [answer_of_run hrun] at he
    cases he

theorem pure (h : v.Calm r) (a : α) : FailsOnly P r (Pure.pure a) v := .of_run rfl (.refl h)

theorem throw (h : v.Calm r) {e : Error} (he : P e) :
    FailsOnly P r (throwThe Error e : Work α) v :=
  .of_reads (.throw h e) fun e' he' => by cases he'; exact he

/-! ## Putting work together -/

theorem bind {work : Work α} {next : α → Work β} (h : FailsOnly P r work v)
    (hnext : ∀ a v', answer work v = .ok a → KeepsOwners r v v' → FailsOnly P r (next a) v') :
    FailsOnly P r (work >>= next) v := by
  cases ha : answer work v with
  | ok a =>
    have hn := hnext a _ ha h.keeps
    refine ⟨?_, fun e he => ?_⟩
    · rw [after_bind_of_ok ha]
      exact h.keeps.trans hn.keeps
    · rw [answer_bind_of_ok ha] at he
      exact hn.error e he
  | error e' =>
    refine ⟨?_, fun e he => ?_⟩
    · rw [after_bind_of_error ha]
      exact h.keeps
    · rw [answer_bind_of_error ha] at he
      cases he
      exact h.error e' ha

/-- Work after work that leaves the very vault. -/
theorem bind_run {work : Work α} {next : α → Work β} {a : α} (hrun : work v = .ok a v)
    (h : FailsOnly P r (next a) v) : FailsOnly P r (work >>= next) v := by
  have hnext : (work >>= next) v = next a v := run_bind_of_ok hrun next
  refine ⟨?_, ?_⟩
  · rw [after, hnext]
    exact h.keeps
  · rw [answer, hnext]
    exact h.error

theorem each {work : α → Work β} {items : List α} (h : v.Calm r)
    (hitem : ∀ a ∈ items, ∀ v', KeepsOwners r v v' → FailsOnly P r (work a) v') :
    FailsOnly P r (each work items) v := by
  induction items generalizing v with
  | nil => exact .pure h []
  | cons a as ih =>
    refine (hitem a List.mem_cons_self v (.refl h)).bind fun b v₁ _ hv₁ => ?_
    refine (ih hv₁.calm fun a' ha' v' hv' => ?_).bind fun bs v₂ _ hv₂ => .pure hv₂.calm (b :: bs)
    exact hitem a' (List.mem_cons_of_mem a ha') v' (hv₁.trans hv')

theorem tally {work : α → Work Report} {items : List α} (h : v.Calm r)
    (hitem : ∀ a ∈ items, ∀ v', KeepsOwners r v v' → FailsOnly P r (work a) v') :
    FailsOnly P r (tally work items) v :=
  (FailsOnly.each h hitem).bind fun _ _ _ hv' => .pure hv'.calm _

/-- A unit of work that fails brings the store back, with the owners in it. -/
theorem transaction {work : Work α} (h : v.Calm r) (hw : FailsOnly P r work v) :
    FailsOnly P r (transaction work) v := by
  cases ha : answer work v with
  | ok a => exact .of_run (transaction_run_of_ok h (run_of_answer ha)) hw.keeps
  | error e =>
    have hrun := transaction_run_of_error h (run_of_answer_error ha)
    refine ⟨?_, fun e' he' => ?_⟩
    · rw [after_of_run_error hrun]
      exact ⟨(hw.keeps.calm.follows_store v.store).calm, fun _ => rfl⟩
    · rw [answer_of_run_error hrun] at he'
      cases he'
      exact hw.error e ha

/-- What is done about the outcome of some work fails as that outcome makes it fail. -/
theorem handle {work : Work α} {next : Except Error α → Work β} (h : FailsOnly P r work v)
    (hnext : ∀ x v', answer work v = x → KeepsOwners r v v' → FailsOnly Q r (next x) v') :
    FailsOnly Q r (outcome work >>= next) v := by
  have houtcome : FailsOnly Q r (outcome work) v := by
    refine ⟨?_, fun e he => ?_⟩
    · rw [after_outcome]
      exact h.keeps
    · rw [answer_outcome] at he
      cases he
  refine houtcome.bind fun x v' hx hv' => hnext x v' ?_ hv'
  rw [answer_outcome] at hx
  exact Except.ok.inj hx

end FailsOnly

/-! ## Steps of decrypting -/

theorem removeShadow_failsOnly (h : v.Calm r) (shadow : Shadow) :
    FailsOnly P r (removeShadow shadow) v := by
  refine .of_run (removeShadow_run h shadow) ⟨(h.follows_store _).calm, fun id => ?_⟩
  rw [Store.head?, Store.head?]
  exact congrArg _ (Store.owner?_removeShadow v.store shadow id)

/-- Writing a field does not fail, for the owner is there. -/
theorem writeField_failsOnly (h : v.Calm r) {id : OwnerId} {owner : Owner}
    (ho : v.store.owner? id = some owner) (field : FieldName) (value : Option String) :
    FailsOnly P r (writeField id field value) v := by
  obtain ⟨store, hwrite, hsets⟩ := Store.sets_writeField ho field value
  exact .of_run (writeField_run h hwrite) ⟨(h.follows_store store).calm, hsets.off.heads⟩

theorem plainText_failsOnly (h : v.Calm r) (owner : OwnerId) (field : FieldName) (value : String) :
    FailsOnly (WantsKeyOrRefuses r) r (plainText owner field value) v := by
  refine .of_reads (plainText_reads h owner field value) fun e he => ?_
  cases hr : reveal r value with
  | ok text =>
    rw [hr] at he
    cases he
  | error e' =>
    rw [hr] at he
    rcases reveal_error hr with hvalue | ⟨e'', rfl, hnokey⟩
    · -- A token that does not open has no text, which is no failure.
      cases e' with
      | key e' => cases hvalue
      | _ => cases he
    · cases he
      exact .inl ⟨e'', rfl, hnokey⟩

theorem verifyShadow_failsOnly (h : v.Calm r) (owner : Owner) (shadow : Shadow) :
    FailsOnly (WantsKeyOrRefuses r) r (verifyShadow owner shadow) v := by
  refine .of_reads (verifyShadow_reads h owner shadow) fun e he => ?_
  cases hv : verified r ⟨owner.tenant, owner.id, shadow.field⟩ (owner.value shadow.field)
      shadow.ciphertext with
  | ok text =>
    rw [hv] at he
    cases he
  | error e' =>
    rw [hv] at he
    cases he
    rcases verified_error hv with hfails | ⟨e', rfl, hreveal⟩
    · exact .inr ⟨_, hfails⟩
    · rcases reveal_error hreveal with hvalue | ⟨e'', heq, hnokey⟩
      · cases hvalue
      · exact .inl ⟨e'', heq, hnokey⟩

theorem dropShadow_failsOnly (h : v.Calm r) (shadow : Shadow) :
    FailsOnly P r (dropShadow shadow) v :=
  (removeShadow_failsOnly h shadow).bind fun _ _ _ hv' => .pure hv'.calm _

theorem restoreField_failsOnly (h : v.Calm r) {owner owner' : Owner}
    (ho : v.store.owner? owner.id = some owner') (p : Shadow × String) :
    FailsOnly P r (restoreField owner p) v := by
  refine (writeField_failsOnly h ho p.1.field (some p.2)).bind fun _ v₁ _ hv₁ => ?_
  exact (removeShadow_failsOnly hv₁.calm p.1).bind fun _ _ _ hv₂ => .pure hv₂.calm _

theorem openField_failsOnly (h : v.Calm r) {owner owner' : Owner}
    (ho : v.store.owner? owner.id = some owner') (field : Field) :
    FailsOnly (WantsKeyOrRefuses r) r (openField owner field) v := by
  rw [openField]
  cases field.value with
  | none => exact .pure h _
  | some value =>
    simp only
    split
    · refine (plainText_failsOnly h owner.id field.name value).bind fun text v₁ _ hv₁ => ?_
      cases text with
      | none => exact .pure hv₁.calm _
      | some text =>
        obtain ⟨owner₁, ho₁⟩ := hv₁.exists_owner ho
        exact (writeField_failsOnly hv₁.calm ho₁ field.name (some text)).bind
          fun _ _ _ hv₂ => .pure hv₂.calm _
    · exact .pure h _

/-! ## Owners and tenants -/

/-- **Decrypting an owner** within a unit of work fails only for want of the key or over a field
that fails verification. -/
theorem decryptOwnerIn_failsOnly (h : v.Calm r) (id : OwnerId) :
    FailsOnly (WantsKeyOrRefuses r) r (decryptOwnerIn id) v := by
  refine .bind_run (loadOwner_run h id) ?_
  cases ho : v.store.owner? id with
  | none => exact .pure h _
  | some owner =>
    have hid := Store.id_of_owner? ho
    subst hid
    refine .bind_run (shadowsOf_run h owner.id) ?_
    refine (FailsOnly.each h fun shadow _ v' hv' =>
      verifyShadow_failsOnly hv'.calm owner shadow).bind fun verified v₁ _ hv₁ => ?_
    refine (FailsOnly.tally hv₁.calm fun shadow _ v' hv' =>
      dropShadow_failsOnly hv'.calm shadow).bind fun dropped v₂ _ hv₂ => ?_
    have hkept₂ := hv₁.trans hv₂
    -- The owner is still there to be written to, with other values perhaps.
    refine (FailsOnly.tally hv₂.calm fun p _ v' hv' => ?_).bind fun restored v₃ _ hv₃ => ?_
    · obtain ⟨owner', ho'⟩ := (hkept₂.trans hv').exists_owner ho
      exact restoreField_failsOnly hv'.calm ho' p
    have hkept₃ := hkept₂.trans hv₃
    refine (FailsOnly.tally hv₃.calm fun field _ v' hv' => ?_).bind fun opened v₄ _ hv₄ =>
      .pure hv₄.calm _
    obtain ⟨owner', ho'⟩ := (hkept₃.trans hv').exists_owner ho
    exact openField_failsOnly hv'.calm ho' field

/-- A failed verification is reported, so an owner is not decrypted only for want of the key. -/
theorem decryptOwner_failsOnly (h : v.Calm r) (id : OwnerId) :
    FailsOnly (WantsKey r) r (decryptOwner id) v := by
  have hunit := FailsOnly.transaction h (decryptOwnerIn_failsOnly h id)
  refine hunit.handle fun x v' hx hv' => ?_
  cases x with
  | ok report => exact .pure hv'.calm report
  | error e =>
    rcases hunit.error e hx with ⟨e', rfl, hnokey⟩ | ⟨field, rfl⟩
    · exact .throw hv'.calm ⟨e', rfl, hnokey⟩
    · exact (FailsOnly.of_reads (note_reads hv'.calm (.integrityFailure field)) nofun).bind
        fun _ _ _ hv'' => .pure hv''.calm _

theorem decryptAll_failsOnly (h : v.Calm r) (tenant : TenantId) :
    FailsOnly (WantsKey r) r (decryptAll tenant) v :=
  .bind_run (ownersIn_run h tenant)
    (FailsOnly.tally h fun id _ _ hv' => decryptOwner_failsOnly hv'.calm id)

/-- **Switching a tenant**, on or off, fails only for want of the key. -/
theorem setTenantEncryption_failsOnly (h : v.Calm r) (tenant : TenantId) (enabled : Bool) :
    FailsOnly (WantsKey r) r (setTenantEncryption tenant enabled) v := by
  have hswitch : ∀ {v : Vault} {enabled}, v.Calm r →
      FailsOnly (WantsKey r) r (setEnabled tenant enabled) v := fun h =>
    .of_run (setEnabled_run h tenant _) ⟨⟨h.answers, h.serving, h.outages⟩, fun _ => rfl⟩
  cases enabled with
  | false => exact (hswitch h).bind fun _ _ _ hv' => decryptAll_failsOnly hv'.calm tenant
  | true =>
    refine (FailsOnly.of_reads (key_reads h) fun e he => ?_).bind fun k v₁ hk hv₁ => ?_
    · cases r with
      | error e' =>
        cases he
        exact ⟨e', rfl, rfl⟩
      | ok k => cases he
    · -- The key was handed out, so nothing that is encrypted can want it.
      rw [(key_reads h).answer] at hk
      cases r with
      | error e' => cases hk
      | ok k =>
        refine (hswitch hv₁.calm).bind fun _ v₂ _ hv₂ => ?_
        obtain ⟨report, v₃, hrun, hwrites, -⟩ := encryptAll_run hv₂.calm tenant
        exact .of_run hrun ⟨hwrites.calm, hwrites.off.heads⟩

end Work

end FieldVault

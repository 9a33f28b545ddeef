/-
What encrypting puts into shadow records.

A shadow record is written for a value that was in the field before and can be decrypted, and it is
written together with the lookup hash of the text. What goes into it is the result of encrypting the
text: a token, which opens to the text and so belongs to the hash beside it. There is one exception.
A text that is marked as a token already is passed on by encryption as it is, and so a token whose
text is marked puts that very text into the shadow record, whether or not it can be read as a token.
-/
import FieldVault.Proofs.Encryption

set_option autoImplicit false

namespace FieldVault

open Vault

variable {k : Key} {v v' : Vault}

/-! ## Cells -/

namespace Cell

variable {c c' : Cell} {inScope : Bool} {shadow : Shadow}

/-- A shadow record in a cell that encrypting has changed was put there by sealing: sweeping only
takes shadow records away. -/
theorem EncryptsTo.written (h : EncryptsTo k inScope c c') (hne : c' ≠ c)
    (hshadow : c'.shadow = some shadow) :
    ∃ text, c.sealable k inScope = some text ∧ Sealed k text c c' := by
  rcases h.cases with hsealed | ⟨-, rfl⟩
  · exact hsealed
  · rw [swept] at hne hshadow
    split at hshadow
    · cases hshadow
    · case isFalse hlive => exact absurd (if_neg hlive) hne

theorem MigratesTo.written {tenancy : Tenancy} {head : TenantId × Bool} {field : FieldName}
    (h : MigratesTo k tenancy head field c c') (hne : c' ≠ c) (hshadow : c'.shadow = some shadow) :
    ∃ value text, c.stored = some value ∧ reveal (.ok k) value = .ok text ∧
      Sealed k text c c' := by
  rw [MigratesTo] at h
  split at h
  · obtain ⟨text, hsealable, hsealed⟩ := h.written hne hshadow
    obtain ⟨-, value, hstored, -, hreveal⟩ := sealable_eq_some_iff.1 hsealable
    exact ⟨value, text, hstored, hreveal, hsealed⟩
  · exact absurd h hne

end Cell

/-! ## Shadow records -/

namespace Vault

/-- The shadow record holds a token, and the token verifies, to the text, against what its field
holds. -/
structure Genuine (v : Vault) (owner : Owner) (shadow : Shadow) (text : String) : Prop where
  parses : ∃ token, Token.parse shadow.ciphertext = .ok token
  verifies : answer (FieldCipher.decryptVerified ⟨owner.tenant, owner.id, shadow.field⟩
    (owner.value shadow.field) shadow.ciphertext) v.cipher = .ok text

/-- What stands in the shadow records that were written between the two vaults. Each was written for
a value of the field that could be decrypted, as every value can that is not marked, with the lookup
hash of the text in the field. If the text is not marked, the record is genuine. If it is, the value
was a token, and the record holds the text itself. -/
def WritesTokens (v v' : Vault) : Prop :=
  ∀ id field shadow, v'.store.shadow? id field = some shadow →
    v'.store.cell id field ≠ v.store.cell id field →
    ∃ owner owner' value text,
      v.store.owner? id = some owner ∧ v'.store.owner? id = some owner' ∧
      owner.value field = some value ∧
      answer (FieldCipher.decrypt value) v.cipher = .ok text ∧
      owner'.value field = some (LookupHash.of text) ∧
      (Token.isMarked text = false → v'.Genuine owner' shadow text) ∧
      (Token.isMarked text = true → Token.isMarked value = true ∧ shadow.ciphertext = text)

theorem genuine_of_sealed (h : v'.Calm (.ok k)) {owner : Owner} {field : FieldName}
    {shadow : Shadow} {c : Cell} {text : String} (ho : v'.store.owner? owner.id = some owner)
    (hsealed : Cell.Sealed k text c (v'.store.cell owner.id field))
    (hshadow : v'.store.shadow? owner.id field = some shadow)
    (hm : Token.isMarked text = false) : v'.Genuine owner shadow text := by
  have hname := Store.field_of_shadow? hshadow
  subst hname
  obtain ⟨shadow', iv, hshadow', hciphertext, -⟩ := hsealed.shadow
  cases hshadow.symm.trans hshadow'
  rw [hm, if_neg Bool.false_ne_true] at hciphertext
  have hhash := hsealed.stored
  rw [Store.stored_cell ho] at hhash
  refine ⟨⟨k.sealText iv text, ?_⟩, ?_⟩
  · rw [hciphertext, Key.parse_tokenText]
  · rw [FieldCipher.answer_decryptVerified h.answers, hciphertext, hhash,
      verified_of (reveal_tokenText k iv text)]

theorem WritesTokens.of_migrated {touched : OwnerId → FieldName → Prop} (h : v.Calm (.ok k))
    (hwrites : Writes (.ok k) touched v v')
    (howner : ∀ id field, touched id field → ∃ owner, v.store.owner? id = some owner ∧
      Cell.MigratesTo k v.tenancy (owner.tenant, owner.serviceAccount) field
        (v.store.cell id field) (v'.store.cell id field)) :
    v.WritesTokens v' := by
  intro id field shadow hshadow hne
  -- A cell that has changed was touched.
  have htouched : touched id field := by
    by_contra hn
    exact hne (hwrites.off.cells id field hn)
  obtain ⟨owner, ho, hmigrates⟩ := howner id field htouched
  obtain ⟨owner', ho', -⟩ := Store.exists_owner_of_head?_eq ho (hwrites.off.heads id)
  obtain ⟨value, text, hstored, hreveal, hsealed⟩ := hmigrates.written hne hshadow
  have hhash := hsealed.stored
  rw [Store.stored_cell ho'] at hhash
  refine ⟨owner, owner', value, text, ho, ho', ?_, ?_, hhash, ?_, ?_⟩
  · rw [← Store.stored_cell ho, hstored]
  · rw [FieldCipher.answer_decrypt h.answers, hreveal]
  · intro hm
    have hid := Store.id_of_owner? ho'
    subst hid
    exact genuine_of_sealed hwrites.calm ho' hsealed hshadow hm
  · intro hm
    obtain ⟨shadow', iv, hshadow', hciphertext, -⟩ := hsealed.shadow
    cases hshadow.symm.trans hshadow'
    rw [hm, if_pos rfl] at hciphertext
    refine ⟨?_, hciphertext⟩
    -- A value that is not marked is its own text.
    refine Bool.eq_true_of_not_eq_false fun hplain => ?_
    rw [reveal_of_not_marked _ hplain, Except.ok.injEq] at hreveal
    rw [hreveal, hm] at hplain
    cases hplain

end Vault

namespace Work

theorem encryptOwner_run_of_none {r : Except KeyError Key} (h : v.Calm r) {id : OwnerId}
    (ho : v.store.owner? id = none) :
    encryptOwner id v = .error (.store (.ownerNotFound id)) v := by
  have hload := loadOwner_run h id
  rw [ho] at hload
  have hfails : encryptOwnerIn id v = .error (.store (.ownerNotFound id)) v :=
    run_bind_of_ok hload _
  exact transaction_run_of_error h hfails

/-- **Shadow records are written with tokens that verify**, except for a token whose text is marked
itself. This holds from every state of the store and under all settings, with a key at hand, of
every run that encrypts an owner or a tenant and succeeds. -/
theorem encryption_writes_tokens (h : v.Calm (.ok k)) :
    (∀ id report v', encryptOwner id v = .ok report v' → v.WritesTokens v') ∧
    (∀ tenant report v', encryptAll tenant v = .ok report v' → v.WritesTokens v') := by
  refine ⟨?_, ?_⟩
  · intro id report v' hrun
    cases ho : v.store.owner? id with
    | none =>
      rw [encryptOwner_run_of_none h ho] at hrun
      cases hrun
    | some owner =>
      obtain ⟨report', w, hrun', hwrites, hcells⟩ := encryptOwner_run h ho
      cases hrun.symm.trans hrun'
      refine .of_migrated h hwrites ?_
      rintro id' field rfl
      exact ⟨owner, ho, hcells field⟩
  · intro tenant report v' hrun
    obtain ⟨report', w, hrun', hwrites, hcells⟩ := encryptAll_run h tenant
    cases hrun.symm.trans hrun'
    refine .of_migrated h hwrites ?_
    intro id field hid
    obtain ⟨owner, ho, htenant⟩ := Store.mem_ownersIn_iff.1 hid
    exact ⟨owner, ho, hcells id owner ho htenant field⟩

/-- Encrypting an owner seals the fields in scope whose values can be decrypted. -/
theorem encryptOwner_seals (h : v.Calm (.ok k)) {owner : Owner} {field : FieldName}
    {value text : String} (ho : v.store.owner? owner.id = some owner)
    (hscope : v.tenancy.inScope owner.tenant field = true) (hservice : owner.serviceAccount = false)
    (hvalue : owner.value field = some value) (hshaped : LookupHash.isShaped value = false)
    (hreveal : reveal (.ok k) value = .ok text) :
    ∃ report v', encryptOwner owner.id v = .ok report v' ∧ v'.Calm (.ok k) ∧
      Cell.Sealed k text (v.store.cell owner.id field) (v'.store.cell owner.id field) := by
  obtain ⟨report, v', hrun, hwrites, hcells⟩ := encryptOwner_run h ho
  refine ⟨report, v', hrun, hwrites.calm, ?_⟩
  have henabled : v.tenancy.enabled owner.tenant = true := by
    rw [Tenancy.inScope, Bool.and_eq_true] at hscope
    exact hscope.1
  have hencrypts := (hcells field).encrypts henabled hservice
  rw [hscope] at hencrypts
  rw [← Store.stored_cell ho] at hvalue
  exact hencrypts.sealed hvalue hshaped hreveal

/-- The address in a core field ends up in a genuine shadow record. -/
theorem encryption_writes_tokens_alice :
    let k : Key := ⟨List.replicate 16 7, .inl rfl⟩
    let alice : Owner := ⟨"alice", "acme", false, Registry.empty.file ⟨"email", some "a@acme"⟩⟩
    let v := settled k (({} : Store).putOwner alice) (Tenancy.none.setEnabled "acme" true)
    ∃ report v' alice' shadow, encryptOwner "alice" v = .ok report v' ∧
      v'.store.shadow? "alice" "email" = some shadow ∧ v'.Genuine alice' shadow "a@acme" := by
  intro k alice v
  have hcalm : v.Calm (.ok k) := calm_settled k _ _
  have ho : v.store.owner? alice.id = some alice := Store.owner?_putOwner_self {} alice
  have hvalue : alice.value "email" = some "a@acme" :=
    Owner.value_write_self ⟨"alice", "acme", false, .empty⟩ "email" _
  obtain ⟨report, v', hrun, -, hsealed⟩ := encryptOwner_seals hcalm ho (by decide) rfl hvalue
    (by decide) (reveal_of_not_marked (.ok k) (by decide))
  obtain ⟨shadow, iv, hshadow, -⟩ := hsealed.shadow
  have hne : v'.store.cell "alice" "email" ≠ v.store.cell "alice" "email" := by
    intro heq
    have hnone : (v'.store.cell "alice" "email").shadow = none := congrArg Cell.shadow heq
    cases hnone.symm.trans hshadow
  obtain ⟨owner, owner', value, text, ho', -, hvalue', hdecrypt, -, hgenuine, -⟩ :=
    (encryption_writes_tokens hcalm).1 _ _ _ hrun "alice" "email" shadow hshadow hne
  -- The value that the record was written for is the address.
  cases ho.symm.trans ho'
  cases hvalue.symm.trans hvalue'
  rw [FieldCipher.answer_decrypt hcalm.answers, reveal_of_not_marked _ (by decide)] at hdecrypt
  cases hdecrypt
  exact ⟨report, v', owner', shadow, hrun, hshadow, hgenuine (by decide)⟩

/-- A token whose text is marked is lifted into a shadow record that holds the text: it cannot be
read as a token, and it does not verify. -/
theorem encryptOwner_writes_text :
    let k : Key := ⟨List.replicate 16 7, .inl rfl⟩
    let alice : Owner := ⟨"alice", "acme", false,
      Registry.empty.file ⟨"email", some (k.tokenText Block.zero "$$$x")⟩⟩
    let v := settled k (({} : Store).putOwner alice) (Tenancy.none.setEnabled "acme" true)
    ∃ report v' alice' shadow, encryptOwner "alice" v = .ok report v' ∧
      v'.store.owner? "alice" = some alice' ∧
      v.store.shadow? "alice" "email" = none ∧
      v'.store.shadow? "alice" "email" = some shadow ∧ shadow.ciphertext = "$$$x" ∧
      (∀ token, Token.parse shadow.ciphertext ≠ .ok token) ∧
      ∀ text, answer (FieldCipher.decryptVerified ⟨"acme", "alice", "email"⟩
        (alice'.value "email") shadow.ciphertext) v'.cipher ≠ .ok text := by
  intro k alice v
  have hcalm : v.Calm (.ok k) := calm_settled k _ _
  have ho : v.store.owner? alice.id = some alice := Store.owner?_putOwner_self {} alice
  have hvalue : alice.value "email" = some (k.tokenText Block.zero "$$$x") :=
    Owner.value_write_self ⟨"alice", "acme", false, .empty⟩ "email" _
  obtain ⟨report, v', hrun, hcalm', hsealed⟩ := encryptOwner_seals hcalm ho (by decide) rfl hvalue
    (LookupHash.isShaped_of_marked (Key.isMarked_tokenText k _ _)) (reveal_tokenText k _ _)
  obtain ⟨shadow, iv, hshadow, hciphertext, -⟩ := hsealed.shadow
  rw [if_pos (by decide)] at hciphertext
  have howner : ∃ alice', v'.store.owner? "alice" = some alice' := by
    have hentry := hsealed.entry
    rw [Store.cell, Option.bind_eq_some_iff] at hentry
    obtain ⟨alice', halice', -⟩ := hentry
    exact ⟨alice', halice'⟩
  obtain ⟨alice', halice'⟩ := howner
  refine ⟨report, v', alice', shadow, hrun, halice', rfl, hshadow, hciphertext, ?_, ?_⟩
  · intro token hparse
    rw [hciphertext] at hparse
    cases hparse
  · intro text hverified
    rw [FieldCipher.answer_decryptVerified hcalm'.answers, hciphertext] at hverified
    cases hverified

end Work

end FieldVault

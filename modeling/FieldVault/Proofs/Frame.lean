/-
What migrations leave alone.

However a migration ends, it has handled some owners of its tenant, and handling an owner touches
the cells of that owner and no others. So the other tenants, and shadow records that no owner goes
with, are out of its reach; no owner comes or goes; and a cell that is sealed, swept or restored
has an entry afterwards if it had one before. Within reach, encrypting leaves service accounts
altogether and replaces no value but those it has a text for, and decrypting changes a value only
for the text that a shadow record or the value itself was decrypted to.
-/
import FieldVault.Proofs.Reading.Agreement
import FieldVault.Proofs.Stopping

set_option autoImplicit false

namespace FieldVault

open Vault

variable {k : Key} {tenant : TenantId} {v v' : Vault}

/-! ## Cells -/

namespace Cell

variable {c c' : Cell} {tenancy : Tenancy} {head : TenantId × Bool} {field : FieldName}

theorem MigratesTo.eq_of_service (h : MigratesTo k tenancy head field c c')
    (hservice : head.2 = true) : c' = c := by
  unfold MigratesTo at h
  rwa [hservice, Bool.not_true, Bool.and_false, if_neg Bool.false_ne_true] at h

/-- Where there is nothing to seal the entry stays. -/
theorem MigratesTo.entry_eq (h : MigratesTo k tenancy head field c c')
    (hs : c.sealable k (tenancy.inScope head.1 field) = none) : c'.entry = c.entry := by
  unfold MigratesTo at h
  split at h
  · rcases h.cases with ⟨text, hsome, -⟩ | ⟨-, hswept⟩
    · rw [hs] at hsome
      cases hsome
    · rw [hswept, entry_swept]
  · rw [h]

/-- A value of the shape of a lookup hash stays, and so does the shadow record beside it. -/
theorem MigratesTo.eq_of_shaped (h : MigratesTo k tenancy head field c c') {hash : String}
    (hstored : c.stored = some hash) (hshaped : LookupHash.isShaped hash = true) : c' = c := by
  unfold MigratesTo at h
  split at h
  · rcases h.cases with ⟨text, hsome, -⟩ | ⟨-, hswept⟩
    · obtain ⟨-, value, hvalue, hplain, -⟩ := sealable_eq_some_iff.1 hsome
      rw [hstored] at hvalue
      cases hvalue
      rw [hshaped] at hplain
      cases hplain
    · have hstale : isStale c.stored = false := isStale_eq_false_iff.2 ⟨hash, hstored, hshaped⟩
      rw [hswept, swept, hstale, if_neg Bool.false_ne_true]
  · exact h

theorem MigratesTo.isSome_entry (h : MigratesTo k tenancy head field c c') :
    c'.entry.isSome = c.entry.isSome := by
  cases hs : c.sealable k (tenancy.inScope head.1 field) with
  | none => rw [h.entry_eq hs]
  | some text =>
    unfold MigratesTo at h
    split at h
    · rcases h.cases with ⟨text', -, hsealed⟩ | ⟨-, hswept⟩
      · -- Only a value can be sealed, so there was an entry.
        obtain ⟨-, value, hvalue, -, -⟩ := sealable_eq_some_iff.1 hs
        rw [hsealed.entry, Option.join_eq_some_iff.1 hvalue]
        rfl
      · rw [hswept, entry_swept]
    · rw [h]

/-- There is nothing to seal in a field out of scope, without a value, or with a lookup hash. -/
theorem sealable_eq_none {inScope : Bool} (h : inScope = false ∨ c.stored = none ∨
    ∃ hash, c.stored = some hash ∧ LookupHash.isShaped hash = true) :
    c.sealable k inScope = none := by
  refine Option.eq_none_iff_forall_ne_some.2 fun text hs => ?_
  obtain ⟨hscope, value, hvalue, hplain, -⟩ := sealable_eq_some_iff.1 hs
  rcases h with hout | hnone | ⟨hash, hhash, hshaped⟩
  · rw [hscope] at hout
    cases hout
  · rw [hnone] at hvalue
    cases hvalue
  · rw [hhash] at hvalue
    cases hvalue
    rw [hshaped] at hplain
    cases hplain

/-- Decrypting changes an entry for what a live shadow record holds or for what the token that is
the entry holds. -/
theorem live_or_token_of_decrypted {ref : FieldRef}
    (h : (c.decrypted k ref).entry ≠ c.entry) :
    (∃ shadow, c.live? = some shadow) ∨ ∃ token text, c.stored = some token ∧
      Token.isMarked token = true ∧ reveal (.ok k) token = .ok text := by
  cases hlive : c.live? with
  | some shadow => exact .inl ⟨shadow, rfl⟩
  | none =>
    rw [decrypted_of_not_live hlive] at h
    refine .inr ?_
    unfold Cell.stored
    cases he : c.entry with
    | none =>
      rw [he] at h
      exact absurd rfl h
    | some stored =>
      rw [he, Option.map_some, ne_eq, Option.some.injEq, openedText_eq_self_iff,
        Bool.not_eq_false] at h
      exact opens_iff.1 h

theorem isSome_entry_decrypted (ref : FieldRef) (c : Cell) :
    (c.decrypted k ref).entry.isSome = c.entry.isSome := by
  unfold decrypted
  rw [Option.isSome_map]

end Cell

/-! ## Frames -/

namespace Vault

/-- The second vault may differ from the first in this tenant only, and has the same owners with the
same heads and the same names of fields. -/
structure Framed (tenant : TenantId) (v v' : Vault) : Prop where
  others : ∀ id owner, v.store.owner? id = some owner → owner.tenant ≠ tenant →
    v'.store.view? id = v.store.view? id
  orphans : ∀ id field, v.store.owner? id = none →
    v'.store.shadow? id field = v.store.shadow? id field
  owners : ∀ id, (v'.store.owner? id).isSome = (v.store.owner? id).isSome
  records : ∀ id owner owner', v.store.owner? id = some owner →
    v'.store.owner? id = some owner' →
      owner'.id = owner.id ∧ owner'.tenant = owner.tenant ∧
        owner'.serviceAccount = owner.serviceAccount ∧
        owner'.fields.toList.map Field.name = owner.fields.toList.map Field.name
  settings : ∀ other, other ≠ tenant → ∀ field,
    v'.tenancy.inScope other field = v.tenancy.inScope other field

/-- What encrypting leaves within its tenant: service accounts with all their shadow records, fields
that are out of scope, without a value or hold a lookup hash, and the shadow records beside lookup
hashes. -/
structure EncryptionFrame (v v' : Vault) : Prop where
  services : ∀ id owner, v.store.owner? id = some owner → owner.serviceAccount = true →
    v'.store.view? id = v.store.view? id
  fields : ∀ id owner owner' field, v.store.owner? id = some owner →
    v'.store.owner? id = some owner' →
    (v.tenancy.inScope owner.tenant field = false ∨ owner.value field = none ∨
      ∃ hash, owner.value field = some hash ∧ LookupHash.isShaped hash = true) →
    owner'.entry field = owner.entry field
  shadows : ∀ id owner field hash, v.store.owner? id = some owner →
    owner.value field = some hash → LookupHash.isShaped hash = true →
    v'.store.shadow? id field = v.store.shadow? id field

/-- Decrypting changes a field only if a shadow record stands beside the lookup hash in it and
verifies, or if it holds a token that can be decrypted, with the key that is settled in the end. -/
def DecryptionFrame (v v' : Vault) : Prop :=
  ∀ k, v'.cipher.keys.Allows (.ok k) → ∀ id owner owner' field,
    v.store.owner? id = some owner → v'.store.owner? id = some owner' →
    owner'.entry field ≠ owner.entry field →
    (∃ shadow, v.store.shadow? id field = some shadow ∧ isStale (owner.value field) = false ∧
      (FieldCipher.verify (owner.value field) shadow.ciphertext (v.calmed (.ok k)).cipher).1 =
        true) ∨
    ∃ token text, owner.value field = some token ∧ Token.isMarked token = true ∧
      answer (FieldCipher.decrypt token) (v.calmed (.ok k)).cipher = .ok text

theorem Framed.of_sameOff {done : List OwnerId}
    (hoff : v.store.SameOff (fun id _ => id ∈ done) v'.store)
    (hdone : ∀ id ∈ done, ∃ owner, v.store.owner? id = some owner ∧ owner.tenant = tenant)
    (hentries : ∀ id ∈ done, ∀ field,
      (v'.store.cell id field).entry.isSome = (v.store.cell id field).entry.isSome)
    (htenancy : v'.tenancy = v.tenancy) : Framed tenant v v' := by
  refine ⟨fun id owner ho hne => ?_, fun id field hnone => ?_, fun id => ?_,
    fun id owner owner' ho ho' => ?_, fun other _ field => by rw [htenancy]⟩
  · refine hoff.view?_eq fun _ hid => ?_
    obtain ⟨owner', ho', htenant⟩ := hdone id hid
    cases ho.symm.trans ho'
    exact hne htenant
  · refine congrArg Cell.shadow (hoff.cells id field fun hid => ?_)
    obtain ⟨owner, ho, -⟩ := hdone id hid
    rw [hnone] at ho
    cases ho
  · have hhead := congrArg Option.isSome (hoff.heads id)
    unfold Store.head? at hhead
    rwa [Option.isSome_map, Option.isSome_map] at hhead
  · obtain ⟨owner'', ho'', htenant, hservice⟩ := Store.exists_owner_of_head?_eq ho (hoff.heads id)
    cases ho'.symm.trans ho''
    refine ⟨(Store.id_of_owner? ho').trans (Store.id_of_owner? ho).symm, htenant, hservice, ?_⟩
    refine Owner.names_congr fun field => ?_
    rw [← Store.entry_cell ho, ← Store.entry_cell ho']
    by_cases hid : id ∈ done
    · exact hentries id hid field
    · rw [hoff.cells id field hid]

/-- What came before did not touch the store, and at most the settings of the tenant. -/
theorem Framed.of_store {w : Vault} (h : Framed tenant w v') (hstore : w.store = v.store)
    (hsettings : ∀ other, other ≠ tenant → ∀ field,
      w.tenancy.inScope other field = v.tenancy.inScope other field) : Framed tenant v v' := by
  obtain ⟨hothers, horphans, howners, hrecords, hsettings'⟩ := h
  rw [hstore] at hothers horphans howners hrecords
  exact ⟨hothers, horphans, howners, hrecords,
    fun other hne field => (hsettings' other hne field).trans (hsettings other hne field)⟩

theorem Framed.refl (tenant : TenantId) (v : Vault) : Framed tenant v v := by
  refine ⟨fun _ _ _ _ => rfl, fun _ _ _ => rfl, fun _ => rfl, fun id owner owner' ho ho' => ?_,
    fun _ _ _ => rfl⟩
  cases ho.symm.trans ho'
  exact ⟨rfl, rfl, rfl, rfl⟩

end Vault

namespace Work

/-! ## Migrations -/

theorem encryptAll_framed (tenant : TenantId) (v : Vault) :
    Framed tenant v (after (encryptAll tenant) v) := by
  obtain ⟨done, rest, hstopped, -⟩ := encryptAll_stops tenant v
  obtain ⟨k, hk⟩ := KeyProvider.exists_allows (after (encryptAll tenant) v).cipher.keys
  obtain ⟨hoff, hcells⟩ := hstopped.encrypted hk
  refine .of_sameOff hoff (fun id hid => hstopped.exists_owner hid) (fun id hid field => ?_)
    ((encryptAll_steady tenant).tenancy v)
  obtain ⟨owner, ho, -⟩ := hstopped.exists_owner hid
  exact (hcells id hid owner ho field).isSome_entry

theorem decryptAll_framed (tenant : TenantId) (v : Vault) :
    Framed tenant v (after (decryptAll tenant) v) := by
  obtain ⟨done, rest, hstopped, -⟩ := decryptAll_stops tenant v
  obtain ⟨k, hk⟩ := KeyProvider.exists_allows (after (decryptAll tenant) v).cipher.keys
  obtain ⟨hoff, hcells⟩ := hstopped.decrypted hk
  refine .of_sameOff hoff (fun id hid => hstopped.exists_owner hid) (fun id hid field => ?_)
    ((decryptAll_steady tenant).tenancy v)
  obtain ⟨owner, ho, -⟩ := hstopped.exists_owner hid
  have howner := Store.id_of_owner? ho
  subst howner
  rw [hcells owner ho hid field]
  unfold Store.restored
  split
  · exact Cell.isSome_entry_decrypted _ _
  · rfl

/-- Switching a tenant leaves the store and the settings of the others, whether it succeeds. -/
theorem setEnabled_framed (tenant : TenantId) (enabled : Bool) (v : Vault) :
    (after (setEnabled tenant enabled) v).store = v.store ∧
      ∀ other, other ≠ tenant → ∀ field,
        (after (setEnabled tenant enabled) v).tenancy.inScope other field =
          v.tenancy.inScope other field := by
  obtain ⟨outages, hafter⟩ := after_attempt .setEnabled v
  have hsteps := after_bind (attempt .setEnabled)
    (fun _ u => .ok () { u with tenancy := u.tenancy.setEnabled tenant enabled }) v
  rw [setEnabled, hsteps, hafter]
  cases answer (attempt .setEnabled) v with
  | ok _ =>
    exact ⟨rfl, fun _ hne field => Tenancy.inScope_setEnabled_of_ne v.tenancy hne enabled field⟩
  | error e => exact ⟨rfl, fun _ _ _ => rfl⟩

theorem setTenantEncryption_framed (tenant : TenantId) (enabled : Bool) (v : Vault) :
    Framed tenant v (after (setTenantEncryption tenant enabled) v) := by
  -- The migration starts from the same store, with the tenant switched, or does not start.
  have hswitch : ∀ (u : Vault) (migrate : Work Report),
      (∀ w, Framed tenant w (after migrate w)) →
      Framed tenant u (after (do setEnabled tenant enabled; migrate) u) := by
    intro u migrate hmigrate
    obtain ⟨hstore, hsettings⟩ := setEnabled_framed tenant enabled u
    rw [after_bind]
    cases answer (setEnabled tenant enabled) u with
    | ok _ => exact (hmigrate _).of_store hstore hsettings
    | error e => exact (Framed.refl tenant _).of_store hstore hsettings
  cases enabled with
  | false => exact hswitch v _ (decryptAll_framed tenant)
  | true =>
    have hkey : (after (onCipher FieldCipher.key) v).store = v.store ∧
        (after (onCipher FieldCipher.key) v).tenancy = v.tenancy := by
      rw [after_onCipher]
      exact ⟨rfl, rfl⟩
    change Framed tenant v (after (do
      let _ ← onCipher FieldCipher.key
      setEnabled tenant true
      encryptAll tenant) v)
    rw [after_bind]
    cases answer (onCipher FieldCipher.key) v with
    | ok _ =>
      exact (hswitch _ _ (encryptAll_framed tenant)).of_store hkey.1
        fun other _ field => by rw [hkey.2]
    | error e =>
      exact (Framed.refl tenant _).of_store hkey.1 fun other _ field => by rw [hkey.2]

/-! ## Within the tenant -/

theorem encryptAll_frame (tenant : TenantId) (v : Vault) :
    EncryptionFrame v (after (encryptAll tenant) v) := by
  obtain ⟨done, rest, hstopped, -⟩ := encryptAll_stops tenant v
  obtain ⟨k, hk⟩ := KeyProvider.exists_allows (after (encryptAll tenant) v).cipher.keys
  obtain ⟨hoff, hcells⟩ := hstopped.encrypted hk
  refine ⟨fun id owner ho hservice => ?_, fun id owner owner' field ho ho' hleft => ?_,
    fun id owner field hash ho hvalue hshaped => ?_⟩
  · by_cases hid : id ∈ done
    · obtain ⟨howner, hshadows⟩ := Store.owner_congr (hoff.heads id)
        fun field => (hcells id hid owner ho field).eq_of_service hservice
      rw [Store.view?, Store.view?, howner, hshadows]
    · exact hoff.view?_eq fun _ => hid
  · rw [← Store.entry_cell ho, ← Store.entry_cell ho']
    by_cases hid : id ∈ done
    · rw [← Store.stored_cell ho] at hleft
      exact (hcells id hid owner ho field).entry_eq (Cell.sealable_eq_none hleft)
    · rw [hoff.cells id field hid]
  · by_cases hid : id ∈ done
    · have hstored := (Store.stored_cell ho).trans hvalue
      exact congrArg Cell.shadow ((hcells id hid owner ho field).eq_of_shaped hstored hshaped)
    · exact congrArg Cell.shadow (hoff.cells id field hid)

theorem decryptAll_frame (tenant : TenantId) (v : Vault) :
    DecryptionFrame v (after (decryptAll tenant) v) := by
  obtain ⟨done, rest, hstopped, -⟩ := decryptAll_stops tenant v
  intro k hk id owner owner' field ho ho' hchanged
  have hcalm := (calmed_calmed (.ok k) v).calm
  obtain ⟨hoff, hcells⟩ := hstopped.decrypted hk
  have howner := Store.id_of_owner? ho
  subst howner
  rw [← Store.entry_cell ho, ← Store.entry_cell ho'] at hchanged
  by_cases hid : owner.id ∈ done
  · rw [hcells owner ho hid field, Store.restored] at hchanged
    by_cases hreadable : (v.store.reading false (.ok k) owner).unreadable = []
    · rw [if_pos hreadable] at hchanged
      rw [← Store.stored_cell ho]
      rcases Cell.live_or_token_of_decrypted hchanged with
        ⟨shadow, hlive⟩ | ⟨token, text, hstored, hm, hreveal⟩
      · obtain ⟨hshadow, hstale⟩ := Cell.live?_eq_some_iff.1 hlive
        refine .inl ⟨shadow, hshadow, hstale, Bool.eq_true_of_not_eq_false fun hfails => ?_⟩
        rw [Store.stored_cell ho] at hstale hfails
        -- A shadow record that does not verify would have kept the whole owner as it was.
        exact (Store.unreadable_eq_nil_iff hcalm ho).1 hreadable
          ⟨field, shadow, hshadow, hstale, hfails⟩
      · refine .inr ⟨token, text, hstored, hm, ?_⟩
        rw [FieldCipher.answer_decrypt hcalm.answers]
        exact hreveal
    · rw [if_neg hreadable] at hchanged
      exact absurd rfl hchanged
  · rw [hoff.cells owner.id field hid] at hchanged
    exact absurd rfl hchanged

/-- **The frame of the migrations.** In every vault, whatever is in the store, whatever the key
source answers and whatever is out of order: encrypting, decrypting and switching a tenant, whether
they succeed or fail, leave the owners of other tenants with their shadow records, shadow records
without an owner, the set of the owners with their heads and the names of their fields, and the
scope of other tenants. Encrypting leaves service accounts, fields that there is no reason to seal,
and the shadow records beside lookup hashes; and decrypting changes the fields only that it has
decrypted. -/
theorem migrations_framed (v : Vault) (tenant : TenantId) :
    Framed tenant v (after (encryptAll tenant) v) ∧
    Framed tenant v (after (decryptAll tenant) v) ∧
    (∀ enabled, Framed tenant v (after (setTenantEncryption tenant enabled) v)) ∧
    EncryptionFrame v (after (encryptAll tenant) v) ∧
    DecryptionFrame v (after (decryptAll tenant) v) :=
  ⟨encryptAll_framed tenant v, decryptAll_framed tenant v,
    fun enabled => setTenantEncryption_framed tenant enabled v, encryptAll_frame tenant v,
    decryptAll_frame tenant v⟩

end Work

end FieldVault

/-
Encrypting a tenant and then decrypting it comes to the same as decrypting it alone.

Encrypting goes by the settings, the shape of a value and its mark; decrypting goes by the shadow
records and the mark and does not look at the settings. What joins the two is what a lenient read
answers: encrypting leaves it as it is, and decrypting puts it in the place of the entry. So a cell
that was encrypted before it is decrypted ends as one that was not. Nothing of this depends on what
the settings are by the time the tenant is decrypted. If there were no shadow records and no marked
values to begin with, decrypting alone changes nothing, and the round trip ends where it began.
-/
import FieldVault.Proofs.Decryption.Tenant
import FieldVault.Proofs.Invisibility

set_option autoImplicit false

namespace FieldVault

open Vault

variable {k : Key} {v : Vault}

/-! ## One cell -/

namespace Cell

variable {ref : FieldRef} {c d : Cell}

/-- Cells that a lenient read takes for the same are decrypted to the same. -/
theorem Alike.decrypted (h : Alike false (.ok k) ref c d) :
    c.decrypted k ref = d.decrypted k ref := by
  have hpresent := h.present
  rw [Cell.decrypted, Cell.decrypted, h.read]
  cases hc : c.entry with
  | none =>
    rw [hc] at hpresent
    rw [Option.isNone_iff_eq_none.1 (Option.isSome_eq_false_iff.1 hpresent.symm)]
  | some stored =>
    rw [hc] at hpresent
    obtain ⟨stored', hd⟩ := Option.isSome_iff_exists.1 hpresent.symm
    rw [hd]
    rfl

/-- A cell without a shadow record and without a mark is decrypted to itself. -/
theorem decrypted_of_plain (hshadow : c.shadow = none)
    (hplain : ∀ value, c.stored = some value → Token.isMarked value = false) :
    c.decrypted k ref = c := by
  have hlive : c.live? = none := by
    rw [live?, hshadow]
    rfl
  have hentry : c.entry.map (openedText k) = c.entry := by
    cases he : c.entry with
    | none => rfl
    | some stored =>
      cases stored with
      | none => rfl
      | some value =>
        have hstored : c.stored = some value := by
          rw [Cell.stored, he]
          rfl
        rw [Option.map_some, openedText, Option.map_some,
          reveal_of_not_marked _ (hplain value hstored)]
        rfl
  rw [decrypted_of_not_live hlive, hentry, ← hshadow]

end Cell

/-! ## Owners that can be restored -/

namespace Vault

/-- The live shadow records of an owner pass verification, and the tokens that stand in its fields
open to texts that are not marked as tokens themselves. -/
structure Restorable (v : Vault) (owner : Owner) : Prop where
  verifies : ∀ shadow ∈ v.store.shadowsOf owner.id, isStale (owner.value shadow.field) = false →
    ∃ text, answer (FieldCipher.decryptVerified ⟨owner.tenant, owner.id, shadow.field⟩
      (owner.value shadow.field) shadow.ciphertext) v.cipher = .ok text
  opens : ∀ field value text, owner.value field = some value → Token.isMarked value = true →
    answer (FieldCipher.decrypt value) v.cipher = .ok text → Token.isMarked text = false

/-- The owner has no shadow records, and no value of it is marked as a token. -/
structure Untouched (v : Vault) (owner : Owner) : Prop where
  shadows : v.store.shadowsOf owner.id = []
  plain : ∀ field value, owner.value field = some value → Token.isMarked value = false

variable {owner : Owner}

theorem Restorable.opensPlain (h : v.Restorable owner) : v.OpensPlain owner :=
  fun field value text _ => h.opens field value text

theorem Restorable.readable (h : v.Restorable owner) (hcalm : v.Calm (.ok k))
    (ho : v.store.owner? owner.id = some owner) :
    (v.store.reading false (.ok k) owner).unreadable = [] := by
  rw [Work.unreadable_lenient ho, List.map_eq_nil_iff, List.filter_eq_nil_iff]
  intro shadow hshadow hfails
  obtain ⟨hmem, hstale⟩ := List.mem_filter.1 hshadow
  obtain ⟨text, htext⟩ := h.verifies shadow hmem (by simpa using hstale)
  rw [FieldCipher.answer_decryptVerified hcalm.answers] at htext
  rw [Work.verifiedShadow, htext] at hfails
  cases hfails

theorem Untouched.restorable (h : v.Untouched owner) : v.Restorable owner := by
  refine ⟨?_, ?_⟩
  · intro shadow hshadow
    rw [h.shadows] at hshadow
    cases hshadow
  · intro field value text hvalue hmarked
    rw [h.plain field value hvalue] at hmarked
    cases hmarked

end Vault

/-! ## The round trip -/

namespace Work

/-- Decrypting a tenant that was encrypted before leaves what decrypting it alone leaves. -/
theorem decryptAll_store_eq (h : v.Calm (.ok k)) {tenant : TenantId}
    (hrestorable : ∀ id owner, v.store.owner? id = some owner → owner.tenant = tenant →
      v.Restorable owner)
    {v₁ : Vault} (hcalm₁ : v₁.Calm (.ok k)) (hheads : ∀ id, v₁.store.head? id = v.store.head? id)
    (hoff : ∀ id field, id ∉ v.store.ownersIn tenant →
      v₁.store.cell id field = v.store.cell id field)
    (halike : ∀ owner, v.store.owner? owner.id = some owner → owner.tenant = tenant → ∀ field ref,
      Cell.Alike false (.ok k) ref (v.store.cell owner.id field) (v₁.store.cell owner.id field)) :
    ∃ direct w restored v₂, decryptAll tenant v = .ok direct w ∧ direct.failures = [] ∧
      decryptAll tenant v₁ = .ok restored v₂ ∧ restored.failures = [] ∧ v₂.store = w.store := by
  have hreadable : ∀ owner, v.store.owner? owner.id = some owner → owner.tenant = tenant →
      (v.store.reading false (.ok k) owner).unreadable = [] := fun owner ho htenant =>
    (hrestorable owner.id owner ho htenant).readable h ho
  -- The owners of the second vault are those of the first, and are served alike.
  have hreadable₁ : ∀ owner₁, v₁.store.owner? owner₁.id = some owner₁ → owner₁.tenant = tenant →
      (v₁.store.reading false (.ok k) owner₁).unreadable = [] := by
    intro owner₁ ho₁ htenant₁
    obtain ⟨owner, ho, htenant, hservice⟩ :=
      Store.exists_owner_of_head?_eq ho₁ (hheads owner₁.id).symm
    have hid := Store.id_of_owner? ho
    rw [← hid] at ho ho₁
    rw [← Store.reading_congr ho ho₁ htenant.symm hservice.symm fun field =>
      halike owner ho (htenant.trans htenant₁) field _]
    exact hreadable owner ho (htenant.trans htenant₁)
  obtain ⟨direct, w, hdirect, hclean, hwrites, hcells⟩ := decryptAll_run_of_readable h hreadable
  obtain ⟨restored, v₂, hrestored, hclean₁, hwrites₁, hcells₁⟩ :=
    decryptAll_run_of_readable hcalm₁ hreadable₁
  refine ⟨direct, w, restored, v₂, hdirect, hclean, hrestored, hclean₁, ?_⟩
  refine Store.ext_cell ?_ ?_
  · intro id
    rw [hwrites₁.off.heads, hheads, hwrites.off.heads]
  · intro id field
    -- In the tenant, both runs decrypt cells that read alike; elsewhere both leave what there was.
    rw [Store.ownersIn_congr hheads tenant] at hwrites₁
    by_cases hid : id ∈ v.store.ownersIn tenant
    · obtain ⟨owner, rfl, ho, htenant⟩ := Store.exists_of_mem_ownersIn hid
      obtain ⟨owner₁, ho₁, htenant₁, -⟩ := Store.exists_owner_of_head?_eq ho (hheads owner.id)
      have hid₁ := Store.id_of_owner? ho₁
      have hcell₁ := hcells₁ owner₁ (by rw [hid₁, ho₁]) (htenant₁.trans htenant) field
      rw [hid₁, htenant₁] at hcell₁
      rw [hcell₁, hcells owner ho htenant, (halike owner ho htenant field _).decrypted]
    · rw [hwrites₁.off.cells id field hid, hoff id field hid, hwrites.off.cells id field hid]

/-- Decrypting a tenant whose owners are untouched changes nothing. -/
theorem decryptAll_store_of_untouched (h : v.Calm (.ok k)) {tenant : TenantId}
    (huntouched : ∀ id owner, v.store.owner? id = some owner → owner.tenant = tenant →
      v.Untouched owner) {report : Report} {w : Vault} (hrun : decryptAll tenant v = .ok report w) :
    w.store = v.store := by
  obtain ⟨report', w', hrun', -, hwrites, hcells⟩ :=
    decryptAll_run_of_readable h fun owner ho htenant =>
      (huntouched owner.id owner ho htenant).restorable.readable h ho
  rw [hrun] at hrun'
  cases hrun'
  refine hwrites.off.eq_of_owners fun owner ho htenant field => ?_
  have hplain := huntouched owner.id owner ho htenant
  rw [hcells owner ho htenant]
  refine Cell.decrypted_of_plain (Store.shadow?_of_shadowsOf_nil hplain.shadows) ?_
  intro value hvalue
  rw [Store.stored_cell ho] at hvalue
  exact hplain.plain field value hvalue

/-- Decrypting a tenant after encrypting it leaves what decrypting it alone leaves, in whatever calm
vault with the same key the store that encrypting left is by then. -/
theorem decryptAll_of_encrypted_store (h : v.Calm (.ok k)) {tenant : TenantId}
    (hrestorable : ∀ id owner, v.store.owner? id = some owner → owner.tenant = tenant →
      v.Restorable owner)
    {encrypted : Report} {v₁ w₁ : Vault} (hencrypt : encryptAll tenant v = .ok encrypted v₁)
    (hcalm : w₁.Calm (.ok k)) (hstore : w₁.store = v₁.store) :
    ∃ direct w restored v₂, decryptAll tenant v = .ok direct w ∧ direct.failures = [] ∧
      decryptAll tenant w₁ = .ok restored v₂ ∧ restored.failures = [] ∧ v₂.store = w.store := by
  obtain ⟨encrypted', v₁', hrun, hwrites, hcells⟩ := encryptAll_run h tenant
  rw [hencrypt] at hrun
  cases hrun
  rw [← hstore] at hcells
  have hoff := hwrites.off
  rw [← hstore] at hoff
  refine decryptAll_store_eq h hrestorable hcalm hoff.heads hoff.cells ?_
  intro owner ho htenant field ref
  exact (hrestorable owner.id owner ho htenant).opensPlain.alike h ho
    (hcells owner.id owner ho htenant field)

/-- Decrypting a tenant after encrypting it leaves what decrypting it alone leaves, whatever the
settings are by then. -/
theorem decryptAll_of_encrypted (h : v.Calm (.ok k)) {tenant : TenantId}
    (hrestorable : ∀ id owner, v.store.owner? id = some owner → owner.tenant = tenant →
      v.Restorable owner)
    {encrypted : Report} {v₁ : Vault} (hencrypt : encryptAll tenant v = .ok encrypted v₁)
    (tenancy : Tenancy) :
    ∃ direct w restored v₂, decryptAll tenant v = .ok direct w ∧ direct.failures = [] ∧
      decryptAll tenant { v₁ with tenancy } = .ok restored v₂ ∧ restored.failures = [] ∧
      v₂.store = w.store := by
  obtain ⟨encrypted', v₁', hrun, hwrites, -⟩ := encryptAll_run h tenant
  rw [hencrypt] at hrun
  cases hrun
  have hcalm : ({ v₁ with tenancy } : Vault).Calm (.ok k) :=
    ⟨hwrites.calm.answers, hwrites.calm.serving, hwrites.calm.outages⟩
  exact decryptAll_of_encrypted_store h hrestorable hencrypt hcalm rfl

/-- **The round trip of a tenant.** From every state of the store and under all settings, with a key
at hand. If the owners of a tenant can be restored, then encrypting the tenant and decrypting it
again, whatever the settings have become in between, leaves the store that decrypting it alone
leaves, and no failure is reported on either way. If the owners have no shadow records and no marked
values, the round trip leaves the very store that it began with. -/
theorem decryptAll_encryptAll (h : v.Calm (.ok k)) (tenant : TenantId) :
    ((∀ id owner, v.store.owner? id = some owner → owner.tenant = tenant → v.Restorable owner) →
      ∃ encrypted v₁, encryptAll tenant v = .ok encrypted v₁ ∧ encrypted.failures = [] ∧
        ∀ tenancy, ∃ direct w restored v₂,
          decryptAll tenant v = .ok direct w ∧ direct.failures = [] ∧
          decryptAll tenant { v₁ with tenancy } = .ok restored v₂ ∧ restored.failures = [] ∧
          v₂.store = w.store) ∧
    ((∀ id owner, v.store.owner? id = some owner → owner.tenant = tenant → v.Untouched owner) →
      ∃ encrypted v₁, encryptAll tenant v = .ok encrypted v₁ ∧ encrypted.failures = [] ∧
        ∀ tenancy, ∃ restored v₂,
          decryptAll tenant { v₁ with tenancy } = .ok restored v₂ ∧ restored.failures = [] ∧
          v₂.store = v.store) := by
  obtain ⟨encrypted, v₁, hencrypt, -⟩ := encryptAll_run h tenant
  have hclean := encryptAll_clean tenant v encrypted (answer_of_run hencrypt)
  refine ⟨fun hrestorable => ?_, fun huntouched => ?_⟩
  · exact ⟨encrypted, v₁, hencrypt, hclean, decryptAll_of_encrypted h hrestorable hencrypt⟩
  · refine ⟨encrypted, v₁, hencrypt, hclean, fun tenancy => ?_⟩
    obtain ⟨direct, w, restored, v₂, hdirect, -, hrestored, hclean₂, hstore⟩ :=
      decryptAll_of_encrypted h (fun id owner ho htenant =>
        (huntouched id owner ho htenant).restorable) hencrypt tenancy
    refine ⟨restored, v₂, hrestored, hclean₂, ?_⟩
    rw [hstore, decryptAll_store_of_untouched h huntouched hdirect]

/-- A token that stands in a field is opened with or without the detour over a shadow record; a
plain value comes back as it was. -/
theorem decryptAll_encryptAll_alice :
    let k : Key := ⟨List.replicate 16 7, .inl rfl⟩
    let token := k.tokenText Block.zero "a@acme"
    let alice (email : String) : Owner :=
      ⟨"alice", "acme", false, Registry.empty.file ⟨"email", some email⟩⟩
    let v (email : String) :=
      settled k (({} : Store).putOwner (alice email)) (Tenancy.none.setEnabled "acme" true)
    let roundTrip (email : String) :=
      after (decryptAll "acme") (after (encryptAll "acme") (v email))
    (roundTrip token).store = (after (decryptAll "acme") (v token)).store ∧
      (roundTrip "a@acme").store = (v "a@acme").store := by
  intro k token alice v roundTrip
  have hcalm : ∀ email, (v email).Calm (.ok k) := fun email => calm_settled k _ _
  have hends : ∀ email {encrypted restored v₁ v₂}, encryptAll "acme" (v email) = .ok encrypted v₁ →
      decryptAll "acme" v₁ = .ok restored v₂ → roundTrip email = v₂ := by
    intro email encrypted restored v₁ v₂ hencrypt hrestored
    exact (congrArg (after (decryptAll "acme")) (after_of_run hencrypt)).trans
      (after_of_run hrestored)
  refine ⟨?_, ?_⟩
  · obtain ⟨encrypted, v₁, hencrypt, -, hdecrypt⟩ :=
      (decryptAll_encryptAll (hcalm token) "acme").1 (by
        intro id owner ho _
        have halice := Store.eq_of_owner?_single ho
        subst halice
        refine ⟨?_, ?_⟩
        · intro shadow hshadow
          cases hshadow
        · intro field value text hfield _ htext
          rw [Owner.eq_of_value_single hfield, FieldCipher.answer_decrypt (hcalm token).answers,
            reveal_tokenText] at htext
          cases htext
          decide)
    obtain ⟨direct, w, restored, v₂, hdirect, -, hrestored, -, hstore⟩ := hdecrypt v₁.tenancy
    rw [hends token hencrypt hrestored, after_of_run hdirect, hstore]
  · obtain ⟨encrypted, v₁, hencrypt, -, hdecrypt⟩ :=
      (decryptAll_encryptAll (hcalm "a@acme") "acme").2 (by
        intro id owner ho _
        have halice := Store.eq_of_owner?_single ho
        subst halice
        refine ⟨rfl, ?_⟩
        intro field value hfield
        rw [Owner.eq_of_value_single hfield]
        decide)
    obtain ⟨restored, v₂, hrestored, -, hstore⟩ := hdecrypt v₁.tenancy
    rw [hends "a@acme" hencrypt hrestored, hstore]

end Work

end FieldVault

/-
Searching a tenant after it was encrypted.

A field in scope that had a text to seal holds the lookup hash of that text now, and any other field
holds what it held. So once no owner holds a value verbatim, those who hold its hash are found: the
owners whose text was sealed under that hash, and the owners who held that very hash before. Texts
with the same normal form have the same hash, which is why letter case and space around a value make
no difference to who is found.
-/
import FieldVault.Proofs.Encryption.Coverage
import FieldVault.Proofs.Search

set_option autoImplicit false

namespace FieldVault

open Vault

variable {k : Key} {v : Vault}

/-! ## Texts to seal -/

/-- The field of the owner holds a text that can be sealed: the text itself, which is neither marked
nor of the shape of a lookup hash, or a token that decrypts to it. -/
inductive Vault.HoldsText (v : Vault) (owner : Owner) (field : FieldName) (text : String) : Prop
  | plain (stored : owner.value field = some text) (unmarked : Token.isMarked text = false)
      (unshaped : LookupHash.isShaped text = false)
  | token {value : String} (stored : owner.value field = some value)
      (marked : Token.isMarked value = true)
      (decrypts : answer (FieldCipher.decrypt value) v.cipher = .ok text)

/-- The texts that can be sealed are what encryption seals in scope. -/
theorem Vault.holdsText_iff (h : v.Calm (.ok k)) {owner : Owner}
    (ho : v.store.owner? owner.id = some owner) {field : FieldName} {text : String} :
    v.HoldsText owner field text ↔
      (v.store.cell owner.id field).sealable k true = some text := by
  rw [Cell.sealable_eq_some_iff, Store.stored_cell ho]
  simp only [true_and]
  constructor
  · rintro (⟨hvalue, hm, hshaped⟩ | ⟨hvalue, hm, hdecrypt⟩)
    · exact ⟨text, hvalue, hshaped, reveal_of_not_marked _ hm⟩
    · rw [FieldCipher.answer_decrypt h.answers] at hdecrypt
      exact ⟨_, hvalue, LookupHash.isShaped_of_marked hm, hdecrypt⟩
  · rintro ⟨value, hvalue, hshaped, hreveal⟩
    cases hm : Token.isMarked value with
    | true =>
      refine .token hvalue hm ?_
      rw [FieldCipher.answer_decrypt h.answers, hreveal]
    | false =>
      rw [reveal_of_not_marked _ hm] at hreveal
      cases hreveal
      exact .plain hvalue hm hshaped

/-! ## Cells -/

namespace Cell

variable {c c' : Cell}

/-- A cell holds a value after it was encrypted if a text was sealed whose hash is the value, or
if there was nothing to seal and it held the value before. -/
theorem EncryptsTo.stored_iff {inScope : Bool} (h : EncryptsTo k inScope c c') {value : String} :
    c'.stored = some value ↔
      (∃ text, c.sealable k inScope = some text ∧ LookupHash.of text = value) ∨
        (c.sealable k inScope = none ∧ c.stored = some value) := by
  rcases h.cases with ⟨text, hs, hsealed⟩ | ⟨hs, rfl⟩
  · rw [hsealed.stored, hs]
    simp
  · rw [stored_swept, hs]
    simp

end Cell

/-! ## Searches -/

/-- The hits of a search for a value after its tenant was encrypted, when no owner holds the value
itself. They are the holders of its lookup hash, each once and in ascending order. Among them is
every owner, service accounts apart, that held a text with the same normal form or a token of one;
and every owner among them held a text with the same hash, or held that hash already. -/
structure Vault.FoundByHash (v v' : Vault) (tenant : TenantId) (field : FieldName) (value : String)
    (hits : List OwnerId) : Prop where
  ascending : Ascending hits
  nodup : hits.Nodup
  mem_iff : ∀ id, id ∈ hits ↔ ∃ owner', v'.store.owner? id = some owner' ∧
    owner'.tenant = tenant ∧ owner'.value field = some (LookupHash.of value)
  complete : ∀ owner text, v.store.owner? owner.id = some owner → owner.tenant = tenant →
    owner.serviceAccount = false → v.HoldsText owner field text →
    LookupHash.normalize text = LookupHash.normalize value → owner.id ∈ hits
  sound : ∀ id ∈ hits, ∃ owner, v.store.owner? id = some owner ∧ owner.tenant = tenant ∧
    ((owner.serviceAccount = false ∧ ∃ text, v.HoldsText owner field text ∧
        LookupHash.of text = LookupHash.of value) ∨
      owner.value field = some (LookupHash.of value))

/-- If the cells of a tenant were encrypted, the holders of the lookup hash are found by it. -/
theorem Vault.foundByHash_of_encrypted {v' : Vault} (h : v.Calm (.ok k)) {tenant : TenantId}
    (henabled : v.tenancy.enabled tenant = true) {field : FieldName}
    (hscope : v.tenancy.inScope tenant field = true)
    (hheads : ∀ id, v'.store.head? id = v.store.head? id)
    (hcells : ∀ id owner, v.store.owner? id = some owner → owner.tenant = tenant →
      Cell.MigratesTo k v.tenancy (owner.tenant, owner.serviceAccount) field
        (v.store.cell id field) (v'.store.cell id field)) (value : String) :
    v.FoundByHash v' tenant field value
      (v'.store.holders tenant field (LookupHash.of value)) where
  ascending := Store.ascending_holders v'.store tenant field _
  nodup := (Store.ascending_holders v'.store tenant field _).nodup
  mem_iff _ := Store.mem_holders_iff
  complete := by
    intro owner text ho htenant hservice htext hnormal
    obtain ⟨owner', ho', htenant', -⟩ := Store.exists_owner_of_head?_eq ho (hheads owner.id)
    have hcell := hcells owner.id owner ho htenant
    rw [htenant] at hcell
    have hencrypts := hcell.encrypts henabled hservice
    rw [hscope] at hencrypts
    have hsealable := (holdsText_iff h ho).1 htext
    have hstored := hencrypts.stored_iff.2
      (.inl ⟨text, hsealable, LookupHash.of_congr hnormal⟩)
    rw [Store.stored_cell ho'] at hstored
    exact Store.mem_holders_iff.2 ⟨owner', ho', htenant'.trans htenant, hstored⟩
  sound := by
    intro id hid
    obtain ⟨owner', ho', htenant', hvalue'⟩ := Store.mem_holders_iff.1 hid
    obtain ⟨owner, ho, htenant, -⟩ := Store.exists_owner_of_head?_eq ho' (hheads id).symm
    have hid' := Store.id_of_owner? ho
    subst hid'
    have htenant : owner.tenant = tenant := htenant.trans htenant'
    refine ⟨owner, ho, htenant, ?_⟩
    rw [← Store.stored_cell ho'] at hvalue'
    rw [← Store.stored_cell ho]
    have hcell := hcells owner.id owner ho htenant
    rw [htenant] at hcell
    cases hservice : owner.serviceAccount with
    | true =>
      -- A service account is left as it was.
      rw [hcell.stays (.inl hservice)] at hvalue'
      exact .inr hvalue'
    | false =>
      have hencrypts := hcell.encrypts henabled hservice
      rw [hscope] at hencrypts
      rcases hencrypts.stored_iff.1 hvalue' with ⟨text, hs, hhash⟩ | ⟨-, hstored⟩
      · exact .inl ⟨rfl, text, (holdsText_iff h ho).2 hs, hhash⟩
      · exact .inr hstored

namespace Work

/-- **Equality search keeps working.** From every state of the store, with a key at hand and
encryption on: after the tenant was encrypted, a search in scope for a value that no owner of the
tenant holds verbatim finds the owners by its lookup hash, and the first of them is the one that is
found alone. -/
theorem search_after_encryptAll (h : v.Calm (.ok k)) {tenant : TenantId}
    (henabled : v.tenancy.enabled tenant = true) :
    ∃ report v', encryptAll tenant v = .ok report v' ∧ ∀ field value,
      v.tenancy.inScope tenant field = true →
      (∀ owner', v'.store.owner? owner'.id = some owner' → owner'.tenant = tenant →
        owner'.value field ≠ some value) →
      ∃ hits, search tenant field value v' = .ok hits v' ∧
        v.FoundByHash v' tenant field value hits ∧
        ∃ first, findOwner tenant field value v' = .ok first v' ∧
          ∀ id, first = some id ↔ id ∈ hits ∧ ∀ other ∈ hits, compare other id ≠ .lt := by
  obtain ⟨report, v', hrun, hwrites, hcells⟩ := encryptAll_run h tenant
  refine ⟨report, v', hrun, fun field value hscope hverbatim => ?_⟩
  have hsearch := search_run hwrites.calm tenant field value
  have hfind := findOwner_run hwrites.calm tenant field value
  have hascending := v'.store.ascending_hits v'.tenancy tenant field value
  -- Nobody holds the value itself, so the second stage answers.
  have hnone : v'.store.holders tenant field value = [] := by
    rw [List.eq_nil_iff_forall_not_mem]
    intro id hid
    obtain ⟨owner', ho', htenant', hvalue'⟩ := Store.mem_holders_iff.1 hid
    have hid' := Store.id_of_owner? ho'
    subst hid'
    exact hverbatim owner' ho' htenant' hvalue'
  rw [Store.hits, if_pos hnone, hwrites.tenancy, if_pos hscope] at hsearch hfind hascending
  refine ⟨_, hsearch, ?_, _, hfind, ?_⟩
  · exact foundByHash_of_encrypted h henabled hscope hwrites.off.heads
      (fun id owner ho htenant => hcells id owner ho htenant field) value
  · intro id
    rw [← hascending.eq_cons_iff, List.head?_eq_some_iff]

/-- A name is found after it was encrypted, with other letters and space around it. -/
theorem search_after_encryptAll_alice :
    let k : Key := ⟨List.replicate 16 7, .inl rfl⟩
    let alice : Owner := ⟨"u-1", "acme", false, Registry.empty.file ⟨"firstName", some "Alice"⟩⟩
    let v := settled k (({} : Store).putOwner alice) (Tenancy.none.setEnabled "acme" true)
    ∃ report v' hits, encryptAll "acme" v = .ok report v' ∧
      search "acme" "firstName" " aLICE " v' = .ok hits v' ∧ "u-1" ∈ hits := by
  intro k alice v
  have hcalm : v.Calm (.ok k) := calm_settled k _ _
  have ho : v.store.owner? alice.id = some alice := Store.owner?_putOwner_self {} alice
  have henabled : v.tenancy.enabled "acme" = true := Tenancy.enabled_setEnabled_self _ _ _
  have hvalue : alice.value "firstName" = some "Alice" :=
    Owner.value_write_self ⟨"u-1", "acme", false, .empty⟩ "firstName" _
  obtain ⟨report, v', hrun, hsearches⟩ := search_after_encryptAll hcalm henabled
  obtain ⟨report₁, v₁, hrun₁, hwrites, hcells⟩ := encryptAll_run hcalm "acme"
  cases hrun.symm.trans hrun₁
  obtain ⟨hits, hsearch, hfound, -⟩ := hsearches "firstName" " aLICE " (by decide) (by
    intro owner' ho' htenant' hvalue'
    obtain ⟨owner, howner, -⟩ :=
      Store.exists_owner_of_head?_eq ho' (hwrites.off.heads owner'.id).symm
    -- Alice is the only owner, and what she holds now is no plain text.
    obtain rfl := Store.eq_of_owner?_single howner
    have hcell : Cell.EncryptsTo k true _ _ := hcells _ _ howner rfl "firstName"
    rw [← Store.stored_cell ho'] at hvalue'
    rcases hcell.hidden hvalue' with hshaped | ⟨hmarked, -⟩
    · exact absurd hshaped (by decide)
    · exact absurd hmarked (by decide))
  refine ⟨report, v', hits, hrun, hsearch, ?_⟩
  exact hfound.complete alice "Alice" ho rfl rfl (.plain hvalue (by decide) (by decide))
    (by decide)

end Work

end FieldVault

/-
What encrypting an owner takes from a search.

A search stops at the owners that hold the value itself. While some of them are encrypted and others
are not, those that are encrypted hide behind the others: they hold the lookup hash, and nobody asks
for it. So a hit can get lost, and it comes back when the last holder of the value is encrypted; a
service account is never encrypted and hides them for good. There is one more way, for values that
nobody would search for by name: the value may be a lookup hash itself, and an owner that comes to
hold it then hides the owners that hold the hash of the hash.

Both are read off one field of each owner. An owner that is encrypted holds the hash of its text
afterwards if it had a text to seal, and every other owner holds what it held.
-/
import FieldVault.Proofs.Encryption.Confluence
import FieldVault.Proofs.Search.Encrypted

set_option autoImplicit false

namespace FieldVault

open Vault

variable {k : Key} {v v' : Vault} {tenant : TenantId} {field : FieldName} {value text : String}
  {id sealed : OwnerId} {ids : List OwnerId}

/-! ## Texts of owners -/

namespace Vault

/-- The owner is no service account and holds a text that can be sealed. -/
def HasText (v : Vault) (id : OwnerId) (field : FieldName) (text : String) : Prop :=
  ∃ owner, v.store.owner? id = some owner ∧ owner.serviceAccount = false ∧
    v.HoldsText owner field text

theorem hasText_iff (h : v.Calm (.ok k)) {owner : Owner} (ho : v.store.owner? id = some owner) :
    v.HasText id field text ↔ owner.serviceAccount = false ∧
      (v.store.cell id field).sealable k true = some text := by
  have hid := Store.id_of_owner? ho
  subst hid
  rw [HasText, ho, ← holdsText_iff h ho]
  simp only [Option.some.injEq, exists_eq_left']

theorem HasText.unique (h : v.Calm (.ok k)) {text' : String} (htext : v.HasText id field text)
    (htext' : v.HasText id field text') : text = text' := by
  have hheld := htext
  obtain ⟨owner, ho, -⟩ := hheld
  have hs := ((hasText_iff h ho).1 htext).2
  exact Option.some.inj (hs.symm.trans ((hasText_iff h ho).1 htext').2)

/-- What an owner holds that has a text to seal has not the shape of a lookup hash. -/
theorem HasText.not_shaped (h : v.Calm (.ok k)) (htext : v.HasText id field text)
    (hid : id ∈ v.store.holders tenant field value) : LookupHash.isShaped value = false := by
  obtain ⟨owner, ho, -⟩ := Store.mem_holders_iff.1 hid
  obtain ⟨-, stored, hstored, hshaped, -⟩ :=
    Cell.sealable_eq_some_iff.1 ((hasText_iff h ho).1 htext).2
  rw [(Store.mem_holders_iff_cell.1 hid).2] at hstored
  cases hstored
  exact hshaped

/-- Whoever holds a lookup hash has no text to seal. -/
theorem HasText.not_holder_of_hash (h : v.Calm (.ok k)) (htext : v.HasText id field text) :
    id ∉ v.store.holders tenant field (LookupHash.of value) := by
  intro hid
  have hshaped := htext.not_shaped h hid
  rw [LookupHash.isShaped_of] at hshaped
  cases hshaped

/-- A plain value is the text to seal of whoever holds it, service accounts apart. -/
theorem hasText_of_holder {owner : Owner} (ho : v.store.owner? id = some owner)
    (hservice : owner.serviceAccount = false) (hid : id ∈ v.store.holders tenant field value)
    (hm : Token.isMarked value = false) (hshaped : LookupHash.isShaped value = false) :
    v.HasText id field value := by
  obtain ⟨owner', ho', -, hvalue⟩ := Store.mem_holders_iff.1 hid
  cases ho.symm.trans ho'
  exact ⟨owner, ho, hservice, .plain hvalue hm hshaped⟩

end Vault

/-! ## Holders after some owners were encrypted -/

/-- These owners were encrypted, one after the other, with a key at hand and the field of the tenant
in scope. -/
structure Encrypts (k : Key) (tenant : TenantId) (field : FieldName) (ids : List OwnerId)
    (v v' : Vault) : Prop where
  calm : v.Calm (.ok k)
  enabled : v.tenancy.enabled tenant = true
  scope : v.tenancy.inScope tenant field = true
  writes : Writes (.ok k) (fun id _ => id ∈ ids) v v'
  cells : Work.Migrates k ids v v'

namespace Encrypts

/-- An owner that was encrypted with a text to seal holds the lookup hash of the text. -/
theorem mem_holders_of_sealed (h : Encrypts k tenant field ids v v')
    (htenant : id ∈ v.store.ownersIn tenant) (hid : id ∈ ids) (htext : v.HasText id field text) :
    id ∈ v'.store.holders tenant field value ↔ LookupHash.of text = value := by
  obtain ⟨owner, ho, rfl⟩ := Store.mem_ownersIn_iff.1 htenant
  obtain ⟨hservice, hsealable⟩ := (hasText_iff h.calm ho).1 htext
  have hencrypts := (h.cells id hid owner ho field).encrypts h.enabled hservice
  rw [h.scope] at hencrypts
  rw [Store.mem_holders_iff_cell, Store.ownersIn_congr h.writes.off.heads,
    hencrypts.stored_iff, hsealable]
  simp [htenant]

/-- Any other owner holds what it held. -/
theorem mem_holders_of_left (h : Encrypts k tenant field ids v v')
    (hleft : ¬ (id ∈ ids ∧ ∃ text, v.HasText id field text)) :
    id ∈ v'.store.holders tenant field value ↔ id ∈ v.store.holders tenant field value := by
  rw [Store.mem_holders_iff_cell, Store.mem_holders_iff_cell,
    Store.ownersIn_congr h.writes.off.heads]
  refine and_congr_right fun htenant => ?_
  by_cases hid : id ∈ ids
  · obtain ⟨owner, ho, rfl⟩ := Store.mem_ownersIn_iff.1 htenant
    have hcell := h.cells id hid owner ho field
    cases hservice : owner.serviceAccount with
    | true => rw [hcell.stays (.inl hservice)]
    | false =>
      have hencrypts := hcell.encrypts h.enabled hservice
      rw [h.scope] at hencrypts
      have hnone : (v.store.cell id field).sealable k true = none := by
        cases hs : (v.store.cell id field).sealable k true with
        | none => rfl
        | some text => exact absurd ⟨hid, text, (hasText_iff h.calm ho).2 ⟨hservice, hs⟩⟩ hleft
      rw [hencrypts.stored_iff, hnone]
      simp
  · rw [h.writes.off.cells id field hid]

theorem mem_hits_iff (h : Encrypts k tenant field ids v v') :
    id ∈ v'.store.hits v'.tenancy tenant field value ↔
      id ∈ v'.store.holders tenant field value ∨
        (∀ other, other ∉ v'.store.holders tenant field value) ∧
          id ∈ v'.store.holders tenant field (LookupHash.of value) :=
  Store.mem_hits_iff (by rw [h.writes.tenancy, h.scope])

/-- Holders of a hash have no text to seal, so they hold it still. -/
theorem mem_holders_of_hash (h : Encrypts k tenant field ids v v')
    (hid : id ∈ v.store.holders tenant field (LookupHash.of value)) :
    id ∈ v'.store.holders tenant field (LookupHash.of value) := by
  refine (h.mem_holders_of_left fun hsealed => ?_).2 hid
  obtain ⟨text, htext⟩ := hsealed.2
  exact htext.not_holder_of_hash h.calm hid

end Encrypts

/-! ## One owner -/

namespace Encrypts

theorem mem_holders_of_ne (h : Encrypts k tenant field [sealed] v v') (hne : id ≠ sealed) :
    id ∈ v'.store.holders tenant field value ↔ id ∈ v.store.holders tenant field value :=
  h.mem_holders_of_left fun hmem => hne (List.mem_singleton.1 hmem.1)

/-- Without a text to seal nothing changes hands. -/
theorem mem_hits_of_no_text (h : Encrypts k tenant field [sealed] v v')
    (hnone : ¬ ∃ text, v.HasText sealed field text) :
    id ∈ v'.store.hits v'.tenancy tenant field value ↔
      id ∈ v.store.hits v.tenancy tenant field value := by
  have hsame {id : OwnerId} {value : String} :
      id ∈ v'.store.holders tenant field value ↔ id ∈ v.store.holders tenant field value := by
    refine h.mem_holders_of_left fun hmem => hnone ?_
    rw [← List.mem_singleton.1 hmem.1]
    exact hmem.2
  rw [h.mem_hits_iff, Store.mem_hits_iff h.scope]
  simp only [hsame]

/-- The owner that was encrypted is still found by what it held if nobody else held it, and the text
has the same hash. -/
theorem mem_hits_of_sealed (h : Encrypts k tenant field [sealed] v v')
    (htext : v.HasText sealed field text) (hheld : sealed ∈ v.store.holders tenant field value) :
    sealed ∈ v'.store.hits v'.tenancy tenant field value ↔
      (∀ other ∈ v.store.holders tenant field value, other = sealed) ∧
        LookupHash.of text = LookupHash.of value := by
  have htenant := (Store.mem_holders_iff_cell.1 hheld).1
  have hnow {value : String} :
      sealed ∈ v'.store.holders tenant field value ↔ LookupHash.of text = value :=
    h.mem_holders_of_sealed htenant List.mem_cons_self htext
  -- It does not hold the value any more, since it holds a lookup hash.
  have hgone : LookupHash.of text ≠ value := by
    intro heq
    rw [← heq] at hheld
    exact htext.not_holder_of_hash h.calm hheld
  rw [h.mem_hits_iff, hnow, hnow, or_iff_right hgone]
  refine and_congr_left fun _ => ⟨fun halone other hother => ?_, fun halone other hother => ?_⟩
  · by_contra hne
    exact halone other ((h.mem_holders_of_ne hne).2 hother)
  · by_cases hne : other = sealed
    · rw [hne, hnow] at hother
      exact hgone hother
    · exact hne (halone other ((h.mem_holders_of_ne hne).1 hother))

/-- Whoever was found by the hash is still found unless the owner that was encrypted came to hold
the value. -/
theorem mem_hits_of_unheld (h : Encrypts k tenant field [sealed] v v')
    (hsealed : sealed ∈ v.store.ownersIn tenant) (htext : v.HasText sealed field text)
    (hunheld : v.store.holders tenant field value = [])
    (hhash : id ∈ v.store.holders tenant field (LookupHash.of value)) :
    id ∈ v'.store.hits v'.tenancy tenant field value ↔ LookupHash.of text ≠ value := by
  have hnow : sealed ∈ v'.store.holders tenant field value ↔ LookupHash.of text = value :=
    h.mem_holders_of_sealed hsealed List.mem_cons_self htext
  have hothers {other : OwnerId} (hother : other ≠ sealed) :
      other ∉ v'.store.holders tenant field value := by
    rw [h.mem_holders_of_ne hother, hunheld]
    exact List.not_mem_nil
  have hne : id ≠ sealed := by
    intro heq
    rw [heq] at hhash
    exact htext.not_holder_of_hash h.calm hhash
  rw [h.mem_hits_iff, or_iff_right (hothers hne), and_iff_left (h.mem_holders_of_hash hhash), Ne,
    ← hnow]
  refine ⟨fun hnobody => hnobody sealed, fun hnot other => ?_⟩
  by_cases hother : other = sealed
  · rwa [hother]
  · exact hothers hother

end Encrypts

/-! ## Hits that get lost -/

/-- A search that found this owner misses it once the owner `sealed` is encrypted. Either it is that
owner itself: its value is replaced by the lookup hash of its text, and another owner still holds
the value, or the value was a token and has another hash than its text. Or nobody held the value,
and it is the very hash that now stands with the owner that was encrypted. -/
inductive Vault.Loses (v : Vault) (tenant : TenantId) (field : FieldName) (value : String)
    (sealed : OwnerId) : OwnerId → Prop
  | replaced {text : String} (held : sealed ∈ v.store.holders tenant field value)
      (hasText : v.HasText sealed field text)
      (missed : (∃ other ∈ v.store.holders tenant field value, other ≠ sealed) ∨
        LookupHash.of text ≠ LookupHash.of value) : v.Loses tenant field value sealed sealed
  | displaced {id : OwnerId} {text : String} (unheld : v.store.holders tenant field value = [])
      (hasText : v.HasText sealed field text) (hash : LookupHash.of text = value) :
      v.Loses tenant field value sealed id

namespace Vault

/-- Of those who hold the value, only the owner that is encrypted can get lost. -/
theorem loses_iff_of_held (h : v.Calm (.ok k)) (htext : v.HasText sealed field text)
    (hid : id ∈ v.store.holders tenant field value) :
    v.Loses tenant field value sealed id ↔ id = sealed ∧
      ((∃ other ∈ v.store.holders tenant field value, other ≠ sealed) ∨
        LookupHash.of text ≠ LookupHash.of value) := by
  constructor
  · rintro (⟨-, htext', hmissed⟩ | ⟨hunheld, -, -⟩)
    · cases htext.unique h htext'
      exact ⟨rfl, hmissed⟩
    · rw [hunheld] at hid
      cases hid
  · rintro ⟨rfl, hmissed⟩
    exact .replaced hid htext hmissed

/-- If nobody holds the value, everybody gets lost or nobody. -/
theorem loses_iff_of_unheld (h : v.Calm (.ok k)) (htext : v.HasText sealed field text)
    (hunheld : v.store.holders tenant field value = []) :
    v.Loses tenant field value sealed id ↔ LookupHash.of text = value := by
  constructor
  · rintro (⟨hheld, -, -⟩ | ⟨-, htext', hhash⟩)
    · rw [hunheld] at hheld
      cases hheld
    · cases htext.unique h htext'
      exact hhash
  · exact fun hhash => .displaced hunheld htext hhash

end Vault

/-- Of the owners found before, those are missed afterwards that are lost, and no others. -/
theorem Encrypts.mem_hits_iff_not_loses (h : Encrypts k tenant field [sealed] v v')
    (hsealed : sealed ∈ v.store.ownersIn tenant)
    (hid : id ∈ v.store.hits v.tenancy tenant field value) :
    id ∈ v'.store.hits v'.tenancy tenant field value ↔
      ¬ v.Loses tenant field value sealed id := by
  by_cases hsome : ∃ text, v.HasText sealed field text
  · obtain ⟨text, htext⟩ := hsome
    rcases (Store.mem_hits_iff h.scope).1 hid with hheld | ⟨hunheld, hhash⟩
    · rw [loses_iff_of_held h.calm htext hheld]
      by_cases hself : id = sealed
      · subst hself
        rw [h.mem_hits_of_sealed htext hheld]
        simp only [true_and, not_or, not_exists, not_and, not_not, ne_eq]
      · refine iff_of_true ?_ fun hlost => hself hlost.1
        exact h.mem_hits_iff.2 (.inl ((h.mem_holders_of_ne hself).2 hheld))
    · have hnil := List.eq_nil_iff_forall_not_mem.2 hunheld
      rw [loses_iff_of_unheld h.calm htext hnil, h.mem_hits_of_unheld hsealed htext hnil hhash]
  · refine iff_of_true ?_ ?_
    · rwa [h.mem_hits_of_no_text hsome]
    · rintro (⟨-, htext, -⟩ | ⟨-, htext, -⟩)
      · exact hsome ⟨_, htext⟩
      · exact hsome ⟨_, htext⟩

/-! ## Plain values and lists of owners -/

/-- The owner is a service account. -/
def Store.IsService (s : Store) (id : OwnerId) : Prop :=
  ∃ owner, s.owner? id = some owner ∧ owner.serviceAccount = true

namespace Encrypts

variable (h : Encrypts k tenant field ids v v') (hm : Token.isMarked value = false)
  (hshaped : LookupHash.isShaped value = false)
include h hm hshaped

/-- Owners that hold a plain value and are encrypted get its lookup hash, service accounts apart. -/
theorem mem_holders_of_encrypted (hheld : id ∈ v.store.holders tenant field value) (hid : id ∈ ids)
    (hservice : ¬ v.store.IsService id) :
    id ∈ v'.store.holders tenant field (LookupHash.of value) := by
  obtain ⟨owner, ho, -⟩ := Store.mem_holders_iff.1 hheld
  have hperson : owner.serviceAccount = false :=
    Bool.eq_false_iff.2 fun hs => hservice ⟨owner, ho, hs⟩
  have htext := hasText_of_holder ho hperson hheld hm hshaped
  exact (h.mem_holders_of_sealed (Store.mem_holders_iff_cell.1 hheld).1 hid htext).2 rfl

/-- A plain value is held still by the owners that were not encrypted and by service accounts. -/
theorem mem_holders_iff_of_plain : id ∈ v'.store.holders tenant field value ↔
    id ∈ v.store.holders tenant field value ∧ (id ∈ ids → v.store.IsService id) := by
  by_cases hsealed : id ∈ ids ∧ ∃ text, v.HasText id field text
  · obtain ⟨hid, text, htext⟩ := hsealed
    refine iff_of_false (fun hheld => ?_) fun hheld => ?_
    · -- What stands there is a lookup hash, and the value is none.
      have htenant := (Store.mem_holders_iff_cell.1 hheld).1
      rw [Store.ownersIn_congr h.writes.off.heads] at htenant
      rw [← (h.mem_holders_of_sealed htenant hid htext).1 hheld, LookupHash.isShaped_of] at hshaped
      cases hshaped
    · obtain ⟨owner, ho, hservice⟩ := hheld.2 hid
      rw [((hasText_iff h.calm ho).1 htext).1] at hservice
      cases hservice
  · rw [h.mem_holders_of_left hsealed, iff_self_and]
    intro hheld hid
    by_contra hservice
    obtain ⟨owner, ho, -⟩ := Store.mem_holders_iff.1 hheld
    have hperson : owner.serviceAccount = false :=
      Bool.eq_false_iff.2 fun hs => hservice ⟨owner, ho, hs⟩
    exact hsealed ⟨hid, value, hasText_of_holder ho hperson hheld hm hshaped⟩

/-- Who was found by a plain value is found still if it holds the value, or if nobody does. -/
theorem mem_hits_iff_of_plain (hfound : id ∈ v.store.hits v.tenancy tenant field value) :
    id ∈ v'.store.hits v'.tenancy tenant field value ↔
      id ∈ v'.store.holders tenant field value ∨ v'.store.holders tenant field value = [] := by
  rw [h.mem_hits_iff, List.eq_nil_iff_forall_not_mem]
  refine or_congr_right (and_iff_left_of_imp fun hnobody => ?_)
  rcases (Store.mem_hits_iff h.scope).1 hfound with hheld | ⟨-, hhash⟩
  · have hgone := mt (h.mem_holders_iff_of_plain hm hshaped).2 (hnobody id)
    have hid : id ∈ ids ∧ ¬ v.store.IsService id := by
      rwa [not_and, Classical.not_imp, imp_iff_right hheld] at hgone
    exact h.mem_holders_of_encrypted hm hshaped hheld hid.1 hid.2
  · exact h.mem_holders_of_hash hhash

end Encrypts

namespace Work

theorem encryptOwner_encrypts (h : v.Calm (.ok k)) (henabled : v.tenancy.enabled tenant = true)
    (hsealed : sealed ∈ v.store.ownersIn tenant)
    (hscope : v.tenancy.inScope tenant field = true) :
    ∃ report v', encryptOwner sealed v = .ok report v' ∧
      Encrypts k tenant field [sealed] v v' := by
  obtain ⟨owner, ho, -⟩ := Store.mem_ownersIn_iff.1 hsealed
  obtain ⟨report, v', hrun, hwrites, hcells⟩ := encryptOwner_run h ho
  refine ⟨report, v', hrun, h, henabled, hscope,
    hwrites.mono fun _ _ hid => List.mem_singleton.2 hid, ?_⟩
  intro id hid owner' ho' field'
  cases List.mem_singleton.1 hid
  cases ho.symm.trans ho'
  exact hcells field'

/-- **What encrypting owners takes from a search.** From every state of the store, with a key at
hand and encryption on: after one owner of the tenant was encrypted, a search in scope finds
everybody that it found before except those that are lost. For a plain value and any list of owners
of the tenant, encrypted one after the other: those who held the value and were not encrypted, or
are service accounts, hold it still; and whoever was found before is found afterwards if it holds
the value still, or if nobody does. -/
theorem search_after_encryptOwner (h : v.Calm (.ok k)) {tenant : TenantId}
    (henabled : v.tenancy.enabled tenant = true) :
    (∀ sealed ∈ v.store.ownersIn tenant, ∀ field value, v.tenancy.inScope tenant field = true →
      ∃ earlier report v' later, search tenant field value v = .ok earlier v ∧
        encryptOwner sealed v = .ok report v' ∧ search tenant field value v' = .ok later v' ∧
        ∀ id ∈ earlier, id ∈ later ↔ ¬ v.Loses tenant field value sealed id) ∧
    ∀ ids ⊆ v.store.ownersIn tenant, ∀ field value, v.tenancy.inScope tenant field = true →
      Token.isMarked value = false → LookupHash.isShaped value = false →
      ∃ earlier reports w later, search tenant field value v = .ok earlier v ∧
        each encryptOwner ids v = .ok reports w ∧ search tenant field value w = .ok later w ∧
        (∀ id, id ∈ w.store.holders tenant field value ↔
          id ∈ v.store.holders tenant field value ∧ (id ∈ ids → v.store.IsService id)) ∧
        ∀ id ∈ earlier, id ∈ later ↔ id ∈ w.store.holders tenant field value ∨
          w.store.holders tenant field value = [] := by
  refine ⟨?_, ?_⟩
  · intro sealed hsealed field value hscope
    obtain ⟨report, v', hrun, hencrypts⟩ := encryptOwner_encrypts h henabled hsealed hscope
    refine ⟨_, report, v', _, search_run h tenant field value, hrun,
      search_run hencrypts.writes.calm tenant field value, ?_⟩
    exact fun id hid => hencrypts.mem_hits_iff_not_loses hsealed hid
  · intro ids hids field value hscope hm hshaped
    have howners : ∀ id ∈ ids, ∃ owner, v.store.owner? id = some owner := by
      intro id hid
      obtain ⟨owner, ho, -⟩ := Store.mem_ownersIn_iff.1 (hids hid)
      exact ⟨owner, ho⟩
    obtain ⟨reports, w, hrun, hwrites, hcells, -⟩ := encryptOwners_run h howners
    have hencrypts : Encrypts k tenant field ids v w := ⟨h, henabled, hscope, hwrites, hcells⟩
    refine ⟨_, reports, w, _, search_run h tenant field value, hrun,
      search_run hwrites.calm tenant field value, ?_, ?_⟩
    · exact fun id => hencrypts.mem_holders_iff_of_plain hm hshaped
    · exact fun id hid => hencrypts.mem_hits_iff_of_plain hm hshaped hid

/-- Two owners of one tenant with the same address, and encryption on. -/
def namesakes : Vault :=
  let fields : Registry Field := Registry.empty.file ⟨"email", some "alice"⟩
  settled ⟨List.replicate 16 7, .inl rfl⟩
    (.ofLists [⟨"u-1", "acme", false, fields⟩, ⟨"u-2", "acme", false, fields⟩] [])
    (Tenancy.none.setEnabled "acme" true)

theorem calm_namesakes : namesakes.Calm (.ok ⟨List.replicate 16 7, .inl rfl⟩) :=
  calm_settled _ _ _

theorem ownersIn_namesakes : namesakes.store.ownersIn "acme" = ["u-1", "u-2"] := by
  decide +kernel

theorem holders_namesakes : namesakes.store.holders "acme" "email" "alice" = ["u-1", "u-2"] := by
  decide +kernel

theorem not_isService_namesakes (id : OwnerId) : ¬ namesakes.store.IsService id := by
  have hperson : ∀ owner ∈ namesakes.store.owners.toList, owner.serviceAccount = false := by
    decide +kernel
  rintro ⟨owner, ho, hservice⟩
  have hmem := Registry.mem_toList_iff.2 (Store.id_of_owner? ho ▸ ho)
  rw [hperson owner hmem] at hservice
  cases hservice

theorem search_namesakes :
    search "acme" "email" "alice" namesakes = .ok ["u-1", "u-2"] namesakes := by
  rw [search_run calm_namesakes, Store.hits, holders_namesakes]
  rfl

/-- The first of two is missed when it is encrypted, and both are found when both are. -/
theorem search_after_encryptOwner_namesakes :
    (∃ report v' later, encryptOwner "u-1" namesakes = .ok report v' ∧
      search "acme" "email" "alice" v' = .ok later v' ∧ "u-1" ∉ later ∧ "u-2" ∈ later) ∧
    ∃ reports w later, each encryptOwner ["u-1", "u-2"] namesakes = .ok reports w ∧
      search "acme" "email" "alice" w = .ok later w ∧ "u-1" ∈ later ∧ "u-2" ∈ later := by
  have hfirst : "u-1" ∈ namesakes.store.ownersIn "acme" := by
    rw [ownersIn_namesakes]
    decide
  have hheld : "u-1" ∈ namesakes.store.holders "acme" "email" "alice" := by
    rw [holders_namesakes]
    decide
  have hother : "u-2" ∈ namesakes.store.holders "acme" "email" "alice" := by
    rw [holders_namesakes]
    decide
  have htext : namesakes.HasText "u-1" "email" "alice" := by
    obtain ⟨owner, ho, -⟩ := Store.mem_holders_iff.1 hheld
    have hperson : owner.serviceAccount = false :=
      Bool.eq_false_iff.2 fun hs => not_isService_namesakes "u-1" ⟨owner, ho, hs⟩
    exact hasText_of_holder ho hperson hheld (by decide) (by decide)
  have henabled : namesakes.tenancy.enabled "acme" = true := rfl
  obtain ⟨hone, hmany⟩ := search_after_encryptOwner calm_namesakes henabled
  refine ⟨?_, ?_⟩
  · obtain ⟨earlier, report, v', later, hearlier, hrun, hlater, hfound⟩ :=
      hone "u-1" hfirst "email" "alice" rfl
    cases search_namesakes.symm.trans hearlier
    refine ⟨report, v', later, hrun, hlater, fun hmem => ?_, ?_⟩
    · exact (hfound "u-1" (by decide)).1 hmem
        (.replaced hheld htext (.inl ⟨"u-2", hother, by decide⟩))
    · refine (hfound "u-2" (by decide)).2 fun hlost => ?_
      exact absurd ((loses_iff_of_held calm_namesakes htext hother).1 hlost).1 (by decide)
  · obtain ⟨earlier, reports, w, later, hearlier, hrun, hlater, hholders, hfound⟩ :=
      hmany ["u-1", "u-2"] (by rw [ownersIn_namesakes]; exact List.Subset.refl _) "email" "alice"
        rfl (by decide) (by decide)
    cases search_namesakes.symm.trans hearlier
    have hnobody : w.store.holders "acme" "email" "alice" = [] := by
      refine List.eq_nil_iff_forall_not_mem.2 fun id hid => ?_
      obtain ⟨hheld, hservice⟩ := (hholders id).1 hid
      have hmem : id ∈ ["u-1", "u-2"] := holders_namesakes ▸ hheld
      exact not_isService_namesakes id (hservice hmem)
    exact ⟨reports, w, later, hrun, hlater, (hfound "u-1" (by decide)).2 (.inr hnobody),
      (hfound "u-2" (by decide)).2 (.inr hnobody)⟩

/-- The first of two is found before it is encrypted, and missed afterwards. -/
theorem search_loses_sealed :
    ∃ report v', "u-1" ∈ namesakes.store.ownersIn "acme" ∧
      namesakes.tenancy.inScope "acme" "email" = true ∧
      search "acme" "email" "alice" namesakes = .ok ["u-1", "u-2"] namesakes ∧
      encryptOwner "u-1" namesakes = .ok report v' ∧
      search "acme" "email" "alice" v' = .ok ["u-2"] v' := by
  have hfirst : "u-1" ∈ namesakes.store.ownersIn "acme" := by
    rw [ownersIn_namesakes]
    decide
  have henabled : namesakes.tenancy.enabled "acme" = true := rfl
  have hscope : namesakes.tenancy.inScope "acme" "email" = true := rfl
  obtain ⟨report, v', hrun, hencrypts⟩ :=
    encryptOwner_encrypts calm_namesakes henabled hfirst hscope
  have hholders : v'.store.holders "acme" "email" "alice" = ["u-2"] := by
    refine (Store.ascending_holders v'.store _ _ _).eq_of_mem_iff (List.pairwise_singleton _ _) ?_
    intro id
    rw [hencrypts.mem_holders_iff_of_plain (by decide) (by decide)]
    constructor
    · rintro ⟨hheld, hservice⟩
      have hmem : id ∈ ["u-1", "u-2"] := holders_namesakes ▸ hheld
      rcases List.mem_cons.1 hmem with rfl | hmem
      · exact absurd (hservice List.mem_cons_self) (not_isService_namesakes "u-1")
      · exact hmem
    · intro hid
      cases List.mem_singleton.1 hid
      refine ⟨?_, fun hmem => absurd hmem (by decide)⟩
      have hheld : "u-2" ∈ namesakes.store.holders "acme" "email" "alice" := by
        rw [holders_namesakes]
        decide
      exact hheld
  refine ⟨report, v', hfirst, rfl, search_namesakes, hrun, ?_⟩
  rw [search_run hencrypts.writes.calm, Store.hits, hholders]
  rfl

end Work

end FieldVault

/-
No tampered value is served.

A ciphertext that was put in the place of another can be anything: the token of someone else, a
token that was cut short or changed, or no token at all, which decrypts to itself. None of this
makes a difference. The one thing that counts is whether it decrypts to a text that the stored hash
belongs to. If it does, that text is served. If it does not, every reader refuses it in its own way:
reading the field fails, reading the owner withholds the field, and decrypting the tenant leaves the
owner alone and reports it. The ciphertext stands in a single cell, and whatever does not read that
cell does not notice.
-/
import FieldVault.Proofs.Decryption.Tenant
import FieldVault.Proofs.Reading.Agreement

set_option autoImplicit false

namespace FieldVault

variable {k : Key} {v w : Vault} {owner : Owner} {field : FieldName} {hash : String}
  {shadow : Shadow} {ciphertext text : String}

/-! ## Good ciphertexts -/

namespace FieldCipher

variable {c : FieldCipher}

/-- The ciphertext decrypts to the text, and the text hashes to the stored hash, letter case
aside. -/
def Matches (c : FieldCipher) (hash ciphertext text : String) : Prop :=
  answer (decrypt ciphertext) c = .ok text ∧
    hash.toList.map Char.toLower =
      (Hex.encode (Digest.sha1 (Utf8.encode (LookupHash.normalize text)))).toList.map Char.toLower

theorem matches_iff : c.Matches hash ciphertext text ↔
    answer (decrypt ciphertext) c = .ok text ∧ LookupHash.isOf (some hash) text = true := by
  rw [LookupHash.isOf, decide_eq_true_eq]
  rfl

theorem verify_iff : (verify (some hash) ciphertext c).1 = true ↔
    ∃ text, c.Matches hash ciphertext text := by
  simp only [matches_iff, verify, answer]
  cases decrypt ciphertext c with
  | ok text c' => simp
  | error e c' => simp

theorem verified_eq_ok_iff (hc : c.keys.Answers (.ok k)) {ref : FieldRef} :
    verified (.ok k) ref (some hash) ciphertext = .ok text ↔ c.Matches hash ciphertext text := by
  rw [matches_iff, answer_decrypt hc, verified]
  cases hr : reveal (.ok k) ciphertext with
  | ok text' =>
    cases hm : LookupHash.isOf (some hash) text' with
    | true =>
      simp only [hm, if_true, Except.ok.injEq]
      constructor
      · rintro rfl
        exact ⟨rfl, hm⟩
      · rintro ⟨rfl, -⟩
        rfl
    | false =>
      simp only [hm, Bool.false_eq_true, if_false]
      constructor
      · intro heq
        cases heq
      · rintro ⟨heq, hm'⟩
        cases heq
        rw [hm] at hm'
        cases hm'
  | error e => cases e <;> simp

/-- With a key at hand, a ciphertext that is not good fails as a failed verification. -/
theorem verified_of_not_matches (hc : c.keys.Answers (.ok k)) {ref : FieldRef}
    (hbad : ¬∃ text, c.Matches hash ciphertext text) :
    verified (.ok k) ref (some hash) ciphertext = .error (.integrity ref) := by
  cases hv : verified (.ok k) ref (some hash) ciphertext with
  | ok text => exact absurd ⟨text, (verified_eq_ok_iff hc).1 hv⟩ hbad
  | error e =>
    rcases verified_error hv with rfl | ⟨e', -, he'⟩
    · rfl
    · exact absurd he' (reveal_ne_key k ciphertext e')

end FieldCipher

/-! ## Another ciphertext in a shadow record -/

namespace Vault

/-- The vault with another ciphertext in one of its shadow records. -/
def tampered (v : Vault) (shadow : Shadow) (ciphertext : String) : Vault :=
  { v with store := { v.store with shadows := v.store.shadows.file { shadow with ciphertext } } }

/-- The field is served for the text, by itself and with its owner. -/
structure Serves (v : Vault) (id : OwnerId) (field : FieldName) (text : String) : Prop where
  alone : answer (Work.loadField id field) v = .ok (some text)
  withOwner : ∃ served, answer (Work.loadOwnerPlain id) v = .ok served ∧
    field ∉ served.unreadable ∧ served.owner.value field = some text

/-- Reading the field is a failed verification, and its owner is served without it. -/
structure Withholds (v : Vault) (ref : FieldRef) : Prop where
  alone : answer (Work.loadField ref.owner ref.field) v = .error (.integrity ref)
  withOwner : ∃ served, answer (Work.loadOwnerPlain ref.owner) v = .ok served ∧
    ref.field ∈ served.unreadable ∧ served.owner.value ref.field = none

/-- The vaults answer alike to whoever does not ask for one field of one owner. The owner itself can
be read in both, and all its other fields are served alike or withheld alike. -/
structure ReadsLikeExcept (id : OwnerId) (field : FieldName) (v w : Vault) : Prop where
  fields : ∀ id' field', ¬(id' = id ∧ field' = field) →
    answer (Work.loadField id' field') w = answer (Work.loadField id' field') v
  owners : ∀ id', id' ≠ id →
    answer (Work.loadOwnerPlain id') w = answer (Work.loadOwnerPlain id') v
  others : ∃ served served', answer (Work.loadOwnerPlain id) v = .ok served ∧
    answer (Work.loadOwnerPlain id) w = .ok served' ∧
    ∀ field', field' ≠ field →
      served'.owner.value field' = served.owner.value field' ∧
        (field' ∈ served'.unreadable ↔ field' ∈ served.unreadable)

theorem Calm.tampered (h : v.Calm (.ok k)) (shadow : Shadow) (ciphertext : String) :
    (v.tampered shadow ciphertext).Calm (.ok k) :=
  (h.follows_store _).calm

theorem sets_tampered (hshadow : v.store.shadow? owner.id field = some shadow) :
    v.store.Sets owner.id field
      { v.store.cell owner.id field with shadow := some { shadow with ciphertext } }
      (v.tampered shadow ciphertext).store := by
  rw [← Store.owner_of_shadow? hshadow, ← Store.field_of_shadow? hshadow]
  exact Store.sets_fileShadow v.store { shadow with ciphertext }

/-- The shadow record beside a lookup hash is live, so every read goes by the new ciphertext. -/
theorem read_tampered (ho : v.store.owner? owner.id = some owner)
    (hstored : owner.value field = some hash) (hshaped : LookupHash.isShaped hash = true)
    (hshadow : v.store.shadow? owner.id field = some shadow) (strict : Bool) (ref : FieldRef) :
    ((v.tampered shadow ciphertext).store.cell owner.id field).read strict (.ok k) ref =
      (verified (.ok k) ref (some hash) ciphertext).map some := by
  have hcell : ((v.tampered shadow ciphertext).store.cell owner.id field).stored = some hash :=
    (Store.stored_cell ho).trans hstored
  have hlive : ((v.tampered shadow ciphertext).store.cell owner.id field).live? =
      some { shadow with ciphertext } := by
    rw [Cell.live?_eq_some_iff, hcell, isStale, hshaped, (sets_tampered hshadow).cell]
    exact ⟨rfl, rfl⟩
  rw [Cell.read_of_live hlive, hcell]

theorem ReadsLikeExcept.of_sets {c : Cell} (hv : v.Calm (.ok k)) (hw : w.Calm (.ok k))
    (hstrict : w.strict = v.strict) (hsets : v.store.Sets owner.id field c w.store)
    (ho : v.store.owner? owner.id = some owner) (ho' : w.store.owner? owner.id = some owner) :
    ReadsLikeExcept owner.id field v w := by
  refine ⟨?_, ?_, ?_⟩
  · intro id' field' hne
    refine Work.answer_loadField_congr hv hw hstrict (hsets.off.heads id') ?_
    intro tenant
    rw [hsets.off.cells id' field' hne]
  · intro id' hne
    refine Work.answer_loadOwnerPlain_congr hv hw hstrict (hsets.off.heads id') ?_
    intro field' tenant
    rw [hsets.off.cells id' field' fun h => hne h.1]
    exact .refl _
  -- The owner is read as a whole in both, but what becomes of a field is up to its own cell.
  · refine ⟨_, _, (Work.loadOwnerPlain_reads_key hv ho).answer,
      (Work.loadOwnerPlain_reads_key hw ho').answer, ?_⟩
    intro field' hne
    have hcell := hsets.off.cells owner.id field' fun h => hne h.2
    rw [Store.value_reading ho, Store.value_reading ho', Store.mem_unreadable_iff ho,
      Store.mem_unreadable_iff ho', Store.isWithheld, Store.isWithheld, hcell, hstrict]
    exact ⟨rfl, Iff.rfl⟩

variable (h : v.Calm (.ok k)) (ho : v.store.owner? owner.id = some owner)
include h ho

theorem Serves.of_read (hread : (v.store.cell owner.id field).read v.strict (.ok k)
      ⟨owner.tenant, owner.id, field⟩ = .ok (some text)) :
    v.Serves owner.id field text := by
  refine ⟨?_, _, (Work.loadOwnerPlain_reads_key h ho).answer, ?_, ?_⟩
  · rw [(Work.loadField_reads h ho field).answer, hread]
  · rw [Store.mem_unreadable_iff ho, Store.isWithheld, hread]
    exact Bool.false_ne_true
  · rw [Store.value_reading ho, hread]
    rfl

theorem Withholds.of_read (hread : (v.store.cell owner.id field).read v.strict (.ok k)
      ⟨owner.tenant, owner.id, field⟩ = .error (.integrity ⟨owner.tenant, owner.id, field⟩)) :
    v.Withholds ⟨owner.tenant, owner.id, field⟩ := by
  refine ⟨?_, _, (Work.loadOwnerPlain_reads_key h ho).answer, ?_, ?_⟩
  · rw [(Work.loadField_reads h ho field).answer, hread]
  · rw [Store.mem_unreadable_iff ho, Store.isWithheld, hread]
    rfl
  · rw [Store.value_reading ho, hread]
    rfl

end Vault

namespace Work

open Vault

/-- **No tampered value is served.** For every owner with a live shadow record, and for every
string that is put in the place of the ciphertext in it. The string verifies if it decrypts to a
text that the stored hash belongs to, and that text is the only one that is handed out. If there is
such a text, it is served; if not, the field is withheld by both reads, and decrypting the tenant
reports the owner and leaves all there is of it, while all other owners end as they would have.
Every other field of every owner is read as before. -/
theorem tampering_withheld (h : v.Calm (.ok k)) {id : OwnerId}
    (ho : v.store.owner? id = some owner) (hstored : owner.value field = some hash)
    (hshaped : LookupHash.isShaped hash = true)
    (hshadow : v.store.shadow? id field = some shadow) (ciphertext : String) :
    let w := v.tampered shadow ciphertext
    ((FieldCipher.verify (some hash) ciphertext v.cipher).1 = true ↔
      ∃ text, v.cipher.Matches hash ciphertext text) ∧
    (∀ ref text,
      answer (FieldCipher.decryptVerified ref (some hash) ciphertext) v.cipher = .ok text ↔
        v.cipher.Matches hash ciphertext text) ∧
    (∀ text, v.cipher.Matches hash ciphertext text → w.Serves id field text) ∧
    ((¬∃ text, v.cipher.Matches hash ciphertext text) →
      w.Withholds ⟨owner.tenant, id, field⟩ ∧
      ∃ direct v' report w', decryptAll owner.tenant v = .ok direct v' ∧
        decryptAll owner.tenant w = .ok report w' ∧
        (∃ failed ∈ report.failures, failed.owner = id) ∧
        w'.store.owner? id = w.store.owner? id ∧
        w'.store.shadowsOf id = w.store.shadowsOf id ∧
        ∀ other, other ≠ id →
          (w'.store.owner? other = v'.store.owner? other ∧
            w'.store.shadowsOf other = v'.store.shadowsOf other) ∧
          ∀ failed : FieldRef, failed.owner = other →
            (failed ∈ report.failures ↔ failed ∈ direct.failures)) ∧
    ReadsLikeExcept id field v w := by
  intro w
  have hid := Store.id_of_owner? ho
  subst hid
  have hw : w.Calm (.ok k) := h.tampered shadow ciphertext
  have ho' : w.store.owner? owner.id = some owner := ho
  have hsets : v.store.Sets owner.id field _ w.store := sets_tampered hshadow
  have hread : ∀ strict ref, (w.store.cell owner.id field).read strict (.ok k) ref =
      (verified (.ok k) ref (some hash) ciphertext).map some :=
    read_tampered ho hstored hshaped hshadow
  refine ⟨FieldCipher.verify_iff, ?_, ?_, ?_, .of_sets h hw rfl hsets ho ho'⟩
  · intro ref text
    rw [FieldCipher.answer_decryptVerified h.answers, FieldCipher.verified_eq_ok_iff h.answers]
  · intro text hgood
    refine .of_read hw ho' ?_
    rw [hread, (FieldCipher.verified_eq_ok_iff h.answers).2 hgood]
    rfl
  · intro hbad
    have hfails : ∀ strict, (w.store.cell owner.id field).read strict (.ok k)
        ⟨owner.tenant, owner.id, field⟩ = .error (.integrity ⟨owner.tenant, owner.id, field⟩) := by
      intro strict
      rw [hread, FieldCipher.verified_of_not_matches h.answers hbad]
      rfl
    -- Decrypting goes by what a lenient read serves, and one failure stops it for the whole owner.
    have hunreadable : (w.store.reading false (.ok k) owner).unreadable ≠ [] :=
      List.ne_nil_of_mem ((Store.mem_unreadable_iff ho').2 (Store.isWithheld_iff.2 ⟨_, hfails _⟩))
    obtain ⟨direct, v', hdirect, -⟩ := decryptAll_run h owner.tenant
    obtain ⟨report, w', hreport, -⟩ := decryptAll_run hw owner.tenant
    obtain ⟨hreported, howner, hshadows⟩ := decryptAll_refuses hw ho' hunreadable hreport
    refine ⟨.of_read hw ho' (hfails _), direct, v', report, w', hdirect, hreport, hreported, howner,
      hshadows, ?_⟩
    intro other hne
    refine decryptAll_congr h hw (hsets.off.heads other) ?_ hdirect hreport
    intro field'
    exact hsets.off.cells other field' fun h => hne h.1

/-- In the place of a token, something marked that is no token is refused, and the token of a text
that differs in letter case is served. -/
theorem tampering_withheld_alice :
    let k : Key := ⟨List.replicate 16 7, .inl rfl⟩
    let alice : Owner :=
      ⟨"alice", "acme", false, Registry.empty.file ⟨"email", some (LookupHash.of "a@acme")⟩⟩
    let shadow : Shadow := ⟨⟨Block.zero⟩, "alice", "email", k.tokenText Block.zero "a@acme"⟩
    let v := settled k { ({} : Store).putOwner alice with shadows := Registry.empty.file shadow }
      .none
    (v.tampered shadow "$$$").Withholds ⟨"acme", "alice", "email"⟩ ∧
      (v.tampered shadow (k.tokenText Block.zero "A@acme")).Serves "alice" "email" "A@acme" := by
  intro k alice shadow v
  have hcalm : v.Calm (.ok k) := calm_settled k _ _
  have ho : v.store.owner? "alice" = some alice := Store.owner?_putOwner_self {} alice
  have hstored : alice.value "email" = some (LookupHash.of "a@acme") :=
    Owner.value_write_self ⟨"alice", "acme", false, .empty⟩ "email" (some (LookupHash.of "a@acme"))
  have hshadow : v.store.shadow? "alice" "email" = some shadow :=
    Registry.find?_file_self .empty shadow
  have hall := tampering_withheld hcalm ho hstored (LookupHash.isShaped_of "a@acme") hshadow
  refine ⟨((hall "$$$").2.2.2.1 ?_).1, (hall _).2.2.1 "A@acme" ⟨?_, ?_⟩⟩
  · rintro ⟨text, hdecrypt, -⟩
    cases hdecrypt
  · rw [FieldCipher.answer_decrypt hcalm.answers, reveal_tokenText]
  · have hnormal : LookupHash.normalize "A@acme" = LookupHash.normalize "a@acme" := by decide
    rw [hnormal]
    rfl

end Work

end FieldVault

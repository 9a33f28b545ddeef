/-
A settled key is there for good, and sound.

Until an attempt succeeds, each request for the key makes an attempt of its own and fails as that
attempt does; from the first success on, the key stays and the source is out of the game. The rest
follows for everything that is done with a vault. A key has one of the sizes that the cipher takes,
so a request for a settled key cannot fail, and whatever asks for a key in the course of its work
has no failure of that kind to pass on. Work is put together from a few parts, and the ways to put
it together keep this; reading, searching and editing are gone through part by part, and of
migrating it is known already.
-/
import FieldVault.Proofs.Key.Resolution
import FieldVault.Proofs.Randomness
import FieldVault.Proofs.Steady

set_option autoImplicit false

namespace FieldVault

open Vault

variable {α β : Type} {k : Key}

/-! ## Ciphers with a settled key -/

namespace FieldCipher

/-- With a settled key, the action keeps the key and does not fail for want of one. -/
def Unlocked (action : Action α) : Prop :=
  ∀ c k, c.keys.key = some k →
    (after action c).keys.key = some k ∧ ∀ e, answer action c ≠ .error (.key e)

/-- A request for a settled key leaves the provider as it is. -/
theorem keys_after_key_of_settled {c : FieldCipher} (h : c.keys.key = some k) :
    (after key c).keys = c.keys := by
  rw [keys_after_key, KeyProvider.get_of_key h]

theorem key_unlocked : Unlocked key := by
  intro c k hk
  refine ⟨?_, fun e he => ?_⟩
  · rwa [keys_after_key_of_settled hk]
  · rw [answer_key (KeyProvider.answers_of_key hk)] at he
    cases he

theorem encrypt_unlocked (value : String) : Unlocked (encrypt value) := by
  intro c k hk
  have hanswers := KeyProvider.answers_of_key hk
  by_cases hm : Token.isMarked value = true
  · obtain ⟨hanswer, hafter⟩ := answer_encrypt_of_marked (c := c) hm
    rw [hanswer, hafter]
    exact ⟨hk, fun e he => by cases he⟩
  · have hanswer := answer_key hanswers
    refine ⟨?_, fun e he => ?_⟩
    · rw [encrypt, if_neg hm, after_bind_of_ok hanswer, ← hk, ← keys_after_key_of_settled hk]
      rfl
    · rw [answer_encrypt hanswers (Bool.eq_false_of_not_eq_true hm)] at he
      cases he

theorem decrypt_unlocked (value : String) : Unlocked (decrypt value) := by
  intro c k hk
  refine ⟨?_, fun e => ?_⟩
  · rcases after_decrypt value c with hc | hc
    · rwa [hc]
    · rwa [hc, keys_after_key_of_settled hk]
  · rw [answer_decrypt (KeyProvider.answers_of_key hk)]
    exact reveal_ne_key k value e

theorem decryptVerified_unlocked (field : FieldRef) (stored : Option String)
    (ciphertext : String) : Unlocked (decryptVerified field stored ciphertext) := by
  intro c k hk
  refine ⟨?_, fun e he => ?_⟩
  · rw [after_decryptVerified]
    exact (decrypt_unlocked ciphertext c k hk).1
  · rw [answer_decryptVerified (KeyProvider.answers_of_key hk)] at he
    rcases verified_error he with hvalue | ⟨e', -, hreveal⟩
    · cases hvalue
    · exact reveal_ne_key k ciphertext e' hreveal

/-- Trying without failing keeps the key, too. -/
theorem key_orElseUntouched {action : String → Action String} (operation : ValueOperation)
    (value : String) (h : Unlocked (action value)) {c : FieldCipher} (hk : c.keys.key = some k) :
    (orElseUntouched operation action value c).2.keys.key = some k := by
  rw [(orElseUntouched_eq operation action value c).2.1]
  exact (h c k hk).1

end FieldCipher

/-! ## Vaults with a settled key -/

namespace Work

/-- With a settled key, the work keeps the key and does not fail for want of one. -/
def Unlocked (work : Work α) : Prop :=
  ∀ v k, v.key? = some k →
    (after work v).key? = some k ∧ ∀ e, answer work v ≠ .error (.key e)

/-- Steady work leaves no key settled if it fails for want of one. -/
theorem Steady.unlocked {work : Work α} (h : Steady work) : Unlocked work := by
  intro v k hk
  refine ⟨h.keeps v k hk, fun e he => ?_⟩
  have hnone := h.unsettled v e he
  rw [h.keeps v k hk] at hnone
  cases hnone

namespace Unlocked

/-- Work that has nothing to do with the cipher and fails over other things, if it fails. -/
theorem of_plain {work : Work α} (hcipher : ∀ v, (after work v).cipher = v.cipher)
    (hkey : ∀ v e, answer work v ≠ .error (.key e)) : Unlocked work := by
  intro v k hk
  refine ⟨?_, hkey v⟩
  unfold key?
  rw [hcipher]
  exact hk

theorem pure (a : α) : Unlocked (Pure.pure a) := (Steady.pure a).unlocked

theorem throw {e : Error} (h : ∀ e', e ≠ .key e') : Unlocked (throwThe Error e : Work α) :=
  (Steady.throw h).unlocked

theorem onCipher {action : FieldCipher.Action α} (h : FieldCipher.Unlocked action) :
    Unlocked (onCipher action) := by
  intro v k hk
  rw [answer_onCipher, after_onCipher]
  exact h v.cipher k hk

theorem bind {work : Work α} {next : α → Work β} (h : Unlocked work)
    (hnext : ∀ a, Unlocked (next a)) : Unlocked (work >>= next) := by
  intro v k hk
  obtain ⟨hkept, hne⟩ := h v k hk
  rw [answer_bind, after_bind]
  cases ha : answer work v with
  | ok a => exact hnext a _ k hkept
  | error e =>
    refine ⟨hkept, fun e' he' => hne e' ?_⟩
    cases he'
    exact ha

theorem each {work : α → Work β} (h : ∀ a, Unlocked (work a)) (items : List α) :
    Unlocked (each work items) := by
  induction items with
  | nil => exact .pure []
  | cons a as ih => exact (h a).bind fun _ => ih.bind fun _ => .pure _

/-- A handler never sees a failure for want of a key. -/
theorem handle {work : Work α} {next : Except Error α → Work β} (h : Unlocked work)
    (hnext : ∀ x, (∀ e, x ≠ .error (.key e)) → Unlocked (next x)) :
    Unlocked (outcome work >>= next) := by
  intro v k hk
  obtain ⟨hkept, hne⟩ := h v k hk
  rw [answer_bind_of_ok (answer_outcome work v), after_bind_of_ok (answer_outcome work v),
    after_outcome]
  exact hnext _ hne _ k hkept

end Unlocked

/-! ## Reading -/

theorem viewOwner_unlocked (id : OwnerId) : Unlocked (viewOwner id) := by
  have hread : Steady (readOwner id) := (Steady.attempt _).bind fun _ =>
    Steady.ensureServing.bind fun _ => .of_look (fun s _ => s.view? id) fun _ => rfl
  refine hread.unlocked.bind fun found => ?_
  cases found with
  | some view => exact .pure view
  | none => exact .throw fun _ he => by cases he

theorem readStored_unlocked (stored : Option String) : Unlocked (readStored stored) := by
  cases stored with
  | none => exact .pure none
  | some value =>
    have hstrict : Unlocked isStrict := .of_plain (fun _ => rfl) fun _ _ he => by cases he
    refine hstrict.bind fun strict => ?_
    cases strict with
    | true =>
      exact (Unlocked.onCipher (FieldCipher.decrypt_unlocked value)).bind fun _ => .pure _
    | false =>
      have hopen : Unlocked (withCipher (FieldCipher.decryptOpen value)) := fun v k hk =>
        ⟨FieldCipher.key_orElseUntouched .decrypt value (FieldCipher.decrypt_unlocked value) hk,
          fun _ he => by cases he⟩
      exact hopen.bind fun _ => .pure _

theorem verifyShadow_unlocked (owner : Owner) (shadow : Shadow) :
    Unlocked (verifyShadow owner shadow) :=
  (Unlocked.onCipher (FieldCipher.decryptVerified_unlocked _ _ _)).bind fun _ => .pure _

theorem loadField_unlocked (id : OwnerId) (field : FieldName) : Unlocked (loadField id field) := by
  refine (viewOwner_unlocked id).bind fun view => ?_
  cases hlive : (view.shadow? field).filter fun _ => !isStale (view.owner.value field) with
  | none =>
    simp only [hlive]
    exact readStored_unlocked _
  | some shadow =>
    simp only [hlive]
    refine (verifyShadow_unlocked _ _).handle fun x hx => ?_
    cases x with
    | ok found => exact .pure _
    | error e =>
      cases e with
      | key e => exact absurd rfl (hx e)
      | integrity failed =>
        exact (Steady.note _).unlocked.bind fun _ => .throw fun _ he => by cases he
      | _ => exact .throw fun _ he => by cases he

theorem serveShadow_unlocked (owner : Owner) (shadow : Shadow) :
    Unlocked (serveShadow owner shadow) := by
  refine (verifyShadow_unlocked _ _).handle fun x hx => ?_
  cases x with
  | ok found => exact .pure _
  | error e =>
    cases e with
    | key e => exact absurd rfl (hx e)
    | integrity failed => exact (Steady.note _).unlocked.bind fun _ => .pure _
    | _ => exact .throw fun _ he => by cases he

theorem serveToken_unlocked (owner : OwnerId) (field : Field) :
    Unlocked (serveToken owner field) := by
  refine (readStored_unlocked _).handle fun x hx => ?_
  cases x with
  | ok value => exact .pure _
  | error e =>
    cases e with
    | key e => exact absurd rfl (hx e)
    | _ => exact (Steady.note _).unlocked.bind fun _ => .pure _

theorem collect_unlocked {name : α → FieldName} {serve : α → Work Served}
    (hserve : ∀ a, Unlocked (serve a)) (items : List α) : Unlocked (collect name serve items) :=
  Unlocked.each (fun a => (hserve a).bind fun _ => .pure _) items

theorem loadOwnerPlain_unlocked (id : OwnerId) : Unlocked (loadOwnerPlain id) := by
  rw [loadOwnerPlain_eq]
  refine (viewOwner_unlocked id).bind fun view => ?_
  exact (collect_unlocked (serveShadow_unlocked _) _).bind fun _ =>
    (collect_unlocked (serveToken_unlocked _) _).bind fun _ => .pure _

/-! ## Searching and switching -/

theorem search_unlocked (tenant : TenantId) (field : FieldName) (value : String) :
    Unlocked (search tenant field value) := by
  have hholders : ∀ value, Unlocked (holders tenant field value) := fun value =>
    ((Steady.attempt _).bind fun _ => Steady.ensureServing.bind fun _ =>
      .of_look (fun s _ => s.holders tenant field value) fun _ => rfl).unlocked
  refine (hholders value).bind fun found => ?_
  cases found with
  | cons id ids => exact .pure _
  | nil =>
    have hscope : Unlocked (inScope tenant field) :=
      .of_plain (fun _ => rfl) fun _ _ he => by cases he
    refine hscope.bind fun scope => ?_
    cases scope with
    | false => exact .pure _
    | true => exact hholders _

theorem handleEvent_unlocked (event : Event) : Unlocked (handleEvent event) := by
  refine (isEnabled_steady _).unlocked.bind fun enabled => ?_
  cases enabled with
  | false => exact .pure _
  | true =>
    have howner : Unlocked (ownerOfEvent event) := by
      cases event with
      | adminCreated tenant username =>
        exact (search_unlocked tenant _ username).bind fun _ => .pure _
      | _ => exact .pure _
    refine howner.bind fun found => ?_
    cases found with
    | some owner => exact (encryptOwner_steady owner).unlocked
    | none => exact (Steady.note _).unlocked.bind fun _ => .pure _

theorem setEnabled_unlocked (tenant : TenantId) (enabled : Bool) :
    Unlocked (setEnabled tenant enabled) :=
  (Steady.attempt _).unlocked.bind fun _ =>
    .of_plain (fun _ => rfl) fun _ _ he => by cases he

theorem setTenantEncryption_unlocked (tenant : TenantId) (enabled : Bool) :
    Unlocked (setTenantEncryption tenant enabled) := by
  unfold setTenantEncryption
  cases enabled with
  | true =>
    exact Steady.key.unlocked.bind fun _ => (setEnabled_unlocked tenant true).bind fun _ =>
      (encryptAll_steady tenant).unlocked
  | false =>
    exact (setEnabled_unlocked tenant false).bind fun _ => (decryptAll_steady tenant).unlocked

end Work

/-- Whatever is done with a vault, a settled key stays and no operation fails for want of one. -/
theorem Operation.unlocked (operation : Operation) : Work.Unlocked operation.run := by
  cases operation with
  | insertOwner owner =>
    exact (Work.Steady.ensureServing.bind fun _ => .changeStore _).unlocked.bind fun _ => .pure _
  | writeField id field value =>
    exact (Work.Steady.change _ _).transaction.unlocked.bind fun _ => .pure _
  | setEnabled tenant enabled =>
    exact (Work.setEnabled_unlocked tenant enabled).bind fun _ => .pure _
  | setOptIn tenant field chosen =>
    have hset : Work.Unlocked (Work.setOptIn tenant field chosen) :=
      .of_plain (fun _ => rfl) fun _ _ he => by cases he
    exact hset.bind fun _ => .pure _
  | encryptOwner id => exact (Work.encryptOwner_steady id).unlocked.bind fun _ => .pure _
  | handleEvent event => exact (Work.handleEvent_unlocked event).bind fun _ => .pure _
  | setTenantEncryption tenant enabled =>
    exact (Work.setTenantEncryption_unlocked tenant enabled).bind fun _ => .pure _
  | encryptAll tenant => exact (Work.encryptAll_steady tenant).unlocked.bind fun _ => .pure _
  | decryptAll tenant => exact (Work.decryptAll_steady tenant).unlocked.bind fun _ => .pure _
  | loadField id field => exact (Work.loadField_unlocked id field).bind fun _ => .pure _
  | loadOwner id => exact (Work.loadOwnerPlain_unlocked id).bind fun _ => .pure _
  | search tenant field value =>
    exact (Work.search_unlocked tenant field value).bind fun _ => .pure _

/-! ## The whole life of a key -/

/-- **A key is resolved once, and is sound from then on.** As long as the attempts fail, the
provider is unresolved and the next request gets what an attempt of its own comes to; the provider
is resolved as soon as one of them did not fail. From the first that succeeds on, its key is what
every request gets, with no more attempts counted and no question asked, whatever the source would
say. What an attempt comes to is told by the rules of `EndsIn`; where the secret decides, the seed
is not asked for. A derived secret is the thirty-two digits of an MD5. A key has one of three sizes,
and where one is settled, no action of a cipher and no operation on a vault loses it or fails over
the key. -/
theorem KeyProvider.resolution_settles (source : KeySource) :
    (∀ n, (((unasked source).afterRequests n).isResolved = true ↔ ¬FailsFirst source n) ∧
      (FailsFirst source n → ((unasked source).afterRequests n).attempts = n ∧
        ((unasked source).afterRequests n).get.1 = (source n).resolve)) ∧
    (∀ n k, FailsFirst source n → (source n).resolve.outcome = .ok k → ∀ m,
      ((unasked source).afterRequests (n + 1 + m)).attempts = n + 1 ∧
      ∀ other, let p := { (unasked source).afterRequests (n + 1 + m) with source := other }
        p.isResolved = true ∧ p.get.1.outcome = .ok k ∧ p.get.1.asked = [] ∧ p.get.2 = p) ∧
    (∀ (answer : KeyAnswer) (r : Except KeyError Key),
      answer.resolve.outcome = r ↔ answer.EndsIn r) ∧
    (∀ answer : KeyAnswer,
      (answer.SecretDecides → answer.resolve.asked = [.secret]) ∧
      (¬answer.SecretDecides → answer.resolve.asked = [.secret, .seed])) ∧
    (∀ seed, (Key.secretOfSeed seed).toList.length = 32 ∧
      (∀ c ∈ (Key.secretOfSeed seed).toList, c ∈ Hex.lowerDigits) ∧
      Hex.bytes? (Key.secretOfSeed seed).toList = some (Digest.md5 (Utf8.encode seed))) ∧
    (∀ n k, ((unasked source).afterRequests n).key = some k →
      k.bytes.length = 16 ∨ k.bytes.length = 24 ∨ k.bytes.length = 32) ∧
    (FieldCipher.Unlocked FieldCipher.key ∧
      (∀ value, FieldCipher.Unlocked (FieldCipher.encrypt value)) ∧
      (∀ value, FieldCipher.Unlocked (FieldCipher.decrypt value)) ∧
      (∀ field stored ciphertext,
        FieldCipher.Unlocked (FieldCipher.decryptVerified field stored ciphertext)) ∧
      ∀ operation : Operation, Work.Unlocked operation.run) := by
  refine ⟨fun n => ⟨isResolved_afterRequests source n, fun hfails => ?_⟩,
    fun n k hfails hok m => ?_, fun answer r => KeyAnswer.endsIn_iff.symm,
    KeyAnswer.asked_resolve, Key.secretOfSeed_digits, fun n k _ => k.sized,
    FieldCipher.key_unlocked, FieldCipher.encrypt_unlocked, FieldCipher.decrypt_unlocked,
    FieldCipher.decryptVerified_unlocked, Operation.unlocked⟩
  · rw [afterRequests_of_failsFirst hfails, get_unresolved]
    exact ⟨rfl, rfl⟩
  · rw [afterRequests_of_settled hfails hok]
    exact ⟨rfl, fun other => ⟨rfl, rfl, rfl, rfl⟩⟩

/-- A secret of five bytes is refused, and nobody asks for a seed; the next request finds sixteen,
and these are the key, even if the secret is changed again. -/
theorem KeyProvider.resolution_settles_short :
    let k : Key := ⟨List.replicate 16 0x61, .inl rfl⟩
    let source := KeySource.script [⟨.ok (some "short"), .ok none⟩,
      ⟨.ok (some "aaaaaaaaaaaaaaaa"), .ok none⟩, ⟨.error .missing, .ok none⟩]
    ((unasked source).afterRequests 0).get.1.outcome = .error (.invalidLength 5) ∧
      ((unasked source).afterRequests 0).get.1.asked = [.secret] ∧
      ((unasked source).afterRequests 4).isResolved = true ∧
      ((unasked source).afterRequests 4).get.1.outcome = .ok k ∧
      ((unasked source).afterRequests 4).attempts = 2 := by
  intro k source
  obtain ⟨hfailing, hsettled, -, hasked, -⟩ := resolution_settles source
  have hrefused : (source 0).resolve.outcome = .error (.invalidLength 5) := by decide +kernel
  have hfirst : FailsFirst source 1 := fun i hi => by
    obtain rfl : i = 0 := by omega
    exact ⟨_, hrefused⟩
  have hfound : (source 1).resolve.outcome = .ok k := by decide +kernel
  have hnone : FailsFirst source 0 := fun i hi => absurd hi (Nat.not_lt_zero i)
  obtain ⟨-, hget⟩ := (hfailing 0).2 hnone
  obtain ⟨hattempts, hstays⟩ := hsettled 1 k hfirst hfound 2
  obtain ⟨hresolved, hkey, -⟩ := hstays source
  have hdecides : (source 0).SecretDecides := by
    rintro _ ⟨⟩ habsent
    exact absurd (habsent _ rfl) (mt (Text.isBlank_iff _).2 (by decide))
  exact ⟨hget ▸ hrefused, hget ▸ (hasked _).1 hdecides, hresolved, hkey, hattempts⟩

end FieldVault

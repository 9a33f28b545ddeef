/-
What a cipher answers, as a function of the value and of what its provider answers.

A cipher has a state, but as long as its provider answers alike there is nothing in it that a
decryption depends on: `reveal` is what every decryption answers, now and later. An encryption
depends on the state only by the vector that is drawn next.
-/
import FieldVault.FieldCipher
import FieldVault.Proofs.Key
import FieldVault.Proofs.Key.Provider
import FieldVault.Proofs.Run

set_option autoImplicit false

namespace FieldVault

/-! ## Values -/

/-- The text that a token holds. -/
def openToken (r : Except KeyError Key) (token : Token) : Except Error String :=
  match r with
  | .error e => .error (.key e)
  | .ok k => (k.unsealText token).mapError fun fault => .decryptionFailed fault.message

/-- The text of a value: the value itself, or what its token holds. The value is read as a token
before the key is asked for. -/
def reveal (r : Except KeyError Key) (value : String) : Except Error String :=
  if Token.isMarked value then
    match Token.parse value with
    | .error fault => .error (.malformedToken fault.message)
    | .ok token => openToken r token
  else .ok value

theorem reveal_of_not_marked (r : Except KeyError Key) {value : String}
    (h : Token.isMarked value = false) : reveal r value = .ok value := by
  rw [reveal, h]
  rfl

/-- A token reveals the text that was sealed in it. -/
theorem reveal_tokenText (k : Key) (iv : Block) (text : String) :
    reveal (.ok k) (k.tokenText iv text) = .ok text := by
  rw [reveal, if_pos (Key.isMarked_tokenText k iv text), Key.parse_tokenText]
  simp only [openToken, Key.unsealText_sealText, Except.mapError]

/-- A marked value that reveals a text is the token that the text is sealed in. -/
theorem eq_tokenText_of_reveal {k : Key} {value text : String} (hm : Token.isMarked value = true)
    (h : reveal (.ok k) value = .ok text) :
    ∃ token, Token.parse value = .ok token ∧ value = k.tokenText token.iv text := by
  rw [reveal, if_pos hm] at h
  cases hp : Token.parse value with
  | error fault => simp [hp] at h
  | ok token =>
    obtain ⟨hvalue, haligned⟩ := Token.eq_text_of_parse hp
    refine ⟨token, rfl, ?_⟩
    simp only [hp, openToken] at h
    cases hu : k.unsealText token with
    | error fault => simp [hu, Except.mapError] at h
    | ok s =>
      simp only [hu, Except.mapError, Except.ok.injEq] at h
      rw [← Key.text_sealText, ← h, ← Key.eq_sealText_of_unsealText haligned hu, hvalue]

/-- An answer with the failures made a gap, except the want of a key. -/
def withhold {α : Type} : Except Error α → Except Error (Option α)
  | .ok a => .ok (some a)
  | .error (.key e) => .error (.key e)
  | .error _ => .ok none

theorem withhold_of_not_key {α : Type} {x : Except Error α} (h : ∀ e, x ≠ .error (.key e)) :
    withhold x = .ok x.toOption := by
  cases x with
  | ok a => rfl
  | error e =>
    cases e with
    | key e => exact absurd rfl (h e)
    | _ => rfl

/-- The text of a ciphertext, handed out only if the stored hash belongs to it. -/
def verified (r : Except KeyError Key) (field : FieldRef) (stored : Option String)
    (ciphertext : String) : Except Error String :=
  match reveal r ciphertext with
  | .ok text => if LookupHash.isOf stored text then .ok text else .error (.integrity field)
  | .error (.key e) => .error (.key e)
  | .error _ => .error (.integrity field)

/-- A verification fails for want of a key or as a failed verification of the field. -/
theorem verified_error {r : Except KeyError Key} {field : FieldRef} {stored : Option String}
    {ciphertext : String} {e : Error} (h : verified r field stored ciphertext = .error e) :
    e = .integrity field ∨ ∃ e', e = .key e' ∧ reveal r ciphertext = .error (.key e') := by
  rw [verified] at h
  split at h
  · split at h
    · cases h
    · cases h
      exact .inl rfl
  · case h_2 e' he =>
    cases h
    exact .inr ⟨e', rfl, he⟩
  · cases h
    exact .inl rfl

/-- The failure is one of a single value: it did not verify or could not be decrypted. -/
def Error.isOfValue : Error → Bool
  | .integrity _ => true
  | .malformedToken _ => true
  | .decryptionFailed _ => true
  | _ => false

/-- A value fails to reveal its text by itself or for want of a key. -/
theorem reveal_error {r : Except KeyError Key} {value : String} {e : Error}
    (h : reveal r value = .error e) :
    e.isOfValue = true ∨ ∃ e', e = .key e' ∧ r = .error e' := by
  rw [reveal] at h
  split at h
  · cases hp : Token.parse value with
    | error fault =>
      simp only [hp] at h
      cases h
      exact .inl rfl
    | ok token =>
      simp only [hp] at h
      cases r with
      | error e' =>
        cases h
        exact .inr ⟨e', rfl, rfl⟩
      | ok k =>
        simp only [openToken] at h
        cases hu : k.unsealText token with
        | ok text => simp [hu, Except.mapError] at h
        | error fault =>
          rw [hu] at h
          cases h
          exact .inl rfl
  · cases h

/-- With a key at hand, nothing fails for want of one. -/
theorem reveal_ne_key (k : Key) (value : String) (e : KeyError) :
    reveal (.ok k) value ≠ .error (.key e) := by
  intro h
  rcases reveal_error h with he | ⟨e', -, he'⟩
  · cases he
  · cases he'

namespace FieldCipher

variable {r : Except KeyError Key} {c : FieldCipher}

/-! ## The key -/

/-- Asking for the key answers what the provider gives, whatever that is. -/
theorem answer_key_eq (c : FieldCipher) :
    answer key c = c.keys.get.1.outcome.mapError Error.key := by
  simp only [answer, key, resolve]
  cases c.keys.get.1.outcome <;> rfl

theorem keys_after_key (c : FieldCipher) : (after key c).keys = c.keys.get.2 := by
  simp only [after, key, resolve]
  cases c.keys.get.1.outcome <;> cases c.keys.get.1.derived <;> rfl

theorem answer_key (h : c.keys.Answers r) : answer key c = r.mapError Error.key := by
  rw [answer_key_eq, h.outcome_get]

theorem answers_after_key (h : c.keys.Answers r) : (after key c).keys.Answers r := by
  rw [keys_after_key]
  exact h.get

theorem ivs_after_key (c : FieldCipher) : (after key c).ivs = c.ivs := by
  simp only [after, key, resolve]
  cases c.keys.get.1.outcome <;> cases c.keys.get.1.derived <;> rfl

/-- A cipher whose key is settled, at the start of its supply. -/
def settled (k : Key) (ivs : Nat → Block) : FieldCipher :=
  ⟨⟨KeySource.fixed none none, 0, some k⟩, ⟨ivs, 0⟩, []⟩

theorem answers_settled (k : Key) (ivs : Nat → Block) : (settled k ivs).keys.Answers (.ok k) :=
  KeyProvider.answers_of_key rfl

/-! ## Decrypting -/

/-- What a decryption does after the value was read as a token. -/
def openWithKey (token : Token) : Action String := do
  let k ← key
  match k.unsealText token with
  | .error fault => throw (.decryptionFailed fault.message)
  | .ok text => return text

theorem decrypt_eq (value : String) :
    decrypt value =
      if Token.isMarked value then
        match Token.parse value with
        | .error fault => throw (.malformedToken fault.message)
        | .ok token => openWithKey token
      else pure value := rfl

theorem answer_openWithKey (token : Token) (c : FieldCipher) :
    answer (openWithKey token) c = openToken c.keys.get.1.outcome token := by
  have hk := answer_key_eq c
  cases ho : c.keys.get.1.outcome with
  | error e =>
    rw [ho] at hk
    exact answer_bind_of_error hk _
  | ok k =>
    rw [ho] at hk
    refine (answer_bind_of_ok hk _).trans ?_
    rw [openToken]
    cases k.unsealText token <;> rfl

theorem after_openWithKey (token : Token) (c : FieldCipher) :
    after (openWithKey token) c = after key c := by
  rw [openWithKey, after_bind]
  cases answer key c with
  | error e => rfl
  | ok k => cases hu : k.unsealText token <;> simp only [hu] <;> rfl

/-- A decryption depends on the provider by what it gives next only. -/
theorem answer_decrypt_eq (value : String) (c : FieldCipher) :
    answer (decrypt value) c = reveal c.keys.get.1.outcome value := by
  rw [decrypt_eq, reveal]
  split
  · cases Token.parse value with
    | error fault => rfl
    | ok token => exact answer_openWithKey token c
  · rfl

theorem answer_decrypt (h : c.keys.Answers r) (value : String) :
    answer (decrypt value) c = reveal r value := by
  rw [answer_decrypt_eq, h.outcome_get]

/-- Decrypting changes no more than asking for the key does. -/
theorem after_decrypt (value : String) (c : FieldCipher) :
    after (decrypt value) c = c ∨ after (decrypt value) c = after key c := by
  rw [decrypt_eq]
  split
  · cases Token.parse value with
    | error fault => exact .inl rfl
    | ok token => exact .inr (after_openWithKey token c)
  · exact .inl rfl

theorem answers_after_decrypt (h : c.keys.Answers r) (value : String) :
    (after (decrypt value) c).keys.Answers r := by
  rcases after_decrypt value c with hc | hc
  · rwa [hc]
  · rw [hc]
    exact answers_after_key h

theorem ivs_after_decrypt (value : String) (c : FieldCipher) :
    (after (decrypt value) c).ivs = c.ivs := by
  rcases after_decrypt value c with hc | hc
  · rw [hc]
  · rw [hc, ivs_after_key]

/-- Trying without failing gives the value itself where the action fails, and leaves the keys and
the vectors as the action does. -/
theorem orElseUntouched_eq (operation : ValueOperation) (action : String → Action String)
    (value : String) (c : FieldCipher) :
    (orElseUntouched operation action value c).1 =
        (answer (action value) c).toOption.getD value ∧
      (orElseUntouched operation action value c).2.keys = (after (action value) c).keys ∧
      (orElseUntouched operation action value c).2.ivs = (after (action value) c).ivs := by
  unfold orElseUntouched answer after
  cases action value c <;> exact ⟨rfl, rfl, rfl⟩

/-- Decrypting without failing gives the value itself where there is no text. -/
theorem decryptOpen_eq (h : c.keys.Answers r) (value : String) :
    (decryptOpen value c).1 = (reveal r value).toOption.getD value ∧
      (decryptOpen value c).2.keys.Answers r ∧ (decryptOpen value c).2.ivs = c.ivs := by
  obtain ⟨hvalue, hkeys, hivs⟩ := orElseUntouched_eq .decrypt decrypt value c
  rw [answer_decrypt h] at hvalue
  rw [ivs_after_decrypt] at hivs
  refine ⟨hvalue, ?_, hivs⟩
  rw [decryptOpen, hkeys]
  exact answers_after_decrypt h value

theorem answer_decryptVerified (h : c.keys.Answers r) (field : FieldRef) (stored : Option String)
    (ciphertext : String) :
    answer (decryptVerified field stored ciphertext) c = verified r field stored ciphertext := by
  have ho : answer (outcome (decrypt ciphertext)) c = .ok (reveal r ciphertext) := by
    rw [answer_outcome, answer_decrypt h]
  refine (answer_bind_of_ok ho _).trans ?_
  rw [verified]
  cases reveal r ciphertext with
  | ok text => cases hm : LookupHash.isOf stored text <;> simp only [hm] <;> rfl
  | error e => cases e <;> rfl

theorem after_decryptVerified (field : FieldRef) (stored : Option String) (ciphertext : String)
    (c : FieldCipher) :
    after (decryptVerified field stored ciphertext) c = after (decrypt ciphertext) c := by
  have ho : answer (outcome (decrypt ciphertext)) c = .ok (answer (decrypt ciphertext) c) :=
    answer_outcome _ c
  refine (after_bind_of_ok ho _).trans ?_
  rw [after_outcome]
  cases answer (decrypt ciphertext) c with
  | ok text => cases hm : LookupHash.isOf stored text <;> simp only [hm] <;> rfl
  | error e => cases e <;> rfl

/-- Verifying tells whether the text would be handed out. -/
theorem verify_eq (h : c.keys.Answers r) (field : FieldRef) (stored : Option String)
    (ciphertext : String) :
    (verify stored ciphertext c).1 = (verified r field stored ciphertext).toOption.isSome := by
  have ha := answer_decrypt h ciphertext
  rw [answer] at ha
  rw [verify, verified, ← ha]
  cases decrypt ciphertext c with
  | ok text c' => cases hm : LookupHash.isOf stored text <;> simp only [hm] <;> rfl
  | error e c' => cases e <;> rfl

/-! ## Encrypting -/

theorem answer_encrypt_of_marked {value : String} (hm : Token.isMarked value = true) :
    answer (encrypt value) c = .ok value ∧ after (encrypt value) c = c := by
  rw [encrypt, if_pos hm]
  exact ⟨rfl, rfl⟩

/-- A value that is not marked becomes a token under the next vector. -/
theorem answer_encrypt {k : Key} (h : c.keys.Answers (.ok k)) {value : String}
    (hm : Token.isMarked value = false) :
    answer (encrypt value) c = .ok (k.tokenText c.ivs.next.1 value) := by
  rw [encrypt, if_neg (by rw [hm]; decide)]
  refine (answer_bind_of_ok (answer_key h) _).trans ?_
  rw [← ivs_after_key c]
  rfl

theorem answers_after_encrypt (h : c.keys.Answers r) (value : String) :
    (after (encrypt value) c).keys.Answers r := by
  rw [encrypt]
  split
  · exact h
  · have hk := answer_key h
    cases r with
    | error e =>
      rw [after_bind_of_error hk]
      exact answers_after_key h
    | ok k =>
      rw [after_bind_of_ok hk]
      exact answers_after_key h

end FieldCipher

end FieldVault

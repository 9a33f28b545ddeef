/-
Tokens outlive every change of the source.

A cipher makes a token only once its key is settled, and a settled key stays through all that is
done with the cipher. So a token is read back whenever, no matter what the source answers
meanwhile; and a value that could not be encrypted was passed on as it is, which is how it is read
back, with or without a key. That a result bears the mark tells whether a key was there. Clones of a
cipher share its provider, and all draws of a supply are arbitrary, so calls to several clones are
calls to one cipher.
-/
import FieldVault.Proofs.Unlocked

set_option autoImplicit false

namespace FieldVault

/-- A call to a cipher. -/
inductive CipherCall where
  | key
  | encrypt (value : String)
  | decrypt (value : String)
  | encryptOpen (value : String)
  | decryptOpen (value : String)

namespace FieldCipher

variable {c : FieldCipher} {k : Key} {text : String}

/-! ## Many calls -/

/-- The cipher after a call, however it ended. -/
def afterCall (c : FieldCipher) : CipherCall → FieldCipher
  | .key => after key c
  | .encrypt value => after (encrypt value) c
  | .decrypt value => after (decrypt value) c
  | .encryptOpen value => (encryptOpen value c).2
  | .decryptOpen value => (decryptOpen value c).2

/-- The cipher after calls, one by one. -/
def afterCalls (c : FieldCipher) (calls : List CipherCall) : FieldCipher := calls.foldl afterCall c

theorem key_afterCall (hk : c.keys.key = some k) (call : CipherCall) :
    (c.afterCall call).keys.key = some k := by
  cases call with
  | key => exact (key_unlocked c k hk).1
  | encrypt value => exact (encrypt_unlocked value c k hk).1
  | decrypt value => exact (decrypt_unlocked value c k hk).1
  | encryptOpen value => exact key_orElseUntouched .encrypt value (encrypt_unlocked value) hk
  | decryptOpen value => exact key_orElseUntouched .decrypt value (decrypt_unlocked value) hk

/-- A settled key stays through all calls. -/
theorem key_afterCalls (hk : c.keys.key = some k) (calls : List CipherCall) :
    (c.afterCalls calls).keys.key = some k := by
  induction calls generalizing c with
  | nil => exact hk
  | cons call calls ih => exact ih (key_afterCall hk call)

/-! ## One encryption -/

/-- Encrypting a value that is not marked either gives a token under the key that is then settled,
or fails and leaves no key settled. -/
theorem encrypt_cases (h : Token.isMarked text = false) (c : FieldCipher) :
    (∃ k iv, answer (encrypt text) c = .ok (k.tokenText iv text) ∧
      (after (encrypt text) c).keys.key = some k) ∨
    (∃ e, answer (encrypt text) c = .error e ∧ (after (encrypt text) c).keys.key = none) := by
  have hanswer := answer_key_eq c
  have hkey : (after key c).keys.key = c.keys.get.1.outcome.toOption := by
    rw [keys_after_key, KeyProvider.key_get]
  rw [encrypt, if_neg (by rw [h]; decide)]
  -- The answer to the one request for the key decides the result and the key that is left.
  cases ho : c.keys.get.1.outcome with
  | ok k =>
    rw [ho] at hanswer hkey
    refine .inl ⟨k, (after key c).ivs.next.1, ?_, ?_⟩
    · rw [answer_bind_of_ok hanswer]
      rfl
    · rw [after_bind_of_ok hanswer]
      exact hkey
  | error e =>
    rw [ho] at hanswer hkey
    refine .inr ⟨.key e, ?_, ?_⟩
    · rw [answer_bind_of_error hanswer]
    · rw [after_bind_of_error hanswer]
      exact hkey

/-- Encrypting without failing gives a token under the key that is then settled, or the value itself
where none is. -/
theorem encryptOpen_cases (h : Token.isMarked text = false) (c : FieldCipher) :
    (∃ k iv, (encryptOpen text c).1 = k.tokenText iv text ∧
      (encryptOpen text c).2.keys.key = some k) ∨
    ((encryptOpen text c).1 = text ∧ (encryptOpen text c).2.keys.key = none) := by
  obtain ⟨hvalue, hkeys, -⟩ := orElseUntouched_eq .encrypt encrypt text c
  unfold encryptOpen
  rw [hvalue, hkeys]
  rcases encrypt_cases h c with ⟨k, iv, ha, hk⟩ | ⟨e, ha, hk⟩
  · exact .inl ⟨k, iv, by rw [ha]; rfl, hk⟩
  · exact .inr ⟨by rw [ha]; rfl, hk⟩

/-- The result bears the mark just if the value did or a key is settled then. -/
theorem isMarked_encryptOpen_iff (value : String) (c : FieldCipher) :
    Token.isMarked (encryptOpen value c).1 = true ↔
      Token.isMarked value = true ∨ (encryptOpen value c).2.keys.isResolved = true := by
  by_cases hm : Token.isMarked value = true
  · have hsame : (encryptOpen value c).1 = value := by
      rw [encryptOpen, (orElseUntouched_eq _ _ _ c).1, (answer_encrypt_of_marked hm).1]
      rfl
    rw [hsame]
    exact ⟨.inl, fun _ => hm⟩
  · rw [Bool.not_eq_true] at hm
    rw [hm, KeyProvider.isResolved]
    rcases encryptOpen_cases hm c with ⟨k, iv, ha, hk⟩ | ⟨ha, hk⟩
    · rw [ha, hk, Key.isMarked_tokenText]
      simp only [Option.isSome_some, or_true]
    · rw [ha, hk, hm]
      simp only [Option.isSome_none, or_self]

/-! ## Reading back -/

/-- To the cipher the token stands for the text: it is read as the text, and it is not encrypted
again. -/
structure StandsFor (c : FieldCipher) (token text : String) : Prop where
  decrypt : answer (FieldCipher.decrypt token) c = .ok text
  decryptOpen : (FieldCipher.decryptOpen token c).1 = text
  encrypt : answer (FieldCipher.encrypt token) c = .ok token
  encryptOpen : (FieldCipher.encryptOpen token c).1 = token

/-- A token stands for the text that is sealed in it as long as the key is settled. -/
theorem standsFor_tokenText (hk : c.keys.key = some k) (iv : Block) (text : String) :
    c.StandsFor (k.tokenText iv text) text := by
  have hanswers := KeyProvider.answers_of_key hk
  have hopens := reveal_tokenText k iv text
  have hstays := (answer_encrypt_of_marked (c := c) (Key.isMarked_tokenText k iv text)).1
  refine ⟨?_, ?_, hstays, ?_⟩
  · rw [answer_decrypt hanswers, hopens]
  · rw [(decryptOpen_eq hanswers _).1, hopens]
    rfl
  · rw [FieldCipher.encryptOpen, (orElseUntouched_eq _ _ _ c).1, hstays]
    rfl

/-- A value that is not marked is read as it is, key or no key. -/
theorem decryptOpen_of_not_marked (h : Token.isMarked text = false) (c : FieldCipher) :
    (decryptOpen text c).1 = text := by
  rw [decryptOpen, (orElseUntouched_eq _ _ _ c).1, answer_decrypt_eq, reveal_of_not_marked _ h]
  rfl

/-- **Tokens outlive the source that their key came from.** Take a cipher in any state, whatever its
source answered before and is going to answer. A token that it makes of a text that is not marked
stands for this text after all later calls, however many and however they end, and so does one that
comes of encrypting without failing. What comes of that is always read back as the text, be it a
token or the text itself. It bears the mark just if the value did or the key is settled after the
call. -/
theorem tokens_outlive_source (c : FieldCipher) :
    (∀ text token, Token.isMarked text = false → answer (encrypt text) c = .ok token →
      ∀ calls, ((c.afterCall (.encrypt text)).afterCalls calls).StandsFor token text) ∧
    (∀ text, Token.isMarked text = false → Token.isMarked (encryptOpen text c).1 = true →
      ∀ calls, ((c.afterCall (.encryptOpen text)).afterCalls calls).StandsFor
        (encryptOpen text c).1 text) ∧
    (∀ text, Token.isMarked text = false → ∀ calls,
      (decryptOpen (encryptOpen text c).1
        ((c.afterCall (.encryptOpen text)).afterCalls calls)).1 = text) ∧
    (∀ value, Token.isMarked (encryptOpen value c).1 = true ↔
      Token.isMarked value = true ∨ (c.afterCall (.encryptOpen value)).keys.isResolved = true) := by
  refine ⟨fun text token h htoken calls => ?_, fun text h hm calls => ?_, fun text h calls => ?_,
    fun value => isMarked_encryptOpen_iff value c⟩
  · rcases encrypt_cases h c with ⟨k, iv, ha, hk⟩ | ⟨e, ha, -⟩
    -- A token was made, so a key was settled, and it stays through the later calls.
    · rw [ha] at htoken
      cases htoken
      exact standsFor_tokenText (key_afterCalls hk calls) iv text
    · rw [ha] at htoken
      cases htoken
  · rcases encryptOpen_cases h c with ⟨k, iv, ha, hk⟩ | ⟨ha, -⟩
    · rw [ha]
      exact standsFor_tokenText (key_afterCalls hk calls) iv text
    · rw [ha, h] at hm
      cases hm
  · rcases encryptOpen_cases h c with ⟨k, iv, ha, hk⟩ | ⟨ha, -⟩
    · rw [ha]
      exact (standsFor_tokenText (key_afterCalls hk calls) iv text).decryptOpen
    · rw [ha]
      exact decryptOpen_of_not_marked h _

/-- The source has a bad secret, then a good one, then another. What could not be encrypted is read
back with the key that came later; what was encrypted is, after the source was asked again. -/
theorem tokens_outlive_source_alice :
    let source := KeySource.script [⟨.ok (some "short"), .ok none⟩,
      ⟨.ok (some "aaaaaaaaaaaaaaaa"), .ok none⟩, ⟨.ok (some "bbbbbbbbbbbbbbbb"), .ok none⟩]
    let c : FieldCipher := ⟨⟨source, 0, none⟩, ⟨Block.ofNat, 0⟩, []⟩
    let recovering := c.afterCall .key
    let later : List CipherCall := [.key, .encryptOpen "bob", .decrypt "$$$"]
    Token.isMarked (encryptOpen "alice" c).1 = false ∧
      (decryptOpen (encryptOpen "alice" c).1
        ((c.afterCall (.encryptOpen "alice")).afterCalls later)).1 = "alice" ∧
      Token.isMarked (encryptOpen "alice" recovering).1 = true ∧
      ∃ token, answer (encrypt "alice") recovering = .ok token ∧
        ((recovering.afterCall (.encrypt "alice")).afterCalls later).StandsFor token "alice" := by
  intro source c recovering later
  have hunmarked : Token.isMarked "alice" = false := by decide
  obtain ⟨-, -, hback, hunsettled⟩ := tokens_outlive_source c
  obtain ⟨hstands, -, -, hsettled⟩ := tokens_outlive_source recovering
  have hrefused : (c.afterCall (.encryptOpen "alice")).keys.isResolved = false := by decide +kernel
  have hfound : (recovering.afterCall (.encryptOpen "alice")).keys.isResolved = true := by
    decide +kernel
  refine ⟨?_, hback "alice" hunmarked later, (hsettled "alice").2 (.inr hfound), ?_⟩
  · rw [← Bool.not_eq_true, hunsettled "alice", hunmarked, hrefused]
    decide
  · rcases encrypt_cases hunmarked recovering with ⟨k, iv, ha, -⟩ | ⟨e, -, hnone⟩
    · exact ⟨_, ha, hstands "alice" _ hunmarked ha later⟩
    · have hsome : (after (encrypt "alice") recovering).keys.key.isSome = true := by decide +kernel
      rw [hnone] at hsome
      cases hsome

end FieldCipher

end FieldVault

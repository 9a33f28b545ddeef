/-
The field cipher as a bijection between vectors with texts and the tokens it accepts.

Encrypting a text that is not marked gives the token of the text under the vector that is drawn, and
every token of a text decrypts to that text, whatever the text starts with. The converse is the part
that no round trip shows: a marked value that decrypts at all is the token of what it decrypts to.
Each layer on the way (base64, blocks, chaining, padding, UTF-8) refuses every form that it would
not write itself, so there is nothing else for the value to be. What follows for collisions is then
only a matter of comparing vectors.
-/
import FieldVault.Proofs.FieldCipher

set_option autoImplicit false

namespace FieldVault.FieldCipher

variable {k : Key} {c : FieldCipher}

/-- Encrypting a text that is not marked uses up one vector. -/
theorem ivs_after_encrypt (h : c.keys.Answers (.ok k)) {value : String}
    (hm : Token.isMarked value = false) : (after (encrypt value) c).ivs = c.ivs.next.2 := by
  rw [encrypt, if_neg (by rw [hm]; decide), after_bind_of_ok (answer_key h), ← ivs_after_key c]
  rfl

/-- A token that decrypts is the token of its text, under the vector that it starts with. -/
theorem eq_tokenText_of_decrypt (h : c.keys.Answers (.ok k)) {value text : String}
    (hm : Token.isMarked value = true) (hd : answer (decrypt value) c = .ok text) :
    ∃ iv bytes, Base64.decode (Token.payload value) = .ok bytes ∧
      bytes.take Block.size = iv.toList ∧ value = k.tokenText iv text := by
  rw [answer_decrypt h] at hd
  obtain ⟨token, hparse, hvalue⟩ := eq_tokenText_of_reveal hm hd
  refine ⟨token.iv, token.bytes, Token.decode_payload hparse, ?_, hvalue⟩
  rfl

/-- **Vectors with texts and accepted tokens are the same thing.** Under a key: a text that is not
marked is encrypted to its token under the vector drawn for it; the token of any text, marked or
not, decrypts to the text; a marked value that decrypts to a text is the token of the text under the
first block of the bytes it holds. So tokens tell vectors and texts apart, and encryptions under
different vectors never meet. -/
theorem tokens_bijective (k : Key) :
    (∀ (c : FieldCipher) (text : String), c.keys.Answers (.ok k) → Token.isMarked text = false →
      answer (encrypt text) c = .ok (k.tokenText c.ivs.next.1 text) ∧
        (after (encrypt text) c).ivs = c.ivs.next.2) ∧
    (∀ (c : FieldCipher) (iv : Block) (text : String), c.keys.Answers (.ok k) →
      answer (decrypt (k.tokenText iv text)) c = .ok text) ∧
    (∀ (c : FieldCipher) (value text : String), c.keys.Answers (.ok k) →
      Token.isMarked value = true → answer (decrypt value) c = .ok text →
      ∃ iv bytes, Base64.decode (Token.payload value) = .ok bytes ∧
        bytes.take Block.size = iv.toList ∧ value = k.tokenText iv text) ∧
    (∀ (iv iv' : Block) (text text' : String), k.tokenText iv text = k.tokenText iv' text' →
      iv = iv' ∧ text = text') ∧
    (∀ (c c' : FieldCipher) (text text' : String), c.keys.Answers (.ok k) →
      c'.keys.Answers (.ok k) → Token.isMarked text = false → Token.isMarked text' = false →
      c.ivs.next.1 ≠ c'.ivs.next.1 → answer (encrypt text) c ≠ answer (encrypt text') c') := by
  refine ⟨?_, ?_, ?_, ?_, ?_⟩
  · intro c text h hm
    exact ⟨answer_encrypt h hm, ivs_after_encrypt h hm⟩
  · intro c iv text h
    rw [answer_decrypt h, reveal_tokenText]
  · intro c value text h hm hd
    exact eq_tokenText_of_decrypt h hm hd
  · intro iv iv' text text' heq
    exact Key.tokenText_injective heq
  · intro c c' text text' h h' hm hm' hne heq
    rw [answer_encrypt h hm, answer_encrypt h' hm'] at heq
    -- Equal answers are equal tokens, and a token tells its vector.
    have hiv := (Key.tokenText_injective (Except.ok.inj heq)).1
    exact hne hiv

/-- A cipher with a settled key encrypts a short name and reads it again; a text that looks like a
token comes back from its own token as it was. -/
theorem tokens_bijective_alice :
    let k : Key := ⟨List.replicate 16 7, .inl rfl⟩
    let c : FieldCipher := settled k fun _ => Block.zero
    answer (encrypt "alice") c = .ok (k.tokenText Block.zero "alice") ∧
      answer (decrypt (k.tokenText Block.zero "$$$alice")) c = .ok "$$$alice" ∧
      ∃ iv bytes, Base64.decode (Token.payload (k.tokenText Block.zero "alice")) = .ok bytes ∧
        bytes.take Block.size = iv.toList ∧
        k.tokenText Block.zero "alice" = k.tokenText iv "alice" := by
  intro k c
  obtain ⟨hencrypt, hdecrypt, hexact, -, -⟩ := tokens_bijective k
  have hkey : c.keys.Answers (.ok k) := answers_settled k _
  refine ⟨(hencrypt c "alice" hkey (by decide)).1, hdecrypt c _ _ hkey, ?_⟩
  exact hexact c _ _ hkey (Key.isMarked_tokenText _ _ _) (hdecrypt c _ _ hkey)

end FieldVault.FieldCipher

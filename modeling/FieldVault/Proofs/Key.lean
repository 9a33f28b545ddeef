/-
Under one key, texts with initialisation vectors and readable tokens are the same thing.

Sealing pads, chains and encrypts; unsealing goes back through the same layers. Each layer is exact
in both directions, so a token that unseals to a text is the one that sealing the text under the
vector of the token gives. No other token opens to anything.
-/
import FieldVault.Key
import FieldVault.Proofs.Aes
import FieldVault.Proofs.Cbc
import FieldVault.Proofs.Token

set_option autoImplicit false

namespace FieldVault.Key

variable {k : Key}

/-- The text of the token that a text is sealed in under an initialisation vector: the mark, and the
base64 of the vector and the ciphertext. -/
def tokenText (k : Key) (iv : Block) (text : String) : String :=
  String.ofList (Token.mark ++ Token.asciiChars (Base64.encode
    (iv.toList ++ Cbc.encrypt (Aes.encrypt k.bytes) iv (Utf8.encode text))))

theorem text_sealText (k : Key) (iv : Block) (text : String) :
    (k.sealText iv text).text = k.tokenText iv text := rfl

theorem isMarked_tokenText (k : Key) (iv : Block) (text : String) :
    Token.isMarked (k.tokenText iv text) = true := by
  rw [← text_sealText, Token.isMarked_text]

theorem aligned_sealText (k : Key) (iv : Block) (text : String) : (k.sealText iv text).Aligned := by
  rw [Token.Aligned, sealText, Cbc.length_encrypt]
  exact ⟨Padding.length_pad_mod _, Padding.size_le_length_pad _⟩

/-- A sealed text unseals to itself. -/
theorem unsealText_sealText (k : Key) (iv : Block) (text : String) :
    k.unsealText (k.sealText iv text) = .ok text := by
  rw [unsealText, sealText, Cbc.decrypt?_encrypt (Aes.decrypt_encrypt k.bytes)]
  simp only [Utf8.decode_encode]

/-- A token that is known to hold `test` under a secret of sixteen digits. -/
example :
    (⟨Utf8.encode "1234567891123456", .inl rfl⟩ : Key).tokenText
      (Block.ofNat 0x1936a882c182f2f6e0134f7c00df640b) "test" =
      "$$$GTaogsGC8vbgE098AN9kC+UCHD8vYzVgFF0hFDnuKIw=" := by
  decide +kernel

/-- A token that unseals to a text is the sealed text. -/
theorem eq_sealText_of_unsealText {t : Token} {text : String} (ht : t.Aligned)
    (h : k.unsealText t = .ok text) : t = k.sealText t.iv text := by
  rw [unsealText] at h
  cases hd : Cbc.decrypt? (Aes.decrypt k.bytes) t.iv t.ciphertext with
  | none => simp [hd] at h
  | some plain =>
    have hc := Cbc.eq_encrypt_of_decrypt? (Aes.encrypt_decrypt k.bytes) ht.1 hd
    simp only [hd] at h
    cases hu : Utf8.decode plain with
    | error fault => simp [hu] at h
    | ok s =>
      simp only [hu, Except.ok.injEq] at h
      rw [sealText, ← h, ← Utf8.eq_encode_of_decode hu, ← hc]

/-- The text of a sealed text is read as that token. -/
theorem parse_tokenText (k : Key) (iv : Block) (text : String) :
    Token.parse (k.tokenText iv text) = .ok (k.sealText iv text) := by
  rw [← text_sealText, Token.parse_text (aligned_sealText k iv text)]

/-- A token has more characters than its text has bytes. -/
theorem length_lt_length_tokenText (k : Key) (iv : Block) (text : String) :
    (Utf8.encode text).length < (k.tokenText iv text).toList.length := by
  have hcipher : (Utf8.encode text).length ≤
      (Cbc.encrypt (Aes.encrypt k.bytes) iv (Utf8.encode text)).length := by
    rw [Cbc.length_encrypt, Padding.length_pad]
    exact Nat.le_add_right _ _
  have hbase64 := Base64.length_le_length_encode
    (iv.toList ++ Cbc.encrypt (Aes.encrypt k.bytes) iv (Utf8.encode text))
  rw [List.length_append, Block.toList_length] at hbase64
  rw [tokenText, String.toList_ofList, List.length_append, Token.asciiChars, List.length_map]
  have hmark : Token.mark.length = 3 := rfl
  omega

/-- No text is its own token. -/
theorem tokenText_ne (k : Key) (iv : Block) (text : String) : k.tokenText iv text ≠ text := by
  intro heq
  have hlong := length_lt_length_tokenText k iv text
  rw [heq] at hlong
  exact absurd (Utf8.length_le_length_encode text) (Nat.not_le_of_lt hlong)

/-- Equal tokens come from equal vectors and equal texts. -/
theorem tokenText_injective {iv iv' : Block} {text text' : String}
    (h : k.tokenText iv text = k.tokenText iv' text') : iv = iv' ∧ text = text' := by
  rw [← text_sealText, ← text_sealText] at h
  have ht : k.sealText iv text = k.sealText iv' text' :=
    Token.text_injective (aligned_sealText k iv text) (aligned_sealText k iv' text') h
  have hu := unsealText_sealText k iv text
  rw [ht, unsealText_sealText] at hu
  exact ⟨congrArg Token.iv ht, (Except.ok.inj hu).symm⟩

end FieldVault.Key

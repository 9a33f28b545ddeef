/-
The texts that are tokens.

A vector and a ciphertext have one text, and reading it gives them back if the ciphertext is a whole
number of blocks and at least one; otherwise the reading tells what is wrong with the size, and
nothing else. The other way round, a text that can be read at all is the text of what was read: the
mark, and the standard base64 of two blocks or more. So no token has two texts. Whatever else a
value is, a marked value that is no such text is refused as malformed before any key is asked for,
and no other failure can come of reading it.
-/
import FieldVault.FieldCipher
import FieldVault.Proofs.Text.Base64.Standard
import FieldVault.Proofs.Token

set_option autoImplicit false

namespace FieldVault.Token

/-! ## Sizes -/

theorem aligned_iff (t : Token) :
    t.Aligned ↔ t.ciphertext ≠ [] ∧ t.ciphertext.length % Block.size = 0 := by
  simp only [Aligned, Block.size, ← List.length_pos_iff]
  omega

theorem length_bytes (t : Token) : t.bytes.length = Block.size + t.ciphertext.length := by
  rw [bytes, List.length_append, Block.toList_length, Block.size]

/-- The bytes of a token that can be read are two blocks or more. -/
theorem exists_length_bytes {t : Token} (h : t.Aligned) :
    ∃ n, 2 ≤ n ∧ t.bytes.length = Block.size * n := by
  have hlength := length_bytes t
  simp only [Aligned, Block.size] at h hlength ⊢
  exact ⟨1 + t.ciphertext.length / 16, by omega, by omega⟩

/-- Two blocks or more are the bytes of a token that can be read. -/
theorem exists_bytes_eq {bs : Bytes} {n : Nat} (hn : 2 ≤ n) (h : bs.length = Block.size * n) :
    ∃ t : Token, t.Aligned ∧ t.bytes = bs := by
  have hlong : Block.size ≤ bs.length := by
    rw [h]
    exact Nat.le_mul_of_pos_right _ (by omega)
  obtain ⟨iv, rest, hgroup⟩ := Block.exists_group_eq_cons hlong
  obtain ⟨tail, rfl, -⟩ := Block.eq_append_of_group hgroup
  refine ⟨⟨iv, tail⟩, ?_, rfl⟩
  rw [List.length_append, Block.toList_length] at h
  simp only [Aligned, Block.size] at h ⊢
  omega

/-- What is wrong with a size, where something is. -/
def sizeFault (t : Token) : Fault :=
  if t.ciphertext.length < Block.size then .tooShort (Block.size + t.ciphertext.length)
  else .unaligned t.ciphertext.length

/-- A vector with a ciphertext of another size is refused for its size. -/
theorem ofBytes_bytes_of_not_aligned {t : Token} (h : ¬t.Aligned) :
    ofBytes t.bytes = .error t.sizeFault := by
  have hgroup : Block.group t.bytes = t.iv :: Block.group t.ciphertext :=
    Block.group_toList_append t.iv t.ciphertext
  by_cases hshort : t.ciphertext.length < Block.size
  · -- Less than a block is no block at all.
    have hnone : Block.group t.ciphertext = [] := by
      rw [List.eq_nil_iff_forall_not_mem]
      intro b hb
      obtain ⟨first, rest, hcons⟩ := List.exists_cons_of_ne_nil (List.ne_nil_of_mem hb)
      obtain ⟨tail, htail, -⟩ := Block.eq_append_of_group hcons
      rw [htail, List.length_append, Block.toList_length, Block.size] at hshort
      omega
    rw [ofBytes, hgroup, hnone, sizeFault, if_pos hshort, ← length_bytes]
  · obtain ⟨b, rest, hcons⟩ := Block.exists_group_eq_cons (Nat.le_of_not_lt hshort)
    have hdrop : t.bytes.drop Block.size = t.ciphertext := rfl
    have hrest : ¬t.ciphertext.length % Block.size = 0 := fun hmod =>
      h ⟨hmod, Nat.le_of_not_lt hshort⟩
    rw [ofBytes, hgroup, hcons, sizeFault, if_neg hshort]
    simp only [hdrop, if_neg hrest]

/-! ## Texts -/

/-- The text of any vector and ciphertext is read down to their bytes. -/
theorem parse_text_eq (t : Token) : parse t.text = ofBytes t.bytes := by
  rw [parse, if_pos (isMarked_text t), text_toList, List.drop_left,
    encodeChars_asciiChars fun _ hb => Base64.lt_of_mem_encode hb, Base64.decode_encode]

/-- The text of a token is the mark and the standard base64 of its bytes. -/
theorem text_eq_standardForm (t : Token) :
    t.text = String.ofList (mark ++ Base64.standardForm t.bytes) := by
  rw [text, Base64.chars_encode]

/-- The texts that can be read. -/
theorem exists_parse_iff (value : String) :
    (∃ t, parse value = .ok t) ↔ ∃ n bs, 2 ≤ n ∧ bs.length = Block.size * n ∧
      value = String.ofList (mark ++ Base64.standardForm bs) := by
  constructor
  · rintro ⟨t, ht⟩
    obtain ⟨rfl, haligned⟩ := eq_text_of_parse ht
    obtain ⟨n, hn, hlength⟩ := exists_length_bytes haligned
    exact ⟨n, t.bytes, hn, hlength, text_eq_standardForm t⟩
  · rintro ⟨n, bs, hn, hlength, rfl⟩
    obtain ⟨t, haligned, rfl⟩ := exists_bytes_eq hn hlength
    refine ⟨t, ?_⟩
    rw [← text_eq_standardForm]
    exact parse_text haligned

/-- A value that is marked and cannot be read is malformed to every cipher, which does nothing. -/
theorem decrypt_of_parse_error {value : String} {fault : Fault} (hm : isMarked value = true)
    (h : parse value = .error fault) (c : FieldCipher) :
    FieldCipher.decrypt value c = .error (.malformedToken fault.message) c := by
  unfold FieldCipher.decrypt
  simp only [hm, h, if_true]
  rfl

/-- **Writing and reading tokens undo each other, and the form is canonical.** The text of a vector
and a ciphertext is read as just these if the ciphertext is a whole number of blocks and not empty,
and is refused for its size otherwise. A text that is read is the text of what was read, so no two
texts are read as one token; and the texts that are read are the mark with the standard base64 of
two blocks or more. Every other text is refused, and if it bears the mark, every cipher calls it
malformed and is left as it was. -/
theorem text_form_exact :
    (∀ (iv : Block) (ciphertext : Bytes),
      (ciphertext ≠ [] ∧ ciphertext.length % Block.size = 0 →
        parse (⟨iv, ciphertext⟩ : Token).text = .ok ⟨iv, ciphertext⟩) ∧
      (¬(ciphertext ≠ [] ∧ ciphertext.length % Block.size = 0) →
        parse (⟨iv, ciphertext⟩ : Token).text = .error (⟨iv, ciphertext⟩ : Token).sizeFault)) ∧
    (∀ value t, parse value = .ok t → t.text = value) ∧
    (∀ value value' t, parse value = .ok t → parse value' = .ok t → value = value') ∧
    (∀ value, (∃ t, parse value = .ok t) ↔ ∃ n bs, 2 ≤ n ∧ bs.length = Block.size * n ∧
      value = String.ofList (mark ++ Base64.standardForm bs)) ∧
    (∀ value, (¬∃ n bs, 2 ≤ n ∧ bs.length = Block.size * n ∧
        value = String.ofList (mark ++ Base64.standardForm bs)) →
      ∃ fault, parse value = .error fault ∧ (isMarked value = true → ∀ c : FieldCipher,
        FieldCipher.decrypt value c = .error (.malformedToken fault.message) c)) := by
  refine ⟨fun iv ciphertext => ⟨fun hsize => ?_, fun hsize => ?_⟩, ?_, ?_, exists_parse_iff, ?_⟩
  · exact parse_text ((aligned_iff _).2 hsize)
  · rw [parse_text_eq]
    exact ofBytes_bytes_of_not_aligned fun haligned => hsize ((aligned_iff _).1 haligned)
  · intro value t ht
    exact (eq_text_of_parse ht).1.symm
  · intro value value' t ht ht'
    rw [(eq_text_of_parse ht).1, (eq_text_of_parse ht').1]
  · intro value hform
    rw [← exists_parse_iff] at hform
    cases hp : parse value with
    | ok t => exact absurd ⟨t, hp⟩ hform
    | error fault => exact ⟨fault, rfl, fun hm c => decrypt_of_parse_error hm hp c⟩

/-- A block of ones after a vector of zeros is a token; three bytes are too short for one; and a
marked word is malformed to every cipher. -/
theorem text_form_exact_ones :
    parse (⟨Block.zero, List.replicate 16 1⟩ : Token).text =
        .ok ⟨Block.zero, List.replicate 16 1⟩ ∧
      parse (⟨Block.zero, List.replicate 3 1⟩ : Token).text = .error (.tooShort 19) ∧
      ∃ fault : Fault, ∀ c : FieldCipher,
        FieldCipher.decrypt "$$$alice" c = .error (.malformedToken fault.message) c := by
  obtain ⟨hsizes, -, -, hform, hrefused⟩ := text_form_exact
  refine ⟨(hsizes Block.zero (List.replicate 16 1)).1 (by decide),
    (hsizes Block.zero (List.replicate 3 1)).2 (by decide), ?_⟩
  obtain ⟨fault, -, hmalformed⟩ := hrefused "$$$alice" fun h => by
    obtain ⟨t, ht⟩ := (hform "$$$alice").2 h
    have hbase64 : parse "$$$alice" = .error (.base64 (.invalidLength 5)) := by rfl
    rw [hbase64] at ht
    cases ht
  exact ⟨fault, hmalformed (by decide)⟩

end FieldVault.Token

/-
A token and its text determine each other.

The mark is taken off, the rest goes through the bytes of its characters to base64 and from there to
blocks. All of the characters that a token is written with are ASCII, so the step through UTF-8 is
one byte per character, both ways; the other two steps are exact by the laws of their modules.
-/
import FieldVault.Proofs.Bytes
import FieldVault.Proofs.Text.Base64
import FieldVault.Proofs.Text.Utf8
import FieldVault.Token

set_option autoImplicit false

namespace FieldVault.Token

/-! ## The mark -/

theorem isMarked_iff (value : String) :
    isMarked value = true ↔ ∃ rest, value.toList = mark ++ rest := by
  rw [isMarked, List.isPrefixOf_iff_prefix]
  exact ⟨fun ⟨rest, h⟩ => ⟨rest, h.symm⟩, fun ⟨rest, h⟩ => ⟨rest, h.symm⟩⟩

/-! ## The characters of base64 -/

/-- ASCII bytes as characters. -/
def asciiChars (bs : Bytes) : List Char := bs.map fun b => Char.ofNat b.toNat

theorem text_toList (t : Token) : t.text.toList = mark ++ asciiChars (Base64.encode t.bytes) := by
  rw [text, String.toList_ofList]
  rfl

theorem isMarked_text (t : Token) : isMarked t.text = true :=
  (isMarked_iff _).2 ⟨_, text_toList t⟩

/-- ASCII characters are written as the bytes they were made from. -/
theorem encodeChars_asciiChars {bs : Bytes} (h : ∀ b ∈ bs, b.toNat < 128) :
    Utf8.encodeChars (asciiChars bs) = bs := by
  induction bs with
  | nil => rfl
  | cons b bs ih =>
    have hb : Utf8.encodeChar (Char.ofNat b.toNat) = [b] :=
      Utf8.encodeChar_char1 (h b List.mem_cons_self)
    have ih := ih fun c hc => h c (List.mem_cons_of_mem b hc)
    rw [Utf8.encodeChars, asciiChars] at ih
    rw [asciiChars, List.map_cons, Utf8.encodeChars, List.flatMap_cons, hb, ih]
    rfl

/-! ## Blocks -/

/-- The ciphertext of a token that can be read: whole blocks, and at least one. -/
def Aligned (t : Token) : Prop :=
  t.ciphertext.length % Block.size = 0 ∧ Block.size ≤ t.ciphertext.length

theorem ofBytes_bytes {t : Token} (h : t.Aligned) : ofBytes t.bytes = .ok t := by
  obtain ⟨b, rest, hb⟩ := Block.exists_group_eq_cons h.2
  have hg : Block.group t.bytes = t.iv :: b :: rest := by
    rw [bytes, Block.group_toList_append, hb]
  have hd : t.bytes.drop Block.size = t.ciphertext := rfl
  rw [ofBytes, hg]
  simp only [hd]
  rw [if_pos h.1]

theorem bytes_of_ofBytes {bs : Bytes} {t : Token} (h : ofBytes bs = .ok t) :
    t.bytes = bs ∧ t.Aligned := by
  rw [ofBytes] at h
  split at h
  · case h_1 iv b rest hg =>
    obtain ⟨tail, rfl, htail⟩ := Block.eq_append_of_group hg
    obtain ⟨tail', rfl, -⟩ := Block.eq_append_of_group htail
    have hd : (iv.toList ++ (b.toList ++ tail')).drop Block.size = b.toList ++ tail' := rfl
    simp only [hd] at h
    split at h
    · case isTrue hmod =>
      cases h
      refine ⟨rfl, hmod, ?_⟩
      rw [List.length_append, Block.toList_length, Block.size]
      omega
    · cases h
  · cases h

/-! ## Texts -/

/-- The text of a token is read as that token. -/
theorem parse_text {t : Token} (h : t.Aligned) : parse t.text = .ok t := by
  have hascii : ∀ b ∈ Base64.encode t.bytes, b.toNat < 128 := fun b hb => Base64.lt_of_mem_encode hb
  rw [parse, if_pos (isMarked_text t), text_toList, List.drop_left,
    encodeChars_asciiChars hascii, Base64.decode_encode]
  exact ofBytes_bytes h

/-- A text that is read as a token is the text of that token. -/
theorem eq_text_of_parse {value : String} {t : Token} (h : parse value = .ok t) :
    value = t.text ∧ t.Aligned := by
  rw [parse] at h
  split at h
  · case isTrue hm =>
    obtain ⟨rest, hrest⟩ := (isMarked_iff value).1 hm
    rw [hrest, List.drop_left] at h
    cases hd : Base64.decode (Utf8.encodeChars rest) with
    | error fault => simp [hd] at h
    | ok bs =>
      simp only [hd] at h
      obtain ⟨hbytes, haligned⟩ := bytes_of_ofBytes h
      have hencode := Base64.eq_encode_of_decode hd
      have hascii : ∀ b ∈ Base64.encode bs, b.toNat < 128 := fun b hb => Base64.lt_of_mem_encode hb
      have hchars : rest = asciiChars (Base64.encode bs) := by
        apply Utf8.encodeChars_injective
        rw [hencode, encodeChars_asciiChars hascii]
      refine ⟨?_, haligned⟩
      rw [← String.toList_inj, hrest, text_toList, hbytes, hchars]
  · cases h

/-- What stands after the mark, as bytes. -/
def payload (value : String) : Bytes := Utf8.encodeChars (value.toList.drop mark.length)

/-- The base64 of a text that is read as a token holds the bytes of the token. -/
theorem decode_payload {value : String} {t : Token} (h : parse value = .ok t) :
    Base64.decode (payload value) = .ok t.bytes := by
  obtain ⟨rfl, -⟩ := eq_text_of_parse h
  have hascii : ∀ b ∈ Base64.encode t.bytes, b.toNat < 128 := fun b hb => Base64.lt_of_mem_encode hb
  rw [payload, text_toList, List.drop_left, encodeChars_asciiChars hascii, Base64.decode_encode]

/-- Two tokens with one text are one token. -/
theorem text_injective {t u : Token} (ht : t.Aligned) (hu : u.Aligned) (h : t.text = u.text) :
    t = u := by
  have hp := parse_text ht
  rw [h, parse_text hu] at hp
  exact (Except.ok.inj hp).symm

end FieldVault.Token

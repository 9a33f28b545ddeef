/-
Lookup hashes are recognised.

A digest has twenty bytes, and each byte is written with two digits, so what is put in place of a
value has the shape by which values in that place are told from plain ones. It also belongs to the
value it was made from.
-/
import FieldVault.LookupHash
import FieldVault.Proofs.Bytes.Hex
import FieldVault.Token

set_option autoImplicit false

namespace FieldVault

theorem Digest.length_sha1 (message : Bytes) : (sha1 message).length = 20 := by
  rw [sha1, Sha1.State.bytes, Word.length_bytes]
  rfl

example :
    Hex.encode (Digest.sha1 (Utf8.encode "foo")) = "0beec7b5ea3f0fdbc95d0dd47f3c5bc275da8a33" := by
  decide +kernel

namespace LookupHash

/-- A lookup hash has the shape of one. -/
theorem isShaped_of (text : String) : isShaped (of text) = true := by
  rw [isShaped, of, Hex.encode, String.toList_ofList, Hex.length_digits, Digest.length_sha1,
    Bool.and_eq_true]
  refine ⟨rfl, ?_⟩
  rw [List.all_eq_true]
  intro c hc
  exact Hex.isDigit_of_mem_digits hc

/-- What is marked as a token has not the shape of a lookup hash: the mark has no digits. -/
theorem isShaped_of_marked {value : String} (h : Token.isMarked value = true) :
    isShaped value = false := by
  rw [Token.isMarked, List.isPrefixOf_iff_prefix] at h
  obtain ⟨rest, hrest⟩ := h
  rw [isShaped, ← hrest, Bool.and_eq_false_iff]
  exact .inr rfl

/-- Texts with the same normal form have the same lookup hash. -/
theorem of_congr {s t : String} (h : normalize s = normalize t) : of s = of t := by
  rw [of, of, h]

example : of " Alice@Example.com " = "fc2398a73dd54d6237c4fdb58fd7d75347cf5af3" := by
  decide +kernel

/-- A lookup hash belongs to the text it was made from. -/
theorem isOf_of (text : String) : isOf (some (of text)) text = true := by
  rw [isOf, decide_eq_true_eq]

end LookupHash

end FieldVault

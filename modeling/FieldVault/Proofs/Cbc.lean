/-
Padding and chaining are undone exactly.

Padding can be taken off again, and a byte string that loses a padding is the padded form of what is
left: the count in the last byte fixes how many bytes are dropped, and the check of the dropped
bytes leaves only one choice for them. Chaining needs of the block cipher nothing but that it is
undone by the other direction; which of the two comes first decides which law of the cipher is used.
-/
import FieldVault.Cbc
import FieldVault.Proofs.Bytes
import Mathlib.Tactic.SplitIfs

set_option autoImplicit false

namespace FieldVault

/-! ## Padding -/

namespace Padding

theorem one_le_count (bs : Bytes) : 1 ≤ count bs := by
  simp only [count, Block.size]
  omega

theorem count_le (bs : Bytes) : count bs ≤ 16 := by
  simp only [count, Block.size]
  omega

/-- The count of a padding is the byte that it consists of. -/
theorem toNat_count (bs : Bytes) : (UInt8.ofNat (count bs)).toNat = count bs :=
  UInt8.toNat_ofNat_of_lt' (Nat.lt_of_le_of_lt (count_le bs) (by decide))

theorem length_pad (bs : Bytes) : (pad bs).length = bs.length + count bs := by
  rw [pad, List.length_append, List.length_replicate]

/-- A padded byte string is a whole number of blocks, and not empty. -/
theorem length_pad_mod (bs : Bytes) : (pad bs).length % Block.size = 0 := by
  rw [length_pad]
  simp only [count, Block.size]
  omega

theorem size_le_length_pad (bs : Bytes) : Block.size ≤ (pad bs).length := by
  rw [length_pad]
  simp only [count, Block.size]
  omega

/-- A padding is taken off again. -/
theorem unpad?_pad (bs : Bytes) : unpad? (pad bs) = some bs := by
  have h1 := one_le_count bs
  have hlast : (pad bs).getLast? = some (UInt8.ofNat (count bs)) := by
    rw [pad, List.getLast?_append, List.getLast?_replicate, if_neg (by omega)]
    rfl
  have hrest : (pad bs).length - count bs = bs.length := by rw [length_pad]; omega
  have hdrop : (pad bs).drop bs.length = List.replicate (count bs) (UInt8.ofNat (count bs)) := by
    rw [pad, List.drop_left]
  rw [unpad?, hlast]
  simp only [Option.bind_eq_bind, Option.bind_some, toNat_count, hrest, hdrop]
  rw [if_pos ⟨h1, count_le bs, by rw [length_pad]; omega, by simp⟩, pad, List.take_left]

/-- What loses its padding is the padded form of the rest. -/
theorem eq_pad_of_unpad? {bs plain : Bytes} (hbs : bs.length % Block.size = 0)
    (h : unpad? bs = some plain) : bs = pad plain := by
  rw [unpad?] at h
  cases hlast : bs.getLast? with
  | none => simp [hlast] at h
  | some last =>
    simp only [hlast, Option.bind_eq_bind, Option.bind_some] at h
    split_ifs at h with hn
    obtain ⟨h1, h16, hle, hall⟩ := hn
    obtain rfl := Option.some.inj h
    have h16 : last.toNat ≤ 16 := h16
    have hmod : bs.length % 16 = 0 := hbs
    -- the dropped bytes are as many as the count of the rest, and each of them is that count
    have hcount : count (bs.take (bs.length - last.toNat)) = last.toNat := by
      rw [count, List.length_take]
      simp only [Block.size]
      omega
    have hdrop : bs.drop (bs.length - last.toNat) = List.replicate last.toNat last := by
      rw [List.eq_replicate_iff, List.length_drop]
      refine ⟨by omega, fun b hb => ?_⟩
      exact eq_of_beq (List.all_eq_true.1 hall b hb)
    rw [pad, hcount, UInt8.ofNat_toNat, ← hdrop, List.take_append_drop]

end Padding

/-! ## Chaining -/

namespace Cbc

variable {encrypt decrypt : Block → Block}

/-- Chaining is undone if the cipher is. -/
theorem unchain_chain (h : ∀ b, decrypt (encrypt b) = b) (previous : Block) (ps : List Block) :
    unchain decrypt previous (chain encrypt previous ps) = ps := by
  induction ps generalizing previous with
  | nil => rfl
  | cons p ps ih => simp only [chain, unchain, h, Block.xor_xor_cancel, ih]

/-- Blocks are the chain of what they decrypt to, if the cipher redoes what it undid. -/
theorem chain_unchain (h : ∀ b, encrypt (decrypt b) = b) (previous : Block) (cs : List Block) :
    chain encrypt previous (unchain decrypt previous cs) = cs := by
  induction cs generalizing previous with
  | nil => rfl
  | cons c cs ih => simp only [chain, unchain, Block.xor_xor_cancel, h, ih]

theorem length_chain (previous : Block) (ps : List Block) :
    (chain encrypt previous ps).length = ps.length := by
  induction ps generalizing previous with
  | nil => rfl
  | cons p ps ih => simp only [chain, List.length_cons, ih]

/-! ## Byte strings -/

/-- What was encrypted decrypts to the byte string it was made from. -/
theorem decrypt?_encrypt (h : ∀ b, decrypt (encrypt b) = b) (iv : Block) (plain : Bytes) :
    decrypt? decrypt iv (Cbc.encrypt encrypt iv plain) = some plain := by
  rw [decrypt?, Cbc.encrypt, Block.group_bytes, unchain_chain h,
    Block.bytes_group _ (Padding.length_pad_mod plain), Padding.unpad?_pad]

/-- What can be decrypted was encrypted from what it decrypts to. -/
theorem eq_encrypt_of_decrypt? (h : ∀ b, encrypt (decrypt b) = b) {iv : Block}
    {bytes plain : Bytes} (hbytes : bytes.length % Block.size = 0)
    (hd : decrypt? decrypt iv bytes = some plain) : bytes = Cbc.encrypt encrypt iv plain := by
  rw [decrypt?] at hd
  have hmod : (Block.bytes (unchain decrypt iv (Block.group bytes))).length % Block.size = 0 := by
    rw [Block.length_bytes, Block.size]
    omega
  rw [Cbc.encrypt, ← Padding.eq_pad_of_unpad? hmod hd, Block.group_bytes, chain_unchain h,
    Block.bytes_group _ hbytes]

/-- A ciphertext is a whole number of blocks, and not empty. -/
theorem length_encrypt (iv : Block) (plain : Bytes) :
    (Cbc.encrypt encrypt iv plain).length = (Padding.pad plain).length := by
  rw [Cbc.encrypt, Block.length_bytes, length_chain, ← Block.length_bytes,
    Block.bytes_group _ (Padding.length_pad_mod plain)]

end Cbc

end FieldVault

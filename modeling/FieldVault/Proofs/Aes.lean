/-
AES on one block is undone by the other direction, under every list of round keys.

Each step of a round has an inverse of its own. The substitution is checked on all bytes, one way
round; the other follows since there are only finitely many. Shifting rows moves bytes, and adding a
key cancels. Mixing is the one step with an argument. Doubling is additive, and that is all that is
needed of it: written in doublings of the four bytes, mixing a column twice leaves only half of the
terms, mixing it four times leaves the column, and unmixing is mixing three times. The reduction of
the field is never looked at, nor is the key schedule.
-/
import FieldVault.Aes
import FieldVault.Proofs.Bytes
import Mathlib.Data.FinEnum
import Mathlib.Data.LawfulXor.Basic

set_option autoImplicit false

namespace FieldVault.Aes

/-! ## Substitution -/

theorem restore_substitute : ∀ b : UInt8, restore (substitute b) = b :=
  forall_byte (by decide +kernel)

theorem substitute_restore (b : UInt8) : substitute (restore b) = b := by
  have hinj : Function.Injective substitute := Function.LeftInverse.injective restore_substitute
  obtain ⟨a, rfl⟩ := Finite.surjective_of_injective hinj b
  rw [restore_substitute]

theorem map_restore_map_substitute (b : Block) : (b.map substitute).map restore = b := by
  simp only [Block.map, Word.map, restore_substitute]

theorem map_substitute_map_restore (b : Block) : (b.map restore).map substitute = b := by
  simp only [Block.map, Word.map, substitute_restore]

/-! ## Doubling -/

theorem xor_left_comm (a b c : UInt8) : a ^^^ (b ^^^ c) = b ^^^ (a ^^^ c) := by
  rw [← UInt8.xor_assoc, UInt8.xor_comm a b, UInt8.xor_assoc]

theorem xor_and (a b c : UInt8) : (a ^^^ b) &&& c = (a &&& c) ^^^ (b &&& c) := by
  apply UInt8.toBitVec_inj.1
  simp only [UInt8.toBitVec_and, UInt8.toBitVec_xor]
  ext i
  simp [Bool.and_xor_distrib_right]

/-- The bit that doubling shifts out is set or not. -/
theorem highBit_cases : ∀ b : UInt8, b &&& 0x80 = 0 ∨ b &&& 0x80 = 0x80 :=
  forall_byte (by decide +kernel)

/-- Doubling is additive. -/
theorem double_xor (a b : UInt8) : double (a ^^^ b) = double a ^^^ double b := by
  simp only [double, UInt8.shiftLeft_xor, xor_and]
  rcases highBit_cases a with ha | ha <;> rcases highBit_cases b with hb | hb
  · simp [ha, hb]
  · simp [ha, hb, UInt8.xor_assoc]
  · simp [ha, hb, UInt8.xor_assoc, UInt8.xor_comm (b <<< 1)]
  · simp [ha, hb, UInt8.xor_assoc, xor_left_comm 0x1B]

/-! ## Mixing -/

/-- Four times a field element. -/
def times4 (b : UInt8) : UInt8 := double (double b)

/-- A column mixed twice: each byte is five times itself and four times the one opposite. -/
def mixWordTwice (w : Word) : Word :=
  ⟨times4 w.b0 ^^^ w.b0 ^^^ times4 w.b2, times4 w.b1 ^^^ w.b1 ^^^ times4 w.b3,
   times4 w.b2 ^^^ w.b2 ^^^ times4 w.b0, times4 w.b3 ^^^ w.b3 ^^^ times4 w.b1⟩

theorem mixWord_mixWord (w : Word) : mixWord (mixWord w) = mixWordTwice w := by
  obtain ⟨a, b, c, d⟩ := w
  simp only [mixWord, mixWordTwice, times3, times4, double_xor]
  -- sorted, the terms stand in pairs, and each pair cancels
  simp only [UInt8.xor_assoc, UInt8.xor_comm, xor_left_comm, xor_cancel_left, UInt8.xor_self,
    UInt8.zero_xor]

/-- A column mixed four times is the column. -/
theorem mixWordTwice_mixWordTwice (w : Word) : mixWordTwice (mixWordTwice w) = w := by
  obtain ⟨a, b, c, d⟩ := w
  simp only [mixWordTwice, times4, double_xor]
  simp only [UInt8.xor_assoc, UInt8.xor_comm, xor_left_comm, xor_cancel_left, UInt8.xor_self,
    UInt8.xor_zero]

/-- Unmixing a column is mixing it three times. -/
theorem unmixWord_eq (w : Word) : unmixWord w = mixWord (mixWordTwice w) := by
  obtain ⟨a, b, c, d⟩ := w
  simp only [unmixWord, mixWord, mixWordTwice, times3, times4, times9, times11, times13, times14,
    double_xor]
  simp only [UInt8.xor_assoc, UInt8.xor_comm, xor_left_comm, xor_cancel_left]

/-- Mixing a column and unmixing it are mixing it four times, in either order. -/
theorem mixWord_unmixWord (w : Word) : mixWord (unmixWord w) = w := by
  rw [unmixWord_eq, mixWord_mixWord, mixWordTwice_mixWordTwice]

theorem unmixWord_mixWord (w : Word) : unmixWord (mixWord w) = w := by
  calc unmixWord (mixWord w)
      = mixWord (mixWord (mixWord (mixWord w))) := by rw [unmixWord_eq, ← mixWord_mixWord]
    _ = w := by rw [mixWord_mixWord, mixWord_mixWord, mixWordTwice_mixWordTwice]

theorem mix_unmix (b : Block) : mix (unmix b) = b := by
  simp only [mix, unmix, mixWord_unmixWord]

theorem unmix_mix (b : Block) : unmix (mix b) = b := by
  simp only [mix, unmix, unmixWord_mixWord]

/-! ## Rounds -/

theorem rounds_cons_cons (key next : Block) (keys : List Block) (b : Block) :
    rounds (key :: next :: keys) b =
      rounds (next :: keys) ((mix (shiftRows (b.map substitute))).xor key) := rfl

theorem unrounds_cons_cons (key next : Block) (keys : List Block) (b : Block) :
    unrounds (key :: next :: keys) b =
      (unshiftRows (unmix ((unrounds (next :: keys) b).xor key))).map restore := rfl

/-- The last round, which leaves the mixing out. -/
theorem rounds_singleton (key b : Block) :
    rounds [key] b = (shiftRows (b.map substitute)).xor key := rfl

theorem unrounds_singleton (key b : Block) :
    unrounds [key] b = (unshiftRows (b.xor key)).map restore := rfl

theorem unrounds_rounds (keys : List Block) (b : Block) : unrounds keys (rounds keys b) = b := by
  induction keys generalizing b with
  | nil => rfl
  | cons key keys ih =>
    cases keys with
    | nil =>
      rw [rounds_singleton, unrounds_singleton, Block.xor_xor_cancel, unshiftRows_shiftRows,
        map_restore_map_substitute]
    | cons next keys =>
      rw [rounds_cons_cons, unrounds_cons_cons, ih, Block.xor_xor_cancel, unmix_mix,
        unshiftRows_shiftRows, map_restore_map_substitute]

theorem rounds_unrounds (keys : List Block) (b : Block) : rounds keys (unrounds keys b) = b := by
  induction keys with
  | nil => rfl
  | cons key keys ih =>
    cases keys with
    | nil =>
      rw [unrounds_singleton, rounds_singleton, map_substitute_map_restore,
        shiftRows_unshiftRows, Block.xor_xor_cancel]
    | cons next keys =>
      rw [unrounds_cons_cons, rounds_cons_cons, map_substitute_map_restore,
        shiftRows_unshiftRows, mix_unmix, Block.xor_xor_cancel, ih]

/-! ## Blocks -/

/-- **Decryption undoes encryption**, whatever the key and its length. -/
theorem decrypt_encrypt (key : Bytes) (b : Block) : decrypt key (encrypt key b) = b := by
  simp only [decrypt, encrypt]
  cases roundKeys key with
  | nil => rfl
  | cons first keys => rw [decryptWith, encryptWith, unrounds_rounds, Block.xor_xor_cancel]

/-- **Encryption redoes decryption**, whatever the key and its length. -/
theorem encrypt_decrypt (key : Bytes) (b : Block) : encrypt key (decrypt key b) = b := by
  simp only [decrypt, encrypt]
  cases roundKeys key with
  | nil => rfl
  | cons first keys => rw [encryptWith, decryptWith, Block.xor_xor_cancel, rounds_unrounds]

/-- One block under a key of sixteen digits. -/
example :
    encrypt [0x31, 0x32, 0x33, 0x34, 0x35, 0x36, 0x37, 0x38, 0x39, 0x31, 0x31, 0x32, 0x33, 0x34,
      0x35, 0x36] (Block.ofNat 0x6d53dbf6cd8efefaec1f43700cd36807) =
      Block.ofNat 0xe5021c3f2f633560145d211439ee288c := by
  decide +kernel

end FieldVault.Aes

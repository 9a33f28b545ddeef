/-
Texts are ordered as their bytes are.

Names and ids are compared character by character. UTF-8 keeps that order: of two characters the one
with the greater number has the greater first byte, or the same first byte and then as many bytes
after it, which are the digits of the two numbers in base sixty-four. So nothing depends on whether
a list is put in order by its texts or by the bytes that these are written with.
-/
import FieldVault.Proofs.Text.Utf8
import Mathlib.Data.String.Basic

set_option autoImplicit false

namespace FieldVault

/-! ## The order of texts -/

/-- Comparing two texts says whether the one comes before the other. -/
theorem compare_text_eq_lt_iff (s t : String) : compare s t = .lt ↔ s < t := by
  show compareOfLessAndEq s t = .lt ↔ s < t
  rw [compareOfLessAndEq]
  split
  next h => simp only [h]
  next h =>
    split
    · simp only [reduceCtorEq, h]
    · simp only [reduceCtorEq, h]

namespace Utf8

/-! ## Characters -/

/-- Byte strings are in order if their first bytes are, or if these are the same and what follows
is in order. -/
theorem cons_lt_cons {m n : Nat} (hm : m < 256) (hn : n < 256) (hle : m ≤ n) {xs ys : Bytes}
    (h : m = n → xs < ys) : UInt8.ofNat m :: xs < UInt8.ofNat n :: ys := by
  rcases Nat.lt_or_eq_of_le hle with hlt | heq
  · refine List.Lex.rel ?_
    rwa [UInt8.lt_iff_toNat_lt, toNat_byte hm, toNat_byte hn]
  · rw [heq]
    exact List.Lex.cons (h heq)

/-- The number of the first byte of the character numbered `n`. -/
def lead (n : Nat) : Nat :=
  if n < 0x80 then n
  else if n < 0x800 then 0xC0 + n / 64
  else if n < 0x10000 then 0xE0 + n / 4096
  else 0xF0 + n / 262144

theorem exists_encodeChar_eq_lead_cons (c : Char) :
    ∃ tail, encodeChar c = UInt8.ofNat (lead c.toNat) :: tail := by
  rw [lead]
  split_ifs with h1 h2 h3
  · exact ⟨_, encodeChar_of_width1 rfl h1⟩
  · exact ⟨_, encodeChar_of_width2 rfl (by omega) h2⟩
  · exact ⟨_, encodeChar_of_width3 rfl (by omega) h3⟩
  · exact ⟨_, encodeChar_of_width4 rfl (by omega)⟩

/-- A character with a smaller number is written before one with a greater, whatever follows. -/
theorem encodeChar_append_lt {c d : Char} (h : c < d) (xs ys : Bytes) :
    encodeChar c ++ xs < encodeChar d ++ ys := by
  have hc := toNat_valid c
  have hd := toNat_valid d
  obtain ⟨m, hm⟩ : ∃ m, c.toNat = m := ⟨_, rfl⟩
  obtain ⟨n, hn⟩ : ∃ n, d.toNat = n := ⟨_, rfl⟩
  have hlt : m < n := hm ▸ hn ▸ h
  rw [hm] at hc
  rw [hn] at hd
  rcases Nat.lt_or_ge (lead m) (lead n) with hlead | hlead
  · obtain ⟨cs, hcs⟩ := exists_encodeChar_eq_lead_cons c
    obtain ⟨ds, hds⟩ := exists_encodeChar_eq_lead_cons d
    have hbound : lead n < 256 := by
      rw [lead]
      split_ifs <;> omega
    rw [hcs, hds, hm, hn]
    exact cons_lt_cons (by omega) hbound hlead.le fun heq => absurd heq hlead.ne
  · -- The first bytes are the same, so the widths are, and a later byte decides.
    unfold lead at hlead
    by_cases h1 : n < 0x80
    · rw [if_pos h1, if_pos (by omega)] at hlead
      omega
    by_cases h2 : n < 0x800
    · have hm1 : ¬ m < 0x80 := by
        intro hm1
        rw [if_neg h1, if_pos h2, if_pos hm1] at hlead
        omega
      rw [encodeChar_of_width2 hm (by omega) (by omega), encodeChar_of_width2 hn (by omega) h2]
      refine cons_lt_cons (by omega) (by omega) (by omega) fun e0 => ?_
      exact cons_lt_cons (by omega) (by omega) (by omega) fun e1 => by omega
    by_cases h3 : n < 0x10000
    · have hm2 : ¬ m < 0x800 := by
        intro hm2
        rw [if_neg h1, if_neg h2, if_pos h3] at hlead
        split_ifs at hlead <;> omega
      rw [encodeChar_of_width3 hm (by omega) (by omega), encodeChar_of_width3 hn (by omega) h3]
      refine cons_lt_cons (by omega) (by omega) (by omega) fun e0 => ?_
      refine cons_lt_cons (by omega) (by omega) (by omega) fun e1 => ?_
      exact cons_lt_cons (by omega) (by omega) (by omega) fun e2 => by omega
    · have hm3 : ¬ m < 0x10000 := by
        intro hm3
        rw [if_neg h1, if_neg h2, if_neg h3] at hlead
        split_ifs at hlead <;> omega
      rw [encodeChar_of_width4 hm (by omega), encodeChar_of_width4 hn (by omega)]
      refine cons_lt_cons (by omega) (by omega) (by omega) fun e0 => ?_
      refine cons_lt_cons (by omega) (by omega) (by omega) fun e1 => ?_
      refine cons_lt_cons (by omega) (by omega) (by omega) fun e2 => ?_
      exact cons_lt_cons (by omega) (by omega) (by omega) fun e3 => by omega

/-! ## Texts -/

/-- The order of characters carries over to their bytes. -/
theorem encodeChars_lt {cs ds : List Char} (h : cs < ds) : encodeChars cs < encodeChars ds := by
  induction h with
  | @nil d ds =>
    obtain ⟨tail, htail⟩ := exists_encodeChar_eq_lead_cons d
    rw [encodeChars, encodeChars, List.flatMap_cons, htail]
    exact List.Lex.nil
  | rel h =>
    rw [encodeChars, encodeChars, List.flatMap_cons, List.flatMap_cons]
    exact encodeChar_append_lt h _ _
  | cons h ih =>
    rw [encodeChars, encodeChars, List.flatMap_cons, List.flatMap_cons]
    exact List.append_left_lt ih

/-- The order of texts is the order of their bytes. -/
theorem encode_lt_encode_iff (s t : String) : encode s < encode t ↔ s < t := by
  constructor
  · intro h
    by_contra hst
    rcases (not_lt.1 hst).lt_or_eq with hlt | rfl
    · exact List.lt_asymm h (encodeChars_lt (String.lt_iff_toList_lt.1 hlt))
    · exact List.lt_irrefl _ h
  · intro h
    exact encodeChars_lt (String.lt_iff_toList_lt.1 h)

/-- Comparing two texts compares their bytes. -/
theorem compare_eq_lt_iff_encode_lt (s t : String) :
    compare s t = .lt ↔ encode s < encode t := by
  rw [compare_text_eq_lt_iff, encode_lt_encode_iff]

end Utf8

end FieldVault

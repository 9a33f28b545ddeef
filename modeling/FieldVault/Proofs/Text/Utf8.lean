/-
Writing and reading UTF-8 undo each other.

Reading goes by the first byte of a character, writing by the number of the character. So each of
the four widths needs the same two facts: the bytes that are written pass the checks of reading and
give the character back, and the bytes that pass the checks are the ones that are written for the
character they give. The second fact is what the narrow checks on the second byte are for: without
them an overlong form would read as a character that is written shorter.
-/
import FieldVault.Text.Utf8
import Mathlib.Tactic.SplitIfs

set_option autoImplicit false

namespace FieldVault.Utf8

/-! ## Numbers of characters -/

/-- The number of a character lies below the surrogates or above them. -/
theorem toNat_valid (c : Char) : c.toNat < 0xD800 ∨ 0xDFFF < c.toNat ∧ c.toNat < 0x110000 :=
  c.valid

/-- A valid number is the number of its character. -/
theorem toNat_ofNat_of_valid {n : Nat} (h : n < 0xD800 ∨ 0xDFFF < n ∧ n < 0x110000) :
    (Char.ofNat n).toNat = n := by
  have hv : n.isValidChar := h
  rw [Char.ofNat, dif_pos hv]
  rfl

/-! ## The checks of reading, as bounds on numbers -/

theorem toNat_byte {n : Nat} (h : n < 256) : (UInt8.ofNat n).toNat = n :=
  UInt8.toNat_ofNat_of_lt' h

theorem isTail_iff (b : UInt8) : isTail b = true ↔ 0x80 ≤ b.toNat ∧ b.toNat < 0xC0 := by
  simp only [isTail, UInt8.le_iff_toNat_le, Bool.and_eq_true, decide_eq_true_eq,
    UInt8.reduceToNat]
  omega

/-- The second byte of three excludes overlong forms and surrogates. -/
theorem isSecondOfThree_iff (b0 b1 : UInt8) : isSecondOfThree b0 b1 = true ↔
    0x80 ≤ b1.toNat ∧ b1.toNat < 0xC0 ∧ (b0.toNat = 0xE0 → 0xA0 ≤ b1.toNat) ∧
      (b0.toNat = 0xED → b1.toNat < 0xA0) := by
  simp only [isSecondOfThree, ← UInt8.toNat_inj, UInt8.reduceToNat]
  split_ifs with h h'
  · simp only [UInt8.le_iff_toNat_le, Bool.and_eq_true, decide_eq_true_eq, UInt8.reduceToNat]
    omega
  · simp only [UInt8.le_iff_toNat_le, Bool.and_eq_true, decide_eq_true_eq, UInt8.reduceToNat]
    omega
  · rw [isTail_iff]
    omega

/-- The second byte of four excludes overlong forms and numbers above the last character. -/
theorem isSecondOfFour_iff (b0 b1 : UInt8) : isSecondOfFour b0 b1 = true ↔
    0x80 ≤ b1.toNat ∧ b1.toNat < 0xC0 ∧ (b0.toNat = 0xF0 → 0x90 ≤ b1.toNat) ∧
      (b0.toNat = 0xF4 → b1.toNat < 0x90) := by
  simp only [isSecondOfFour, ← UInt8.toNat_inj, UInt8.reduceToNat]
  split_ifs with h h'
  · simp only [UInt8.le_iff_toNat_le, Bool.and_eq_true, decide_eq_true_eq, UInt8.reduceToNat]
    omega
  · simp only [UInt8.le_iff_toNat_le, Bool.and_eq_true, decide_eq_true_eq, UInt8.reduceToNat]
    omega
  · rw [isTail_iff]
    omega

/-! ## One character of each width

A width is a range of numbers on the side of writing and a range of first bytes on the side of
reading. -/

theorem encodeChar_of_width1 {c : Char} {n : Nat} (hn : c.toNat = n) (h : n < 0x80) :
    encodeChar c = [UInt8.ofNat n] := by
  simp only [encodeChar, hn]
  rw [if_pos h]

theorem encodeChar_of_width2 {c : Char} {n : Nat} (hn : c.toNat = n) (h : 0x80 ≤ n)
    (h' : n < 0x800) :
    encodeChar c = [UInt8.ofNat (0xC0 + n / 64), UInt8.ofNat (0x80 + n % 64)] := by
  simp only [encodeChar, hn, Nat.div_one]
  rw [if_neg (by omega), if_pos h']

theorem encodeChar_of_width3 {c : Char} {n : Nat} (hn : c.toNat = n) (h : 0x800 ≤ n)
    (h' : n < 0x10000) :
    encodeChar c = [UInt8.ofNat (0xE0 + n / 4096), UInt8.ofNat (0x80 + n / 64 % 64),
      UInt8.ofNat (0x80 + n % 64)] := by
  simp only [encodeChar, hn, Nat.div_one]
  rw [if_neg (by omega), if_neg (by omega), if_pos h']

theorem encodeChar_of_width4 {c : Char} {n : Nat} (hn : c.toNat = n) (h : 0x10000 ≤ n) :
    encodeChar c = [UInt8.ofNat (0xF0 + n / 262144), UInt8.ofNat (0x80 + n / 4096 % 64),
      UInt8.ofNat (0x80 + n / 64 % 64), UInt8.ofNat (0x80 + n % 64)] := by
  simp only [encodeChar, hn, Nat.div_one]
  rw [if_neg (by omega), if_neg (by omega), if_neg (by omega)]

theorem decodeFrom_width1 (i : Nat) {b0 : UInt8} (rest : Bytes) (h : b0.toNat < 0x80) :
    decodeFrom i (b0 :: rest) = (decodeFrom (i + 1) rest).map (Char.ofNat b0.toNat :: ·) := by
  rw [decodeFrom.eq_def]
  simp only [UInt8.lt_iff_toNat_lt, UInt8.reduceToNat]
  rw [if_pos h]

theorem decodeFrom_width2 (i : Nat) {b0 b1 : UInt8} (rest : Bytes) (h : 0xC2 ≤ b0.toNat)
    (h' : b0.toNat < 0xE0) (h1 : isTail b1 = true) :
    decodeFrom i (b0 :: b1 :: rest) = (decodeFrom (i + 2) rest).map (char2 b0 b1 :: ·) := by
  rw [decodeFrom.eq_def]
  simp only [UInt8.lt_iff_toNat_lt, UInt8.reduceToNat]
  rw [if_neg (by omega), if_neg (by omega), if_pos h']
  simp only [h1, Bool.not_true, Bool.false_eq_true, if_false]

theorem decodeFrom_width3 (i : Nat) {b0 b1 b2 : UInt8} (rest : Bytes) (h : 0xE0 ≤ b0.toNat)
    (h' : b0.toNat < 0xF0) (h1 : isSecondOfThree b0 b1 = true) (h2 : isTail b2 = true) :
    decodeFrom i (b0 :: b1 :: b2 :: rest) =
      (decodeFrom (i + 3) rest).map (char3 b0 b1 b2 :: ·) := by
  rw [decodeFrom.eq_def]
  simp only [UInt8.lt_iff_toNat_lt, UInt8.reduceToNat]
  rw [if_neg (by omega), if_neg (by omega), if_neg (by omega), if_pos h']
  simp only [h1, h2, Bool.not_true, Bool.false_eq_true, if_false]

theorem decodeFrom_width4 (i : Nat) {b0 b1 b2 b3 : UInt8} (rest : Bytes) (h : 0xF0 ≤ b0.toNat)
    (h' : b0.toNat < 0xF5) (h1 : isSecondOfFour b0 b1 = true) (h2 : isTail b2 = true)
    (h3 : isTail b3 = true) :
    decodeFrom i (b0 :: b1 :: b2 :: b3 :: rest) =
      (decodeFrom (i + 4) rest).map (char4 b0 b1 b2 b3 :: ·) := by
  rw [decodeFrom.eq_def]
  simp only [UInt8.lt_iff_toNat_lt, UInt8.reduceToNat]
  rw [if_neg (by omega), if_neg (by omega), if_neg (by omega), if_neg (by omega), if_pos h']
  simp only [h1, h2, h3, Bool.not_true, Bool.false_eq_true, if_false]

theorem one_le_length_encodeChar (c : Char) : 1 ≤ (encodeChar c).length := by
  simp only [encodeChar]
  split_ifs <;> simp

/-- A text has no more characters than bytes. -/
theorem length_le_length_encode (s : String) : s.toList.length ≤ (encode s).length := by
  rw [encode, encodeChars]
  induction s.toList with
  | nil => exact Nat.zero_le _
  | cons c cs ih =>
    have hc := one_le_length_encodeChar c
    rw [List.flatMap_cons, List.length_append, List.length_cons]
    omega

/-! ## What is written is read -/

/-- The bytes of a character are read as that character, whatever follows them. -/
theorem decodeFrom_encodeChar_append (i : Nat) (c : Char) (rest : Bytes) :
    ∃ j, decodeFrom i (encodeChar c ++ rest) = (decodeFrom j rest).map (c :: ·) := by
  have hv := toNat_valid c
  have hc : Char.ofNat c.toNat = c := Char.ofNat_toNat c
  obtain ⟨n, hn⟩ : ∃ n, c.toNat = n := ⟨_, rfl⟩
  rw [hn] at hv hc
  have ht (m : Nat) : (UInt8.ofNat (0x80 + m % 64)).toNat = 0x80 + m % 64 := toNat_byte (by omega)
  have htail (m : Nat) : isTail (UInt8.ofNat (0x80 + m % 64)) = true := by
    rw [isTail_iff, ht]
    omega
  by_cases h1 : n < 0x80
  · have h0 := toNat_byte (show n < 256 by omega)
    refine ⟨i + 1, ?_⟩
    rw [encodeChar_of_width1 hn h1]
    refine (decodeFrom_width1 i rest (by rw [h0]; omega)).trans ?_
    rw [h0, hc]
  by_cases h2 : n < 0x800
  · have h0 := toNat_byte (show 0xC0 + n / 64 < 256 by omega)
    refine ⟨i + 2, ?_⟩
    rw [encodeChar_of_width2 hn (by omega) h2]
    refine (decodeFrom_width2 i rest (by omega) (by omega) (htail _)).trans ?_
    rw [char2, h0, ht, show (0xC0 + n / 64) % 32 * 64 + (0x80 + n % 64) % 64 = n by omega, hc]
  by_cases h3 : n < 0x10000
  · have h0 := toNat_byte (show 0xE0 + n / 4096 < 256 by omega)
    refine ⟨i + 3, ?_⟩
    rw [encodeChar_of_width3 hn (by omega) h3]
    have hs : isSecondOfThree (UInt8.ofNat (0xE0 + n / 4096))
        (UInt8.ofNat (0x80 + n / 64 % 64)) = true := by
      rw [isSecondOfThree_iff, h0, ht]
      omega
    refine (decodeFrom_width3 i rest (by omega) (by omega) hs (htail _)).trans ?_
    rw [char3, h0, ht, ht, show (0xE0 + n / 4096) % 16 * 4096 + (0x80 + n / 64 % 64) % 64 * 64 +
      (0x80 + n % 64) % 64 = n by omega, hc]
  · have h0 := toNat_byte (show 0xF0 + n / 262144 < 256 by omega)
    refine ⟨i + 4, ?_⟩
    rw [encodeChar_of_width4 hn (by omega)]
    have hs : isSecondOfFour (UInt8.ofNat (0xF0 + n / 262144))
        (UInt8.ofNat (0x80 + n / 4096 % 64)) = true := by
      rw [isSecondOfFour_iff, h0, ht]
      omega
    refine (decodeFrom_width4 i rest (by omega) (by omega) hs (htail _) (htail _)).trans ?_
    rw [char4, h0, ht, ht, ht, show (0xF0 + n / 262144) % 8 * 262144 +
      (0x80 + n / 4096 % 64) % 64 * 4096 + (0x80 + n / 64 % 64) % 64 * 64 +
      (0x80 + n % 64) % 64 = n by omega, hc]

/-- The bytes of a list of characters are read as those characters. -/
theorem decodeFrom_encodeChars (i : Nat) (cs : List Char) :
    decodeFrom i (encodeChars cs) = .ok cs := by
  induction cs generalizing i with
  | nil => simp [encodeChars, decodeFrom]
  | cons c cs ih =>
    obtain ⟨j, hj⟩ := decodeFrom_encodeChar_append i c (encodeChars cs)
    rw [encodeChars, List.flatMap_cons]
    refine hj.trans ?_
    rw [ih]
    rfl

/-- The bytes of a text are read as that text. -/
theorem decode_encode (s : String) : decode (encode s) = .ok s := by
  rw [decode, encode, decodeFrom_encodeChars]
  simp [Except.map]

/-- Characters that are written alike are alike. -/
theorem encodeChars_injective {cs ds : List Char} (h : encodeChars cs = encodeChars ds) :
    cs = ds := by
  have hc := decodeFrom_encodeChars 0 cs
  rw [h, decodeFrom_encodeChars] at hc
  exact (Except.ok.inj hc).symm

/-! ## What is read is what was written -/

/-- A character read off some bytes is written as these bytes. -/
theorem encodeChar_char1 {b0 : UInt8} (h : b0.toNat < 0x80) :
    encodeChar (Char.ofNat b0.toNat) = [b0] := by
  rw [encodeChar_of_width1 (toNat_ofNat_of_valid (by omega)) h, UInt8.ofNat_toNat]

theorem encodeChar_char2 {b0 b1 : UInt8} (h : 0xC2 ≤ b0.toNat) (h' : b0.toNat < 0xE0)
    (h1 : isTail b1 = true) : encodeChar (char2 b0 b1) = [b0, b1] := by
  rw [isTail_iff] at h1
  rw [char2, encodeChar_of_width2 (toNat_ofNat_of_valid (by omega)) (by omega) (by omega)]
  simp only [List.cons.injEq, ← UInt8.toNat_inj, and_true]
  rw [toNat_byte (by omega), toNat_byte (by omega)]
  omega

theorem encodeChar_char3 {b0 b1 b2 : UInt8} (h : 0xE0 ≤ b0.toNat) (h' : b0.toNat < 0xF0)
    (h1 : isSecondOfThree b0 b1 = true) (h2 : isTail b2 = true) :
    encodeChar (char3 b0 b1 b2) = [b0, b1, b2] := by
  rw [isSecondOfThree_iff] at h1
  rw [isTail_iff] at h2
  rw [char3, encodeChar_of_width3 (toNat_ofNat_of_valid (by omega)) (by omega) (by omega)]
  simp only [List.cons.injEq, ← UInt8.toNat_inj, and_true]
  rw [toNat_byte (by omega), toNat_byte (by omega), toNat_byte (by omega)]
  omega

theorem encodeChar_char4 {b0 b1 b2 b3 : UInt8} (h : 0xF0 ≤ b0.toNat) (h' : b0.toNat < 0xF5)
    (h1 : isSecondOfFour b0 b1 = true) (h2 : isTail b2 = true) (h3 : isTail b3 = true) :
    encodeChar (char4 b0 b1 b2 b3) = [b0, b1, b2, b3] := by
  rw [isSecondOfFour_iff] at h1
  rw [isTail_iff] at h2 h3
  rw [char4, encodeChar_of_width4 (toNat_ofNat_of_valid (by omega)) (by omega)]
  simp only [List.cons.injEq, ← UInt8.toNat_inj, and_true]
  rw [toNat_byte (by omega), toNat_byte (by omega), toNat_byte (by omega), toNat_byte (by omega)]
  omega

/-- The step of the induction below: if a character is written as the bytes it was read off, and
the rest of the bytes are those of the rest of the characters, nothing is lost. -/
theorem append_eq_encodeChars_of_map {c : Char} {front rest : Bytes} {cs : List Char}
    {read : Except Fault (List Char)} (hc : encodeChar c = front)
    (ih : ∀ {ds : List Char}, read = .ok ds → rest = encodeChars ds)
    (h : read.map (c :: ·) = .ok cs) : front ++ rest = encodeChars cs := by
  cases read with
  | error fault => cases h
  | ok ds =>
    cases h
    rw [encodeChars, List.flatMap_cons, hc, ih rfl]
    rfl

/-- Bytes that are read as some characters are the bytes of these characters. -/
theorem eq_encodeChars_of_decodeFrom {i : Nat} {bs : Bytes} {cs : List Char}
    (h : decodeFrom i bs = .ok cs) : bs = encodeChars cs := by
  fun_induction decodeFrom i bs generalizing cs
  case case1 =>
    cases h
    rfl
  case case2 h0 ih =>
    simp only [UInt8.lt_iff_toNat_lt, UInt8.reduceToNat] at h0
    exact append_eq_encodeChars_of_map (encodeChar_char1 h0) ih h
  case case6 h0 h0' h0'' b1 rest h1 ih =>
    simp only [UInt8.lt_iff_toNat_lt, UInt8.reduceToNat] at h0 h0' h0''
    simp only [Bool.not_eq_true', Bool.not_eq_false] at h1
    exact append_eq_encodeChars_of_map (encodeChar_char2 (by omega) h0'' h1) ih h
  case case11 h0 h0' h0'' h0''' b1 h1 b2 rest h2 ih =>
    simp only [UInt8.lt_iff_toNat_lt, UInt8.reduceToNat] at h0 h0' h0'' h0'''
    simp only [Bool.not_eq_true', Bool.not_eq_false] at h1 h2
    exact append_eq_encodeChars_of_map (encodeChar_char3 (by omega) h0''' h1 h2) ih h
  case case18 h0 h0' h0'' h0''' h4 b1 h1 b2 h2 b3 rest h3 ih =>
    simp only [UInt8.lt_iff_toNat_lt, UInt8.reduceToNat] at h0 h0' h0'' h0''' h4
    simp only [Bool.not_eq_true', Bool.not_eq_false] at h1 h2 h3
    exact append_eq_encodeChars_of_map (encodeChar_char4 (by omega) h4 h1 h2 h3) ih h
  -- the other branches are the faults
  all_goals cases h

/-- Bytes that are read as a text are the bytes of that text. -/
theorem eq_encode_of_decode {bs : Bytes} {s : String} (h : decode bs = .ok s) :
    bs = encode s := by
  rw [decode] at h
  cases hd : decodeFrom 0 bs with
  | error fault => simp [hd, Except.map] at h
  | ok cs =>
    simp only [hd, Except.map, Except.ok.injEq] at h
    rw [encode, ← h, String.toList_ofList]
    exact eq_encodeChars_of_decodeFrom hd

end FieldVault.Utf8

/-
The written form of a byte string is the standard one.

The standard knows nothing of groups of three bytes. It takes a byte string as one string of bits,
the highest bit of the first byte in front, reads it off six bits at a time with zeros for the bits
that are missing at the end, writes each number as a character of the alphabet, and fills the text
up with padding to a multiple of four characters. `standardForm` says just that, place by place.
Writing works in groups instead: three bytes at a time, and a shorter tail in a case of its own.
Both give the same text. A group of three bytes is a group of four places and moves all later places
by four, so the proof is an induction on the groups; what is left is that the four sextets of a
group are its bits six by six, which is arithmetic on three bytes.
-/
import FieldVault.Text.Base64
import FieldVault.Proofs.Bytes

set_option autoImplicit false

namespace FieldVault.Base64

/-! ## The standard -/

/-- The characters that write the numbers below 64, in order. -/
def alphabet : List Char :=
  "ABCDEFGHIJKLMNOPQRSTUVWXYZabcdefghijklmnopqrstuvwxyz0123456789+/".toList

/-- A bit of a byte string, counted from the highest bit of the first byte; zero past the end. -/
def bitAt (bs : Bytes) (place : Nat) : Nat :=
  ((bs.getD (place / 8) 0).toNat >>> (7 - place % 8)) % 2

/-- The number that six bits from a place on spell. -/
def sixBits (bs : Bytes) (place : Nat) : Nat :=
  32 * bitAt bs place + 16 * bitAt bs (place + 1) + 8 * bitAt bs (place + 2) +
    4 * bitAt bs (place + 3) + 2 * bitAt bs (place + 4) + bitAt bs (place + 5)

/-- The number of characters that the bits of so many bytes take. -/
def symbolCount (size : Nat) : Nat := (8 * size + 5) / 6

/-- The text of a byte string by the standard. -/
def standardForm (bs : Bytes) : List Char :=
  (List.range (symbolCount bs.length)).map (fun i => alphabet.getD (sixBits bs (6 * i)) '=') ++
    List.replicate ((4 - symbolCount bs.length % 4) % 4) '='

/-! ## The bits of a group -/

section Groups

variable {a b c : UInt8} {bs : Bytes}

/-- The sextets of three bytes are their bits, six by six. -/
theorem sixBits_of_group (bs : Bytes) (ha : bs.getD 0 0 = a) (hb : bs.getD 1 0 = b)
    (hc : bs.getD 2 0 = c) :
    sixBits bs 0 = (sextet0 a).val ∧ sixBits bs 6 = (sextet1 a b).val ∧
      sixBits bs 12 = (sextet2 b c).val ∧ sixBits bs 18 = (sextet3 c).val := by
  have hat := a.toNat_lt
  have hbt := b.toNat_lt
  have hct := c.toNat_lt
  simp only [sixBits, bitAt, sextet0, sextet1, sextet2, sextet3, Fin.ofNat, Nat.reduceAdd,
    Nat.reduceDiv, Nat.reduceMod, Nat.reduceSub, ha, hb, hc, Nat.shiftRight_eq_div_pow,
    Nat.reducePow]
  omega

/-- Past the first three bytes the bits are those of the rest. -/
theorem sixBits_cons_group (place : Nat) :
    sixBits (a :: b :: c :: bs) (24 + place) = sixBits bs place := by
  have hbit : ∀ p, bitAt (a :: b :: c :: bs) (24 + p) = bitAt bs p := by
    intro p
    have hdiv : (24 + p) / 8 = p / 8 + 3 := by omega
    have hmod : (24 + p) % 8 = p % 8 := by omega
    simp only [bitAt, hdiv, hmod, List.getD_cons_succ]
  simp only [sixBits, Nat.add_assoc, hbit]

/-- Three bytes in front put four characters in front. -/
theorem standardForm_cons_group :
    standardForm (a :: b :: c :: bs) =
      [alphabet.getD (sextet0 a) '=', alphabet.getD (sextet1 a b) '=',
        alphabet.getD (sextet2 b c) '=', alphabet.getD (sextet3 c) '='] ++ standardForm bs := by
  have hcount : symbolCount (bs.length + 1 + 1 + 1) = 4 + symbolCount bs.length := by
    simp only [symbolCount]
    omega
  obtain ⟨h0, h1, h2, h3⟩ :=
    sixBits_of_group (a := a) (b := b) (c := c) (a :: b :: c :: bs) rfl rfl rfl
  have hmod : (4 + symbolCount bs.length) % 4 = symbolCount bs.length % 4 := by omega
  have hfirst : (List.range 4).map
      (fun i => alphabet.getD (sixBits (a :: b :: c :: bs) (6 * i)) '=') =
      [alphabet.getD (sextet0 a) '=', alphabet.getD (sextet1 a b) '=',
        alphabet.getD (sextet2 b c) '=', alphabet.getD (sextet3 c) '='] := by
    rw [← h0, ← h1, ← h2, ← h3]
    rfl
  have hlater : ∀ i, sixBits (a :: b :: c :: bs) (6 * (4 + i)) = sixBits bs (6 * i) := by
    intro i
    rw [Nat.mul_add, sixBits_cons_group]
  unfold standardForm
  simp only [List.length_cons, hcount, hmod, List.range_add, List.map_append, List.map_map,
    Function.comp_def, hlater, hfirst, List.append_assoc]

end Groups

/-! ## Writing follows the standard -/

theorem char_symbol : ∀ s : Sextet, Char.ofNat (symbol s).toNat = alphabet.getD s '=' := by
  decide +kernel

theorem char_padByte : Char.ofNat padByte.toNat = '=' := by
  decide

/-- **What is written is the standard form.** -/
theorem chars_encode (bs : Bytes) :
    (encode bs).map (fun b => Char.ofNat b.toNat) = standardForm bs := by
  fun_induction encode bs
  case case1 => rfl
  case case2 a =>
    -- Two characters for one byte, the second of them filled up with zeros.
    obtain ⟨h0, h1, -, -⟩ := sixBits_of_group (a := a) (b := 0) (c := 0) [a] rfl rfl rfl
    have hcount : symbolCount [a].length = 2 := by simp [symbolCount]
    simp only [List.map_cons, List.map_nil, char_symbol, char_padByte, ← h0, ← h1]
    rw [standardForm, hcount]
    rfl
  case case3 a b =>
    obtain ⟨h0, h1, h2, -⟩ := sixBits_of_group (a := a) (b := b) (c := 0) [a, b] rfl rfl rfl
    have hcount : symbolCount [a, b].length = 3 := by simp [symbolCount]
    simp only [List.map_cons, List.map_nil, char_symbol, char_padByte, ← h0, ← h1, ← h2]
    rw [standardForm, hcount]
    rfl
  case case4 a b c rest ih =>
    rw [standardForm_cons_group]
    simp only [List.map_cons, char_symbol, ih, List.cons_append, List.nil_append]

end FieldVault.Base64

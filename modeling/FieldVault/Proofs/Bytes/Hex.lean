/-
What bytes are written with in hexadecimal, and that they are read back.

A byte is two numbers below sixteen, and each of these has a digit of its own. So a fact about the
sixteen digits is a fact about everything that is written.
-/
import FieldVault.Bytes.Hex

set_option autoImplicit false

namespace FieldVault.Hex

theorem length_digits (bs : Bytes) : (digits bs).length = 2 * bs.length := by
  induction bs with
  | nil => rfl
  | cons b bs ih =>
    rw [digits, List.length_cons, List.length_cons, List.length_cons, ih]
    omega

/-- A fact about sixteen digits, for all that is written. -/
theorem forall_mem_digits {P : Char → Prop} (h : ∀ n < 16, P (digit n)) (bs : Bytes) :
    ∀ c ∈ digits bs, P c := by
  induction bs with
  | nil =>
    intro c hc
    cases hc
  | cons b bs ih =>
    have hb := b.toNat_lt
    simp only [digits, List.mem_cons]
    rintro c (rfl | rfl | hc)
    · exact h _ (by omega)
    · exact h _ (by omega)
    · exact ih c hc

theorem isDigit_of_mem_digits {bs : Bytes} {c : Char} (h : c ∈ digits bs) : isDigit c = true :=
  forall_mem_digits (P := fun c => isDigit c = true) (by decide) bs c h

/-- The digits that bytes are written with. -/
def lowerDigits : List Char := "0123456789abcdef".toList

theorem mem_lowerDigits_of_mem_digits {bs : Bytes} {c : Char} (h : c ∈ digits bs) :
    c ∈ lowerDigits :=
  forall_mem_digits (P := fun c => c ∈ lowerDigits) (by decide) bs c h

theorem value?_digit {n : Nat} (h : n < 16) : value? (digit n) = some n := by
  revert n
  decide

/-- The digits of bytes are read as the bytes. -/
theorem bytes?_digits (bs : Bytes) : bytes? (digits bs) = some bs := by
  induction bs with
  | nil => rfl
  | cons b bs ih =>
    have hb := b.toNat_lt
    have hbyte : 16 * (b.toNat / 16) + b.toNat % 16 = b.toNat := by omega
    rw [digits, bytes?, value?_digit (by omega), value?_digit (by omega), ih]
    simp only [bind, Option.bind, pure, hbyte, UInt8.ofNat_toNat]

/-- A byte is the number that its digits write after two zeros. -/
theorem number?_digits {n : Nat} (h : n < 256) :
    number? ['0', '0', digit (n / 16), digit (n % 16)] = some n := by
  have hzero : value? '0' = some 0 := rfl
  have hhigh := value?_digit (show n / 16 < 16 by omega)
  have hlow := value?_digit (show n % 16 < 16 by omega)
  simp only [number?, List.foldl_cons, List.foldl_nil, hzero, hhigh, hlow, bind, Option.bind, pure,
    Option.some.injEq]
  omega

end FieldVault.Hex

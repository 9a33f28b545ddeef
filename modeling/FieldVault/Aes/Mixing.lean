/-
The diffusion step of AES: rows are shifted, columns are mixed.

Shifting moves bytes between columns and is undone by moving them back. Mixing multiplies each
column by a fixed matrix over the field of 256 elements; unmixing multiplies by the inverse matrix.
All products are by constants, hence sums of doublings, and `double` is the only field operation.
-/
import FieldVault.Bytes

set_option autoImplicit false

namespace FieldVault.Aes

/-! ## Products by constants -/

/-- Twice a field element, reduced by x⁸ + x⁴ + x³ + x + 1. -/
def double (b : UInt8) : UInt8 := (b <<< 1) ^^^ (if b &&& 0x80 = 0 then 0 else 0x1B)

/-- Three times a field element. -/
def times3 (b : UInt8) : UInt8 := double b ^^^ b

/-- Nine times a field element. -/
def times9 (b : UInt8) : UInt8 := double (double (double b)) ^^^ b

/-- Eleven times a field element. -/
def times11 (b : UInt8) : UInt8 := double (double (double b)) ^^^ double b ^^^ b

/-- Thirteen times a field element. -/
def times13 (b : UInt8) : UInt8 := double (double (double b)) ^^^ double (double b) ^^^ b

/-- Fourteen times a field element. -/
def times14 (b : UInt8) : UInt8 := double (double (double b)) ^^^ double (double b) ^^^ double b

/-! ## Columns -/

/-- A column times the matrix with first row 2, 3, 1, 1, each row the one above shifted right. -/
def mixWord (w : Word) : Word :=
  ⟨double w.b0 ^^^ times3 w.b1 ^^^ w.b2 ^^^ w.b3,
   w.b0 ^^^ double w.b1 ^^^ times3 w.b2 ^^^ w.b3,
   w.b0 ^^^ w.b1 ^^^ double w.b2 ^^^ times3 w.b3,
   times3 w.b0 ^^^ w.b1 ^^^ w.b2 ^^^ double w.b3⟩

/-- A column times the inverse matrix, with first row 14, 11, 13, 9. -/
def unmixWord (w : Word) : Word :=
  ⟨times14 w.b0 ^^^ times11 w.b1 ^^^ times13 w.b2 ^^^ times9 w.b3,
   times9 w.b0 ^^^ times14 w.b1 ^^^ times11 w.b2 ^^^ times13 w.b3,
   times13 w.b0 ^^^ times9 w.b1 ^^^ times14 w.b2 ^^^ times11 w.b3,
   times11 w.b0 ^^^ times13 w.b1 ^^^ times9 w.b2 ^^^ times14 w.b3⟩

/-- Mixes the four columns. -/
def mix (b : Block) : Block := ⟨mixWord b.w0, mixWord b.w1, mixWord b.w2, mixWord b.w3⟩

/-- Unmixes the four columns. -/
def unmix (b : Block) : Block := ⟨unmixWord b.w0, unmixWord b.w1, unmixWord b.w2, unmixWord b.w3⟩

/-! ## Rows -/

/-- Row `r` moves `r` columns to the left. -/
def shiftRows (b : Block) : Block :=
  ⟨⟨b.w0.b0, b.w1.b1, b.w2.b2, b.w3.b3⟩, ⟨b.w1.b0, b.w2.b1, b.w3.b2, b.w0.b3⟩,
   ⟨b.w2.b0, b.w3.b1, b.w0.b2, b.w1.b3⟩, ⟨b.w3.b0, b.w0.b1, b.w1.b2, b.w2.b3⟩⟩

/-- Row `r` moves `r` columns to the right. -/
def unshiftRows (b : Block) : Block :=
  ⟨⟨b.w0.b0, b.w3.b1, b.w2.b2, b.w1.b3⟩, ⟨b.w1.b0, b.w0.b1, b.w3.b2, b.w2.b3⟩,
   ⟨b.w2.b0, b.w1.b1, b.w0.b2, b.w3.b3⟩, ⟨b.w3.b0, b.w2.b1, b.w1.b2, b.w0.b3⟩⟩

theorem unshiftRows_shiftRows (b : Block) : unshiftRows (shiftRows b) = b := rfl

theorem shiftRows_unshiftRows (b : Block) : shiftRows (unshiftRows b) = b := rfl

end FieldVault.Aes

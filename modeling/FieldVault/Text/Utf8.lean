/-
UTF-8.

A text is written with one to four bytes per character. Reading goes left to right and stops at
the first byte that no well-formed text could have there. The fault tells where the broken
character starts and, unless the bytes merely end too early, how many bytes of it were still
acceptable: the second byte is checked against the range its first byte allows, which excludes
overlong forms, surrogates and numbers above U+10FFFF before a third byte is looked at.
-/
import FieldVault.Bytes

set_option autoImplicit false

namespace FieldVault.Utf8

/-! ## Writing -/

/-- The bytes of one character. -/
def encodeChar (c : Char) : Bytes :=
  let n := c.toNat
  let tail (shift : Nat) : UInt8 := UInt8.ofNat (0x80 + n / shift % 64)
  if n < 0x80 then [UInt8.ofNat n]
  else if n < 0x800 then [UInt8.ofNat (0xC0 + n / 64), tail 1]
  else if n < 0x10000 then [UInt8.ofNat (0xE0 + n / 4096), tail 64, tail 1]
  else [UInt8.ofNat (0xF0 + n / 262144), tail 4096, tail 64, tail 1]

/-- The bytes of a list of characters. -/
def encodeChars (cs : List Char) : Bytes := cs.flatMap encodeChar

/-- The bytes of a text. -/
def encode (s : String) : Bytes := encodeChars s.toList

/-! ## Reading -/

/-- Why bytes are no text. -/
inductive Fault where
  /-- `length` bytes from `index` on start no character. -/
  | invalid (length index : Nat)
  /-- The bytes end within the character that starts at `index`. -/
  | incomplete (index : Nat)
deriving DecidableEq

/-- The wording of a fault. -/
def Fault.message : Fault → String
  | .invalid length index => s!"invalid utf-8 sequence of {length} bytes from index {index}"
  | .incomplete index => s!"incomplete utf-8 byte sequence from index {index}"

/-- A byte that can only continue a character. -/
def isTail (b : UInt8) : Bool := 0x80 ≤ b && b ≤ 0xBF

/-- The second bytes that may follow the first byte of a three-byte character. -/
def isSecondOfThree (b0 b1 : UInt8) : Bool :=
  if b0 = 0xE0 then 0xA0 ≤ b1 && b1 ≤ 0xBF
  else if b0 = 0xED then 0x80 ≤ b1 && b1 ≤ 0x9F
  else isTail b1

/-- The second bytes that may follow the first byte of a four-byte character. -/
def isSecondOfFour (b0 b1 : UInt8) : Bool :=
  if b0 = 0xF0 then 0x90 ≤ b1 && b1 ≤ 0xBF
  else if b0 = 0xF4 then 0x80 ≤ b1 && b1 ≤ 0x8F
  else isTail b1

/-- The character of two bytes. -/
def char2 (b0 b1 : UInt8) : Char := Char.ofNat (b0.toNat % 32 * 64 + b1.toNat % 64)

/-- The character of three bytes. -/
def char3 (b0 b1 b2 : UInt8) : Char :=
  Char.ofNat (b0.toNat % 16 * 4096 + b1.toNat % 64 * 64 + b2.toNat % 64)

/-- The character of four bytes. -/
def char4 (b0 b1 b2 b3 : UInt8) : Char :=
  Char.ofNat (b0.toNat % 8 * 262144 + b1.toNat % 64 * 4096 + b2.toNat % 64 * 64 + b3.toNat % 64)

/-- Reads characters from bytes, the first of which is the `i`-th of the whole. -/
def decodeFrom (i : Nat) : Bytes → Except Fault (List Char)
  | [] => .ok []
  | b0 :: r0 =>
    if b0 < 0x80 then
      (decodeFrom (i + 1) r0).map (Char.ofNat b0.toNat :: ·)
    else if b0 < 0xC2 then .error (.invalid 1 i)
    else if b0 < 0xE0 then
      match r0 with
      | [] => .error (.incomplete i)
      | b1 :: r1 =>
        if !isTail b1 then .error (.invalid 1 i)
        else (decodeFrom (i + 2) r1).map (char2 b0 b1 :: ·)
    else if b0 < 0xF0 then
      match r0 with
      | [] => .error (.incomplete i)
      | b1 :: r1 =>
        if !isSecondOfThree b0 b1 then .error (.invalid 1 i)
        else match r1 with
          | [] => .error (.incomplete i)
          | b2 :: r2 =>
            if !isTail b2 then .error (.invalid 2 i)
            else (decodeFrom (i + 3) r2).map (char3 b0 b1 b2 :: ·)
    else if b0 < 0xF5 then
      match r0 with
      | [] => .error (.incomplete i)
      | b1 :: r1 =>
        if !isSecondOfFour b0 b1 then .error (.invalid 1 i)
        else match r1 with
          | [] => .error (.incomplete i)
          | b2 :: r2 =>
            if !isTail b2 then .error (.invalid 2 i)
            else match r2 with
              | [] => .error (.incomplete i)
              | b3 :: r3 =>
                if !isTail b3 then .error (.invalid 3 i)
                else (decodeFrom (i + 4) r3).map (char4 b0 b1 b2 b3 :: ·)
    else .error (.invalid 1 i)

/-- Reads a text from its bytes. -/
def decode (bs : Bytes) : Except Fault String := (decodeFrom 0 bs).map String.ofList

end FieldVault.Utf8

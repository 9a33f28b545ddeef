/-
Hexadecimal text of bytes.

Two digits per byte, high half first. Writing uses lower case; reading takes either case and
refuses an odd digit and every other character.
-/
import FieldVault.Bytes

set_option autoImplicit false

namespace FieldVault.Hex

/-- The lower-case digit of a number below sixteen. -/
def digit (n : Nat) : Char :=
  if n < 10 then Char.ofNat (48 + n) else Char.ofNat (87 + n)

/-- The value of a hexadecimal digit of either case. -/
def value? (c : Char) : Option Nat :=
  let n := c.toNat
  if 48 ≤ n ∧ n ≤ 57 then some (n - 48)
  else if 97 ≤ n ∧ n ≤ 102 then some (n - 87)
  else if 65 ≤ n ∧ n ≤ 70 then some (n - 55)
  else none

/-- A hexadecimal digit of either case. -/
def isDigit (c : Char) : Bool := (value? c).isSome

/-- The digits of a byte string. -/
def digits : Bytes → List Char
  | [] => []
  | b :: bs => digit (b.toNat / 16) :: digit (b.toNat % 16) :: digits bs

/-- The hexadecimal text of a byte string. -/
def encode (bs : Bytes) : String := String.ofList (digits bs)

/-- Reads digits in pairs. -/
def bytes? : List Char → Option Bytes
  | [] => some []
  | [_] => none
  | c :: d :: rest => do
    let hi ← value? c
    let lo ← value? d
    let bs ← bytes? rest
    return UInt8.ofNat (16 * hi + lo) :: bs

/-- Reads a hexadecimal text. -/
def decode? (s : String) : Option Bytes := bytes? s.toList

/-- The number that digits of base sixteen write, most significant first. -/
def number? (cs : List Char) : Option Nat :=
  cs.foldl (fun acc c => do return 16 * (← acc) + (← value? c)) (some 0)

end FieldVault.Hex

/-
Base64 with the standard alphabet and mandatory padding.

Three bytes are four sextets. A byte string has exactly one written form: reading refuses missing
or superfluous padding, padding anywhere but at the end, and unused low bits that are not zero. So
`decode` inverts `encode`, and whatever it accepts is what `encode` writes.

A text may break several rules at once. The fault reported is settled by the order in which the
rules are applied: a lone last byte outside the alphabet, then every group of four but the last,
then the last group from left to right, then its count of sextets, its padding and its unused bits.
-/
import FieldVault.Bytes

set_option autoImplicit false

namespace FieldVault.Base64

/-- Six bits. -/
abbrev Sextet := Fin 64

/-- The padding byte `=`. -/
def padByte : UInt8 := 61

/-! ## The alphabet -/

/-- The byte that writes a sextet. -/
def symbol (s : Sextet) : UInt8 :=
  let n := s.val
  if n < 26 then UInt8.ofNat (65 + n)
  else if n < 52 then UInt8.ofNat (71 + n)
  else if n < 62 then UInt8.ofNat (n - 4)
  else if n = 62 then 43
  else 47

/-- The sextet that a byte of the alphabet writes. -/
def sextet? (b : UInt8) : Option Sextet :=
  let n := b.toNat
  if 65 ≤ n ∧ n ≤ 90 then some (Fin.ofNat 64 (n - 65))
  else if 97 ≤ n ∧ n ≤ 122 then some (Fin.ofNat 64 (n - 71))
  else if 48 ≤ n ∧ n ≤ 57 then some (Fin.ofNat 64 (n + 4))
  else if n = 43 then some 62
  else if n = 47 then some 63
  else none

/-! ## Sextets and bytes -/

/-- The high six bits of the first byte. -/
def sextet0 (a : UInt8) : Sextet := Fin.ofNat 64 (a.toNat / 4)

/-- The low two bits of the first byte and the high four of the second. -/
def sextet1 (a b : UInt8) : Sextet := Fin.ofNat 64 (a.toNat % 4 * 16 + b.toNat / 16)

/-- The low four bits of the second byte and the high two of the third. -/
def sextet2 (b c : UInt8) : Sextet := Fin.ofNat 64 (b.toNat % 16 * 4 + c.toNat / 64)

/-- The low six bits of the third byte. -/
def sextet3 (c : UInt8) : Sextet := Fin.ofNat 64 (c.toNat % 64)

/-- The first byte of a group. -/
def byte0 (s t : Sextet) : UInt8 := UInt8.ofNat (s.val * 4 + t.val / 16)

/-- The second byte of a group. -/
def byte1 (t u : Sextet) : UInt8 := UInt8.ofNat (t.val % 16 * 16 + u.val / 4)

/-- The third byte of a group. -/
def byte2 (u v : Sextet) : UInt8 := UInt8.ofNat (u.val % 4 * 64 + v.val)

/-! ## Writing -/

/-- The written form of a byte string. -/
def encode : Bytes → Bytes
  | [] => []
  | [a] => [symbol (sextet0 a), symbol (sextet1 a 0), padByte, padByte]
  | [a, b] => [symbol (sextet0 a), symbol (sextet1 a b), symbol (sextet2 b 0), padByte]
  | a :: b :: c :: rest =>
    symbol (sextet0 a) :: symbol (sextet1 a b) :: symbol (sextet2 b c) :: symbol (sextet3 c) ::
      encode rest

/-! ## Reading -/

/-- Why bytes are not the written form of anything. -/
inductive Fault where
  /-- The byte at `offset` cannot stand there. -/
  | invalidSymbol (byte : UInt8) (offset : Nat)
  /-- The sextets, `length` in all, leave less than a byte in the last group. -/
  | invalidLength (length : Nat)
  /-- The last group is not padded to four. -/
  | invalidPadding
  /-- The last sextet, at `offset`, has unused bits set. -/
  | invalidLastSymbol (byte : UInt8) (offset : Nat)
deriving DecidableEq

/-- The wording of a fault. -/
def Fault.message : Fault → String
  | .invalidSymbol byte offset => s!"Invalid symbol {byte.toNat}, offset {offset}."
  | .invalidLength length => s!"Invalid input length: {length}"
  | .invalidPadding => "Invalid padding"
  | .invalidLastSymbol byte offset => s!"Invalid last symbol {byte.toNat}, offset {offset}."

/-- The sextet at `offset`, or the fault that there is none. -/
def sextetAt (offset : Nat) (b : UInt8) : Except Fault Sextet :=
  match sextet? b with
  | some s => .ok s
  | none => .error (.invalidSymbol b offset)

/-- The padding bytes of the last group after the first of them, which stands at `pad`: nothing
but padding may follow. Answers how many there are. -/
def paddingFrom (pad : Nat) : Bytes → Except Fault Nat
  | [] => .ok 0
  | b :: bs =>
    if b = padByte then (paddingFrom pad bs).map (· + 1)
    else .error (.invalidSymbol padByte pad)

/-- Splits the last group into its sextets and the number of padding bytes. `offset` is the place
of the first byte in the whole, `place` its place in the group: padding may not begin before the
third. -/
def lastSextets (offset place : Nat) : Bytes → Except Fault (List Sextet × Nat)
  | [] => .ok ([], 0)
  | b :: bs =>
    if b = padByte then
      if place < 2 then .error (.invalidSymbol b offset)
      else (paddingFrom offset bs).map fun n => ([], n + 1)
    else do
      let s ← sextetAt offset b
      let (ss, pads) ← lastSextets (offset + 1) (place + 1) bs
      return (s :: ss, pads)

/-- The bytes of the last group, which starts at `offset` and is not empty. -/
def decodeLast (offset : Nat) (bs : Bytes) : Except Fault Bytes := do
  let (ss, pads) ← lastSextets offset 0 bs
  if ss.length < 2 then throw (.invalidLength (offset + ss.length))
  if ss.length + pads ≠ 4 then throw .invalidPadding
  match ss with
  | [s, t] =>
    if t.val % 16 = 0 then return [byte0 s t]
    else throw (.invalidLastSymbol (symbol t) (offset + 1))
  | [s, t, u] =>
    if u.val % 4 = 0 then return [byte0 s t, byte1 t u]
    else throw (.invalidLastSymbol (symbol u) (offset + 2))
  | [s, t, u, v] => return [byte0 s t, byte1 t u, byte2 u v]
  | _ => throw .invalidPadding

/-- The bytes of all groups, the first of which starts at `offset`. Only the last group may hold
padding or be short. -/
def decodeFrom (offset : Nat) : Bytes → Except Fault Bytes
  | [] => .ok []
  | b0 :: b1 :: b2 :: b3 :: b4 :: rest => do
    let s ← sextetAt offset b0
    let t ← sextetAt (offset + 1) b1
    let u ← sextetAt (offset + 2) b2
    let v ← sextetAt (offset + 3) b3
    let bs ← decodeFrom (offset + 4) (b4 :: rest)
    return byte0 s t :: byte1 t u :: byte2 u v :: bs
  | bs => decodeLast offset bs

/-- The last byte, where it stands alone in its group and is neither padding nor in the alphabet. -/
def loneIntruder? (bs : Bytes) : Option UInt8 :=
  if bs.length % 4 = 1 then bs.getLast?.filter fun b => b != padByte && (sextet? b).isNone
  else none

/-- Reads the written form of a byte string. -/
def decode (bs : Bytes) : Except Fault Bytes :=
  match loneIntruder? bs with
  | some b => .error (.invalidSymbol b (bs.length - 1))
  | none => decodeFrom 0 bs

end FieldVault.Base64

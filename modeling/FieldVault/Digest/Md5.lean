/-
MD5.

A state of four numbers is folded over the chunks of the message. Each chunk goes through four
stages of sixteen steps, each stage reading the words of the chunk in an order of its own; the
result is added to the state.
-/
import FieldVault.Digest.Message

set_option autoImplicit false

namespace FieldVault.Digest.Md5

/-- The four numbers of the state. -/
structure State where
  a : UInt32
  b : UInt32
  c : UInt32
  d : UInt32

/-- The state before the first chunk. -/
def State.initial : State := ⟨0x67452301, 0xEFCDAB89, 0x98BADCFE, 0x10325476⟩

/-- Sums the numbers of two states. -/
def State.add (s t : State) : State := ⟨s.a + t.a, s.b + t.b, s.c + t.c, s.d + t.d⟩

/-- The constants of the steps: 2³² times the absolute sine of the step number. -/
def sines : List UInt32 := [
  0xD76AA478, 0xE8C7B756, 0x242070DB, 0xC1BDCEEE, 0xF57C0FAF, 0x4787C62A, 0xA8304613, 0xFD469501,
  0x698098D8, 0x8B44F7AF, 0xFFFF5BB1, 0x895CD7BE, 0x6B901122, 0xFD987193, 0xA679438E, 0x49B40821,
  0xF61E2562, 0xC040B340, 0x265E5A51, 0xE9B6C7AA, 0xD62F105D, 0x02441453, 0xD8A1E681, 0xE7D3FBC8,
  0x21E1CDE6, 0xC33707D6, 0xF4D50D87, 0x455A14ED, 0xA9E3E905, 0xFCEFA3F8, 0x676F02D9, 0x8D2A4C8A,
  0xFFFA3942, 0x8771F681, 0x6D9D6122, 0xFDE5380C, 0xA4BEEA44, 0x4BDECFA9, 0xF6BB4B60, 0xBEBFBC70,
  0x289B7EC6, 0xEAA127FA, 0xD4EF3085, 0x04881D05, 0xD9D4D039, 0xE6DB99E5, 0x1FA27CF8, 0xC4AC5665,
  0xF4292244, 0x432AFF97, 0xAB9423A7, 0xFC93A039, 0x655B59C3, 0x8F0CCC92, 0xFFEFF47D, 0x85845DD1,
  0x6FA87E4F, 0xFE2CE6E0, 0xA3014314, 0x4E0811A1, 0xF7537E82, 0xBD3AF235, 0x2AD7D2BB, 0xEB86D391]

/-- A stage: how three of the numbers are combined, how far the sums are rotated, and which word of
the chunk its step number `i` reads. -/
structure Stage where
  combine : UInt32 → UInt32 → UInt32 → UInt32
  rotations : List Nat
  wordAt : Nat → Nat

/-- The four stages. -/
def stages : List Stage := [
  ⟨fun x y z => (x &&& y) ||| (~~~x &&& z), [7, 12, 17, 22], fun i => i⟩,
  ⟨fun x y z => (z &&& x) ||| (~~~z &&& y), [5, 9, 14, 20], fun i => (5 * i + 1) % 16⟩,
  ⟨fun x y z => x ^^^ y ^^^ z, [4, 11, 16, 23], fun i => (3 * i + 5) % 16⟩,
  ⟨fun x y z => y ^^^ (x ||| ~~~z), [6, 10, 15, 21], fun i => (7 * i) % 16⟩]

/-- Step number `i` of a stage. -/
def step (chunk : List UInt32) (stage : Stage) (s : State) (i : Nat) (sine : UInt32) : State :=
  let sum := s.a + stage.combine s.b s.c s.d + sine + chunk.getD (stage.wordAt i) 0
  ⟨s.d, s.b + rotateLeft sum (stage.rotations.getD (i % 4) 0), s.b, s.c⟩

/-- The steps of a stage from number `i` on, one for each constant. -/
def steps (chunk : List UInt32) (stage : Stage) : (i : Nat) → List UInt32 → State → State
  | _, [], s => s
  | i, sine :: rest, s => steps chunk stage (i + 1) rest (step chunk stage s i sine)

/-- The stages, sixteen constants each. -/
def runStages (chunk : List UInt32) : List Stage → List UInt32 → State → State
  | [], _, s => s
  | stage :: rest, constants, s =>
    runStages chunk rest (constants.drop 16) (steps chunk stage 0 (constants.take 16) s)

/-- The state after one more chunk. -/
def absorb (s : State) (chunk : List UInt32) : State := s.add (runStages chunk stages sines s)

/-- The sixteen bytes of a state. -/
def State.bytes (s : State) : Bytes := Word.bytes ([s.a, s.b, s.c, s.d].map Word.ofLittleEndian)

end Md5

/-- The MD5 digest of a byte string, sixteen bytes. -/
def md5 (message : Bytes) : Bytes :=
  ((chunks .lowFirst message).foldl Md5.absorb .initial).bytes

end FieldVault.Digest

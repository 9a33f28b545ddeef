/-
Resolving the key, once.

The first successful attempt settles the key for good; until then every request makes an attempt of
its own, so that corrected configuration is picked up. An attempt prefers the secret and derives
one from the seed only if the secret is absent or blank. The seed is not asked if asking for the
secret failed.
-/
import FieldVault.Key
import FieldVault.Key.Source

set_option autoImplicit false

namespace FieldVault

/-! ## One attempt -/

/-- What an attempt has done so far: the questions it asked, in order, and whether it fell back on
the seed. -/
structure Inquiry where
  asked : List KeyQuestion := []
  derived : Bool := false

/-- How an attempt ended: its key or its failure, with what it did on the way. -/
structure Resolution extends Inquiry where
  outcome : Except KeyError Key

namespace KeyAnswer

/-- An attempt, with a record of what it does. -/
abbrev Attempt := EStateM KeyError Inquiry

/-- Asks the source a question. -/
def ask (answer : KeyAnswer) (question : KeyQuestion) : Attempt (Option String) := do
  modify fun i => { i with asked := i.asked ++ [question] }
  MonadExcept.ofExcept (answer.to question)

/-- The secret derived from the seed. -/
def derivedSecret (answer : KeyAnswer) : Attempt String := do
  match Text.nonBlank (← answer.ask .seed) with
  | none => throw .missing
  | some seed => do
    modify fun i => { i with derived := true }
    return Key.secretOfSeed seed

/-- The secret of an attempt: the configured one, used untrimmed, or a derived one. -/
def secretToUse (answer : KeyAnswer) : Attempt String := do
  match Text.nonBlank (← answer.ask .secret) with
  | some secret => return secret
  | none => answer.derivedSecret

/-- Turns an answer of a source into a key. -/
def resolve (answer : KeyAnswer) : Resolution :=
  let attempt : Attempt Key := do MonadExcept.ofExcept (Key.ofSecret (← answer.secretToUse))
  match attempt {} with
  | .ok key inquiry => { inquiry with outcome := .ok key }
  | .error error inquiry => { inquiry with outcome := .error error }

end KeyAnswer

/-! ## Requests -/

/-- A source, the number of attempts made on it, and the key once there is one. -/
structure KeyProvider where
  source : KeySource
  attempts : Nat := 0
  key : Option Key := none

namespace KeyProvider

/-- The key is settled. -/
def isResolved (p : KeyProvider) : Bool := p.key.isSome

/-- Hands out the key, making an attempt if there is none yet. -/
def get (p : KeyProvider) : Resolution × KeyProvider :=
  match p.key with
  | some key => ({ outcome := .ok key }, p)
  | none =>
    let resolution := (p.source p.attempts).resolve
    let key :=
      match resolution.outcome with
      | .ok key => some key
      | .error _ => none
    (resolution, { p with attempts := p.attempts + 1, key })

/-- A settled key is handed out without asking the source. -/
theorem get_of_key {p : KeyProvider} {key : Key} (h : p.key = some key) :
    p.get = ({ outcome := .ok key }, p) := by
  simp [get, h]

end KeyProvider

end FieldVault

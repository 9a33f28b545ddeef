/-
Providers that answer every request for the key alike.

A provider is settled on its key, or its source answers all attempts that are still to come in the
same way. Either way the answer is one value, a key or a failure, and asking for it changes nothing
about the answers to come. This is all that the rest of a vault sees of a provider, so what a cipher
does to a value is a function of that one value.
-/
import FieldVault.Key.Provider

set_option autoImplicit false

namespace FieldVault.KeyProvider

/-- Every request, now and later, gets this answer. -/
def Answers (p : KeyProvider) (r : Except KeyError Key) : Prop :=
  match p.key with
  | some key => r = .ok key
  | none => ∀ attempt, p.attempts ≤ attempt → (p.source attempt).resolve.outcome = r

theorem answers_of_key {p : KeyProvider} {key : Key} (h : p.key = some key) :
    p.Answers (.ok key) := by
  simp only [Answers, h]

/-- The next request gets the answer. -/
theorem Answers.outcome_get {p : KeyProvider} {r : Except KeyError Key} (h : p.Answers r) :
    p.get.1.outcome = r := by
  cases hk : p.key with
  | some key =>
    simp only [Answers, hk] at h
    rw [get_of_key hk, h]
  | none =>
    simp only [Answers, hk] at h
    simp only [get, hk]
    exact h p.attempts (Nat.le_refl _)

/-- After a request the key is settled if the request got one. -/
theorem key_get (p : KeyProvider) : p.get.2.key = p.get.1.outcome.toOption := by
  cases hk : p.key with
  | some key =>
    rw [get_of_key hk]
    exact hk
  | none =>
    simp only [get, hk]
    cases (p.source p.attempts).resolve.outcome <;> rfl

/-- The requests after the next one get the answer, too. -/
theorem Answers.get {p : KeyProvider} {r : Except KeyError Key} (h : p.Answers r) :
    p.get.2.Answers r := by
  cases hk : p.key with
  | some key => rwa [get_of_key hk]
  | none =>
    simp only [Answers, hk] at h
    have hnow := h p.attempts (Nat.le_refl _)
    cases r with
    | ok key => simp only [KeyProvider.get, hk, hnow, Answers]
    | error e =>
      simp only [KeyProvider.get, hk, hnow, Answers]
      intro attempt hattempt
      exact h attempt (by omega)

/-- The answer does not contradict the key that is settled, if one is. -/
def Allows (p : KeyProvider) (r : Except KeyError Key) : Prop :=
  ∀ key, p.key = some key → r = .ok key

/-- A provider that gets this answer on every request. -/
def answering : Except KeyError Key → KeyProvider
  | .ok key => ⟨.constant ⟨.ok none, .ok none⟩, 0, some key⟩
  | .error e => ⟨.constant ⟨.error e, .ok none⟩, 0, none⟩

theorem answers_answering (r : Except KeyError Key) : (answering r).Answers r := by
  cases r with
  | ok key => exact answers_of_key rfl
  | error e =>
    intro attempt _
    rfl

end FieldVault.KeyProvider

/-
What an action answers, and the state it leaves.

An action on a state ends with an answer, a value or a failure, and leaves a state either way. Most
of what is proved about actions is about one of the two: reading a field twice gives the same answer
though the journal has grown, a failed unit of work leaves the store it began with. So the two are
taken apart here, and each way of putting actions together gets one equation for the answer and one
for the state. Later proofs rewrite with these equations and never look at how a run is represented.
The calls that a vault makes, and its units of work, are told in the same two ways.
-/
import FieldVault.Vault

set_option autoImplicit false

namespace FieldVault

variable {ε σ α β : Type}

/-- What an action answers in a state. -/
def answer (action : EStateM ε σ α) (s : σ) : Except ε α :=
  match action s with
  | .ok a _ => .ok a
  | .error e _ => .error e

/-- The state that an action leaves, however it ends. -/
def after (action : EStateM ε σ α) (s : σ) : σ :=
  match action s with
  | .ok _ s' => s'
  | .error _ s' => s'

/-! ## Putting actions together -/

/-- The second action runs in the state that the first one leaves. -/
theorem answer_bind (first : EStateM ε σ α) (next : α → EStateM ε σ β) (s : σ) :
    answer (first >>= next) s =
      (answer first s).bind fun a => answer (next a) (after first s) := by
  simp only [answer, after, bind, EStateM.bind]
  cases first s <;> rfl

theorem after_bind (first : EStateM ε σ α) (next : α → EStateM ε σ β) (s : σ) :
    after (first >>= next) s =
      match answer first s with
      | .ok a => after (next a) (after first s)
      | .error _ => after first s := by
  simp only [answer, after, bind, EStateM.bind]
  cases first s <;> rfl

/-! The two equations where it is known how the first action ends. -/

theorem answer_bind_of_ok {first : EStateM ε σ α} {s : σ} {a : α} (h : answer first s = .ok a)
    (next : α → EStateM ε σ β) :
    answer (first >>= next) s = answer (next a) (after first s) := by
  rw [answer_bind, h]
  rfl

theorem after_bind_of_ok {first : EStateM ε σ α} {s : σ} {a : α} (h : answer first s = .ok a)
    (next : α → EStateM ε σ β) : after (first >>= next) s = after (next a) (after first s) := by
  rw [after_bind, h]

theorem answer_bind_of_error {first : EStateM ε σ α} {s : σ} {e : ε}
    (h : answer first s = .error e) (next : α → EStateM ε σ β) :
    answer (first >>= next) s = .error e := by
  rw [answer_bind, h]
  rfl

theorem after_bind_of_error {first : EStateM ε σ α} {s : σ} {e : ε}
    (h : answer first s = .error e) (next : α → EStateM ε σ β) :
    after (first >>= next) s = after first s := by
  rw [after_bind, h]

/-! ## Looking at the answer -/

@[simp] theorem answer_outcome (action : EStateM ε σ α) (s : σ) :
    answer (outcome action) s = .ok (answer action s) := by
  simp only [answer, outcome]
  cases action s <;> rfl

@[simp] theorem after_outcome (action : EStateM ε σ α) (s : σ) :
    after (outcome action) s = after action s := by
  simp only [after, outcome]
  cases action s <;> rfl

/-! ## Whole runs

Where the answer is known, the run is told in one equation. -/

theorem answer_of_run {action : EStateM ε σ α} {s s' : σ} {a : α} (h : action s = .ok a s') :
    answer action s = .ok a := by
  rw [answer, h]

theorem after_of_run {action : EStateM ε σ α} {s s' : σ} {a : α} (h : action s = .ok a s') :
    after action s = s' := by
  rw [after, h]

theorem answer_of_run_error {action : EStateM ε σ α} {s s' : σ} {e : ε}
    (h : action s = .error e s') : answer action s = .error e := by
  rw [answer, h]

theorem after_of_run_error {action : EStateM ε σ α} {s s' : σ} {e : ε}
    (h : action s = .error e s') : after action s = s' := by
  rw [after, h]

theorem run_of_answer {action : EStateM ε σ α} {s : σ} {a : α} (h : answer action s = .ok a) :
    action s = .ok a (after action s) := by
  revert h
  rw [answer, after]
  cases action s with
  | ok b s' =>
    intro h
    rw [Except.ok.inj h]
  | error e s' =>
    intro h
    cases h

theorem run_of_answer_error {action : EStateM ε σ α} {s : σ} {e : ε}
    (h : answer action s = .error e) : action s = .error e (after action s) := by
  revert h
  rw [answer, after]
  cases action s with
  | ok b s' =>
    intro h
    cases h
  | error e' s' =>
    intro h
    rw [Except.error.inj h]

theorem run_bind_of_ok {first : EStateM ε σ α} {s s' : σ} {a : α} (h : first s = .ok a s')
    (next : α → EStateM ε σ β) : (first >>= next) s = next a s' := by
  simp only [bind, EStateM.bind, h]

theorem run_bind_of_error {first : EStateM ε σ α} {s s' : σ} {e : ε}
    (h : first s = .error e s') (next : α → EStateM ε σ β) :
    (first >>= next) s = .error e s' := by
  simp only [bind, EStateM.bind, h]

theorem outcome_run_of_ok {action : EStateM ε σ α} {s s' : σ} {a : α} (h : action s = .ok a s') :
    outcome action s = .ok (.ok a) s' := by
  simp only [outcome, h]

/-! ## What actions keep -/

/-- What holds of the state before the action holds after it, however it ends. -/
def Keeps (P : σ → Prop) (action : EStateM ε σ α) : Prop := ∀ s, P s → P (after action s)

namespace Keeps

variable {P : σ → Prop}

theorem pure (a : α) : Keeps P (Pure.pure a : EStateM ε σ α) := fun _ hs => hs

theorem throw (e : ε) : Keeps P (throwThe ε e : EStateM ε σ α) := fun _ hs => hs

theorem bind {first : EStateM ε σ α} {next : α → EStateM ε σ β} (h : Keeps P first)
    (hnext : ∀ a, Keeps P (next a)) : Keeps P (first >>= next) := by
  intro s hs
  rw [after_bind]
  cases answer first s with
  | ok a => exact hnext a _ (h s hs)
  | error e => exact h s hs

theorem outcome {action : EStateM ε σ α} (h : Keeps P action) :
    Keeps P (FieldVault.outcome action : EStateM ε σ (Except ε α)) := by
  intro s hs
  rw [after_outcome]
  exact h s hs

end Keeps

/-! ## Lists of answers -/

/-- The first item that fails decides how the list fails. -/
theorem mapM_of_filter_cons {g : α → Except ε β} {items rest : List α} {a : α}
    (h : items.filter (fun a => (g a).toOption.isNone) = a :: rest) :
    a ∈ items ∧ ∃ e, g a = .error e ∧ items.mapM g = .error e := by
  induction items with
  | nil => cases h
  | cons c cs ih =>
    rw [List.mapM_cons]
    cases hg : g c with
    | error e =>
      rw [List.filter_cons, hg] at h
      obtain ⟨rfl, -⟩ := List.cons.inj h
      exact ⟨List.mem_cons_self, e, hg, rfl⟩
    | ok b =>
      rw [List.filter_cons, hg] at h
      obtain ⟨hmem, e, he, hfail⟩ := ih h
      rw [hfail]
      exact ⟨List.mem_cons_of_mem c hmem, e, he, rfl⟩

/-! ## Calls

However a call ends, it has changed one component of the vault, and it fails over the store only. -/

namespace Work

theorem after_attempt (call : Call) (v : Vault) :
    ∃ outages, after (attempt call) v = { v with outages } := by
  unfold after attempt
  rcases v.outages.meet call with ⟨_ | _, outages⟩ <;> exact ⟨outages, rfl⟩

theorem answer_attempt (call : Call) (v : Vault) :
    answer (attempt call) v = .ok () ∨ ∃ e, answer (attempt call) v = .error (.store e) := by
  unfold answer attempt
  rcases v.outages.meet call with ⟨e | _, outages⟩
  · exact .inr ⟨e, rfl⟩
  · exact .inl rfl

@[simp] theorem after_ensureServing (v : Vault) : after ensureServing v = v := by
  unfold after ensureServing
  cases v.poisoned <;> rfl

theorem answer_ensureServing (v : Vault) :
    answer ensureServing v = .ok () ∨ answer ensureServing v = .error (.store .poisoned) := by
  unfold answer ensureServing
  cases v.poisoned
  · exact .inl rfl
  · exact .inr rfl

theorem after_changeStore (change : Store → Except StoreError Store) (v : Vault) :
    ∃ store, after (changeStore change) v = { v with store } := by
  unfold after changeStore
  cases change v.store with
  | ok store => exact ⟨store, rfl⟩
  | error e => exact ⟨v.store, rfl⟩

/-! ## Units of work -/

/-- The work, with the store brought back if it fails. -/
def undoing (work : Work α) : Work α := fun v =>
  match work v with
  | .ok a v' => .ok a v'
  | .error e v' => .error e { v' with store := v.store }

theorem transaction_eq (work : Work α) : transaction work = (do begin; undoing work) :=
  rfl

@[simp] theorem answer_undoing (work : Work α) (v : Vault) :
    answer (undoing work) v = answer work v := by
  simp only [answer, undoing]
  cases work v <;> rfl

theorem after_undoing (work : Work α) (v : Vault) :
    after (undoing work) v =
      match answer work v with
      | .ok _ => after work v
      | .error _ => { after work v with store := v.store } := by
  simp only [answer, after, undoing]
  cases work v <;> rfl

end Work

end FieldVault

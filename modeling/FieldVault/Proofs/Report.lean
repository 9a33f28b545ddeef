/-
What migrations report, whatever happens to them.

A report of several steps is the sum of theirs, so its counts are sums and its failures stand one
after the other. Encrypting never reports a failure, and neither does the unit of work that decrypts
an owner: a failed verification ends that unit, and only the work around it, which sees the unit
fail, puts the field on the list. These are facts about the answers alone; they hold in every vault,
with outages and without a key.
-/
import Mathlib.Algebra.GroupWithZero.Nat
import Mathlib.Data.List.Forall2
import FieldVault.Migration
import FieldVault.Proofs.Run

set_option autoImplicit false

namespace FieldVault

/-! ## Sums -/

namespace Report

theorem foldl_add (r : Report) (rs : List Report) : rs.foldl add r = r + sum rs := by
  induction rs generalizing r with
  | nil => exact (add_empty r).symm
  | cons s rs ih =>
    have hs : sum (s :: rs) = s + sum rs := (congrArg (rs.foldl add) (empty_add s)).trans (ih s)
    rw [List.foldl_cons, ih, hs, ← add_assoc]
    rfl

theorem sum_cons (r : Report) (rs : List Report) : sum (r :: rs) = r + sum rs := by
  rw [sum, List.foldl_cons, foldl_add]
  exact congrArg (· + sum rs) (empty_add r)

theorem failures_sum (rs : List Report) : (sum rs).failures = rs.flatMap failures := by
  induction rs with
  | nil => rfl
  | cons r rs ih =>
    rw [sum_cons, List.flatMap_cons, ← ih]
    rfl

/-- What adds up for two reports adds up for a list of them. -/
theorem count_sum {count : Report → Nat} (hempty : count {} = 0)
    (hadd : ∀ r s : Report, count (r + s) = count r + count s) (rs : List Report) :
    count (sum rs) = (rs.map count).sum := by
  induction rs with
  | nil => exact hempty
  | cons r rs ih => rw [sum_cons, hadd, List.map_cons, List.sum_cons, ih]

theorem fieldsChanged_sum (rs : List Report) :
    (sum rs).fieldsChanged = (rs.map fieldsChanged).sum :=
  count_sum rfl (fun _ _ => rfl) rs

theorem count_sum_eq_zero_iff {count : Report → Nat} (hempty : count {} = 0)
    (hadd : ∀ r s : Report, count (r + s) = count r + count s) {rs : List Report} :
    count (sum rs) = 0 ↔ ∀ r ∈ rs, count r = 0 := by
  rw [count_sum hempty hadd, List.sum_eq_zero_iff_forall_eq_nat, List.forall_mem_map]

theorem fieldsChanged_sum_eq_zero_iff {rs : List Report} :
    (sum rs).fieldsChanged = 0 ↔ ∀ r ∈ rs, r.fieldsChanged = 0 :=
  count_sum_eq_zero_iff rfl fun _ _ => rfl

/-- So many fields changed, and there is nothing else to report. -/
def changed (n : Nat) : Report := { fieldsChanged := n }

theorem changed_add (m n : Nat) : changed m + changed n = changed (m + n) := rfl

/-- The report of a unit of work that restores an owner: it is visited if anything changes. -/
def restoring (n : Nat) : Report := { changed n with ownersVisited := if n = 0 then 0 else 1 }

/-- A loop that changes one field for some of its items counts these items. -/
theorem sum_eq_changed {α : Type} {p : α → Bool} {items : List α} {rs : List Report}
    (h : List.Forall₂ (fun a r => r = if p a then .oneChanged else {}) items rs) :
    sum rs = changed (items.countP p) := by
  induction h with
  | nil => rfl
  | @cons a r as rs hr _ ih =>
    rw [sum_cons, ih, hr, List.countP_cons, Nat.add_comm]
    cases p a <;> rfl

/-- A loop that visits an owner for each of its failures and each of its changes counts both. -/
theorem ownersVisited_sum {α : Type} {p : α → Bool} {report : α → Report} {items : List α}
    (h : ∀ a ∈ items, (report a).ownersVisited =
      (report a).failures.length + if p a then 1 else 0) :
    (sum (items.map report)).ownersVisited =
      (sum (items.map report)).failures.length + items.countP p := by
  induction items with
  | nil => rfl
  | cons a as ih =>
    have ha := h a List.mem_cons_self
    have has := ih fun b hb => h b (List.mem_cons_of_mem a hb)
    rw [List.map_cons, sum_cons, List.countP_cons]
    simp only [add_def, add, List.length_append]
    omega

/-- A loop that changes one field for each of its items. -/
theorem sum_eq_changed_length {α : Type} {items : List α} {rs : List Report}
    (h : List.Forall₂ (fun _ r => r = .oneChanged) items rs) : sum rs = changed items.length := by
  have hall : List.Forall₂ (fun _ r => r = if true then .oneChanged else {}) items rs :=
    h.imp fun _ _ hr => hr
  rw [sum_eq_changed (p := fun _ => true) hall, List.countP_true]

/-- A loop whose items change a field, or are passed over as hashed, or neither. -/
theorem sum_eq_of_counts {α : Type} {report : α → Report} {p q : α → Bool}
    (h : ∀ a, report a =
      { fieldsChanged := if p a then 1 else 0, hashedSkipped := if q a then 1 else 0 })
    (items : List α) : sum (items.map report) =
      { fieldsChanged := items.countP p, hashedSkipped := items.countP q } := by
  induction items with
  | nil => rfl
  | cons a as ih =>
    rw [List.map_cons, sum_cons, ih, h, List.countP_cons, List.countP_cons]
    simp only [add_def, add, List.append_nil, Nat.add_comm]

end Report

/-! ## Reports without failures -/

namespace Work

variable {α β : Type} {P : α → Prop} {Q : β → Prop}

/-- Whatever the work answers has the property. -/
def Yields (P : α → Prop) (work : Work α) : Prop := ∀ v a, answer work v = .ok a → P a

namespace Yields

theorem pure {a : α} (h : P a) : Yields P (Pure.pure a) := by
  intro v b hb
  cases hb
  exact h

theorem throw (e : Error) : Yields P (throwThe Error e : Work α) := by
  intro v a ha
  cases ha

theorem bind {work : Work α} {next : α → Work β} (h : Yields P work)
    (hnext : ∀ a, P a → Yields Q (next a)) : Yields Q (work >>= next) := by
  intro v b hb
  cases hw : answer work v with
  | ok a =>
    rw [answer_bind_of_ok hw] at hb
    exact hnext a (h v a hw) _ b hb
  | error e =>
    rw [answer_bind_of_error hw] at hb
    cases hb

/-- Work of which nothing need be known, before work that has the property anyway. -/
theorem seq {work : Work α} {next : α → Work β} (hnext : ∀ a, Yields Q (next a)) :
    Yields Q (work >>= next) :=
  bind (P := fun _ => True) (fun _ _ _ => trivial) fun a _ => hnext a

theorem each {work : α → Work β} {items : List α} (h : ∀ a, Yields Q (work a)) :
    Yields (fun bs => ∀ b ∈ bs, Q b) (each work items) := by
  induction items with
  | nil => exact .pure fun b hb => by cases hb
  | cons a as ih =>
    refine (h a).bind fun b hb => ih.bind fun bs hbs => .pure ?_
    intro c hc
    rcases List.mem_cons.1 hc with rfl | hc
    · exact hb
    · exact hbs c hc

theorem transaction {work : Work α} (h : Yields P work) : Yields P (transaction work) := by
  rw [transaction_eq]
  refine .seq fun _ v a ha => ?_
  rw [answer_undoing] at ha
  exact h v a ha

end Yields

/-- The report lists no failures. -/
def Clean (report : Report) : Prop := report.failures = []

theorem tally_clean {work : α → Work Report} {items : List α}
    (h : ∀ a, Yields Clean (work a)) : Yields Clean (tally work items) := by
  refine (Yields.each h).bind fun reports hreports => .pure ?_
  rw [Clean, Report.failures_sum, List.flatMap_eq_nil_iff]
  exact hreports

theorem encryptField_clean (owner : Owner) (field : Field) :
    Yields Clean (encryptField owner field) := by
  refine .seq fun scope => ?_
  cases scope with
  | false => exact .pure rfl
  | true =>
    cases field.value with
    | none => exact .pure rfl
    | some value =>
      by_cases hshaped : LookupHash.isShaped value = true
      · simp only [if_pos hshaped]
        exact .pure rfl
      · simp only [if_neg hshaped]
        refine .seq fun text => ?_
        cases text with
        | none => exact .pure rfl
        | some text => exact .seq fun _ => .pure rfl

theorem sweep_clean (owner : Owner) (shadow : Shadow) : Yields Clean (sweep owner shadow) := by
  rw [sweep]
  split
  · exact .seq fun _ => .pure rfl
  · exact .pure rfl

theorem encryptOwnerIn_clean (id : OwnerId) : Yields Clean (encryptOwnerIn id) := by
  refine .seq fun found => ?_
  cases found with
  | none => exact .throw _
  | some owner =>
    refine .seq fun enabled => ?_
    cases enabled with
    | false => exact .pure rfl
    | true =>
      by_cases hservice : owner.serviceAccount = true
      · simp only [if_pos hservice]
        exact .pure rfl
      · simp only [if_neg hservice]
        refine (tally_clean (encryptField_clean owner)).bind fun encrypted hencrypted => ?_
        refine .seq fun current => .seq fun shadows => ?_
        refine (tally_clean (sweep_clean _)).bind fun swept hswept => .pure ?_
        exact List.append_eq_nil_iff.2 ⟨hencrypted, hswept⟩

/-- **Encrypting a tenant reports no failures.** -/
theorem encryptAll_clean (tenant : TenantId) : Yields Clean (encryptAll tenant) := by
  refine .seq fun enabled => ?_
  cases enabled with
  | false => exact .pure rfl
  | true => exact .seq fun ids => tally_clean fun id => (encryptOwnerIn_clean id).transaction

theorem dropShadow_clean (shadow : Shadow) : Yields Clean (dropShadow shadow) :=
  .seq fun _ => .pure rfl

theorem restoreField_clean (owner : Owner) (verified : Shadow × String) :
    Yields Clean (restoreField owner verified) :=
  .seq fun _ => .seq fun _ => .pure rfl

theorem openField_clean (owner : Owner) (field : Field) : Yields Clean (openField owner field) := by
  rw [openField]
  cases field.value with
  | none => exact .pure rfl
  | some value =>
    simp only
    split
    · refine .seq fun text => ?_
      cases text with
      | none => exact .pure rfl
      | some text => exact .seq fun _ => .pure rfl
    · exact .pure rfl

/-- **The unit of work that decrypts an owner reports no failures.** -/
theorem decryptOwnerIn_clean (id : OwnerId) : Yields Clean (decryptOwnerIn id) := by
  refine .seq fun found => ?_
  cases found with
  | none => exact .pure rfl
  | some owner =>
    refine .seq fun shadows => .seq fun verified => ?_
    refine (tally_clean dropShadow_clean).bind fun dropped hdropped => ?_
    refine (tally_clean (restoreField_clean owner)).bind fun restored hrestored => ?_
    refine (tally_clean (openField_clean owner)).bind fun opened hopened => .pure ?_
    exact List.append_eq_nil_iff.2 ⟨List.append_eq_nil_iff.2 ⟨hdropped, hrestored⟩, hopened⟩

end Work

end FieldVault

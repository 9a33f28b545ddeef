/-
The alarms in the journal.

Among all that an operator is told, a failed verification is told under a name of its own, so that
it can be watched for. The journal only ever grows at its end, and so do the alarms in it. The unit
of work that decrypts an owner raises none, however it ends: it fails, and whoever sees it fail
raises the alarm. So decrypting a tenant raises one alarm for every failure it reports, in the same
order. None of this depends on the state of the vault.
-/
import FieldVault.Proofs.Report
import FieldVault.Proofs.Vault

set_option autoImplicit false

namespace FieldVault

variable {α β : Type}

/-! ## Notices -/

namespace Notice

/-- The notice is a warning under the name of failed verifications. -/
def isAlarm (notice : Notice) : Bool :=
  notice.level = .warning && notice.details.contains ("event", FieldRef.failureEvent)

end Notice

/-! ## Ciphers -/

namespace FieldCipher

/-- The alarms in the journal. -/
def alarms (c : FieldCipher) : List Notice := c.journal.filter Notice.isAlarm

theorem alarms_note (notice : Notice) (c : FieldCipher) :
    (c.note notice).alarms = c.alarms ++ [notice].filter Notice.isAlarm := by
  rw [alarms, note, List.filter_append, ← alarms]

theorem alarms_after_key (c : FieldCipher) : (after key c).alarms = c.alarms := by
  simp only [after, key, resolve]
  cases c.keys.get.1.outcome <;> cases c.keys.get.1.derived
  · rfl
  · exact (alarms_note _ _).trans (List.append_nil _)
  · rfl
  · exact (alarms_note _ _).trans (List.append_nil _)

theorem alarms_after_decrypt (value : String) (c : FieldCipher) :
    (after (decrypt value) c).alarms = c.alarms := by
  rcases after_decrypt value c with hc | hc
  · rw [hc]
  · rw [hc, alarms_after_key]

end FieldCipher

namespace Work

/-! ## Work that raises no alarm -/

/-- The work raises no alarm, however it ends. -/
def Silent (work : Work α) : Prop := ∀ v, (after work v).cipher.alarms = v.cipher.alarms

namespace Silent

theorem of_cipher {work : Work α} (h : ∀ v, (after work v).cipher = v.cipher) : Silent work :=
  fun v => congrArg FieldCipher.alarms (h v)

theorem pure (a : α) : Silent (Pure.pure a) := .of_cipher fun _ => rfl

theorem throw (e : Error) : Silent (throwThe Error e : Work α) := .of_cipher fun _ => rfl

theorem bind {work : Work α} {next : α → Work β} (h : Silent work)
    (hnext : ∀ a, Silent (next a)) : Silent (work >>= next) := by
  intro v
  rw [after_bind]
  cases answer work v with
  | ok a => exact (hnext a _).trans (h v)
  | error e => exact h v

theorem outcome {work : Work α} (h : Silent work) : Silent (FieldVault.outcome work) := by
  intro v
  rw [after_outcome]
  exact h v

theorem onCipher {action : FieldCipher.Action α}
    (h : ∀ c, (after action c).alarms = c.alarms) : Silent (onCipher action) := by
  intro v
  rw [after_onCipher]
  exact h v.cipher

theorem note {notice : Notice} (h : notice.isAlarm = false) : Silent (note notice) := by
  intro v
  refine (FieldCipher.alarms_note notice v.cipher).trans ?_
  rw [List.filter_cons, h]
  exact List.append_nil _

theorem each {work : α → Work β} (h : ∀ a, Silent (work a)) (items : List α) :
    Silent (each work items) := by
  induction items with
  | nil => exact .pure []
  | cons a as ih => exact (h a).bind fun _ => ih.bind fun _ => .pure _

theorem tally {work : α → Work Report} (h : ∀ a, Silent (work a)) (items : List α) :
    Silent (tally work items) :=
  (Silent.each h items).bind fun _ => .pure _

theorem attempt (call : Call) : Silent (attempt call) := by
  refine .of_cipher fun v => ?_
  obtain ⟨outages, hafter⟩ := after_attempt call v
  rw [hafter]

theorem ensureServing : Silent ensureServing := by
  refine .of_cipher fun v => ?_
  rw [after_ensureServing]

/-- A call that looks something up. -/
theorem lookup (call : Call) (read : Store → α) :
    Silent (do Work.attempt call; fromStore read) :=
  (attempt call).bind fun _ => .of_cipher fun _ => rfl

/-- A call that changes the store. -/
theorem change (call : Call) (change : Store → Except StoreError Store) :
    Silent (do Work.attempt call; changeStore change) := by
  refine (attempt call).bind fun _ => .of_cipher fun v => ?_
  obtain ⟨store, hafter⟩ := after_changeStore change v
  rw [hafter]

/-- Bringing the store back leaves the journal. -/
theorem transaction {work : Work α} (h : Silent work) : Silent (transaction work) := by
  have hbegin : Silent begin := (attempt .transaction).bind fun _ => ensureServing
  rw [transaction_eq]
  refine hbegin.bind fun _ v => ?_
  rw [after_undoing]
  cases answer work v <;> exact h v

end Silent

/-! ## Decrypting -/

theorem plainText_silent (owner : OwnerId) (field : FieldName) (value : String) :
    Silent (plainText owner field value) := by
  rw [plainText]
  split
  · refine (Silent.onCipher (FieldCipher.alarms_after_decrypt value)).outcome.bind fun x => ?_
    cases x with
    | ok text => exact .pure _
    | error e =>
      -- A token that is left is told about, but under another name.
      cases e with
      | key e => exact .throw _
      | _ => exact (Silent.note rfl).bind fun _ => .pure _
  · exact .pure _

theorem verifyShadow_silent (owner : Owner) (shadow : Shadow) :
    Silent (verifyShadow owner shadow) := by
  refine (Silent.onCipher fun c => ?_).bind fun _ => .pure _
  rw [FieldCipher.after_decryptVerified, FieldCipher.alarms_after_decrypt]

theorem dropShadow_silent (shadow : Shadow) : Silent (dropShadow shadow) :=
  (Silent.change _ _).bind fun _ => .pure _

theorem restoreField_silent (owner : Owner) (verified : Shadow × String) :
    Silent (restoreField owner verified) :=
  (Silent.change _ _).bind fun _ => (Silent.change _ _).bind fun _ => .pure _

theorem openField_silent (owner : Owner) (field : Field) : Silent (openField owner field) := by
  rw [openField]
  cases field.value with
  | none => exact .pure _
  | some value =>
    simp only
    split
    · refine (plainText_silent owner.id field.name value).bind fun text => ?_
      cases text with
      | none => exact .pure _
      | some text => exact (Silent.change _ _).bind fun _ => .pure _
    · exact .pure _

/-- **The unit of work that decrypts an owner raises no alarm.** -/
theorem decryptOwnerIn_silent (id : OwnerId) : Silent (decryptOwnerIn id) := by
  refine (Silent.lookup _ _).bind fun found => ?_
  cases found with
  | none => exact .pure _
  | some owner =>
    refine (Silent.lookup _ _).bind fun shadows => ?_
    refine (Silent.each (verifyShadow_silent owner) _).bind fun verified => ?_
    refine (Silent.tally dropShadow_silent _).bind fun dropped => ?_
    refine (Silent.tally (restoreField_silent owner) _).bind fun restored => ?_
    exact (Silent.tally (openField_silent owner) _).bind fun opened => .pure _

/-! ## Alarms and failures -/

/-- If the work succeeds, it has raised an alarm for each failure that it reports. -/
def RaisesFailures (work : Work Report) : Prop :=
  ∀ v report, answer work v = .ok report →
    (after work v).cipher.alarms = v.cipher.alarms ++ report.failures.map .integrityFailure

theorem decryptOwner_raises (id : OwnerId) : RaisesFailures (decryptOwner id) := by
  intro v report hreport
  have hunit : answer (FieldVault.outcome (transaction (decryptOwnerIn id))) v =
      .ok (answer (transaction (decryptOwnerIn id)) v) := answer_outcome _ v
  have hsilent := (decryptOwnerIn_silent id).transaction.outcome v
  rw [decryptOwner, answer_bind_of_ok hunit] at hreport
  rw [decryptOwner, after_bind_of_ok hunit]
  cases ha : answer (transaction (decryptOwnerIn id)) v with
  | ok restored =>
    rw [ha] at hreport
    cases hreport
    have hclean : report.failures = [] := (decryptOwnerIn_clean id).transaction v report ha
    rw [hclean]
    exact hsilent.trans (List.append_nil _).symm
  | error e =>
    rw [ha] at hreport
    cases e with
    | integrity ref =>
      cases hreport
      refine (FieldCipher.alarms_note (.integrityFailure ref) _).trans ?_
      rw [hsilent]
      rfl
    | _ => cases hreport

theorem each_raises {work : α → Work Report} (h : ∀ a, RaisesFailures (work a)) (items : List α)
    (v : Vault) (reports : List Report) (hrun : answer (each work items) v = .ok reports) :
    (after (each work items) v).cipher.alarms =
      v.cipher.alarms ++ (reports.flatMap Report.failures).map .integrityFailure := by
  induction items generalizing v reports with
  | nil =>
    cases hrun
    exact (List.append_nil _).symm
  | cons a as ih =>
    rw [each] at hrun ⊢
    cases ha : answer (work a) v with
    | error e =>
      rw [answer_bind_of_error ha] at hrun
      cases hrun
    | ok report =>
      rw [answer_bind_of_ok ha] at hrun
      rw [after_bind_of_ok ha]
      cases has : answer (each work as) (after (work a) v) with
      | error e =>
        rw [answer_bind_of_error has] at hrun
        cases hrun
      | ok rest =>
        rw [answer_bind_of_ok has] at hrun
        cases hrun
        rw [after_bind_of_ok has]
        refine (ih _ _ has).trans ?_
        rw [h a v report ha, List.flatMap_cons, List.map_append, List.append_assoc]

/-- **Decrypting a tenant raises an alarm for every failure it reports**, in the order of the
report, whatever state the vault is in. -/
theorem decryptAll_raises (tenant : TenantId) : RaisesFailures (decryptAll tenant) := by
  intro v report hreport
  have hsilent : Silent (ownersIn tenant) :=
    (Silent.attempt _).bind fun _ => Silent.ensureServing.bind fun _ => .of_cipher fun _ => rfl
  rw [decryptAll] at hreport ⊢
  cases hids : answer (ownersIn tenant) v with
  | error e =>
    rw [answer_bind_of_error hids] at hreport
    cases hreport
  | ok ids =>
    rw [answer_bind_of_ok hids, tally] at hreport
    rw [after_bind_of_ok hids, tally]
    cases hrun : answer (each decryptOwner ids) (after (ownersIn tenant) v) with
    | error e =>
      rw [answer_bind_of_error hrun] at hreport
      cases hreport
    | ok reports =>
      rw [answer_bind_of_ok hrun] at hreport
      cases hreport
      rw [after_bind_of_ok hrun, Report.failures_sum, ← hsilent v]
      exact each_raises decryptOwner_raises ids _ reports hrun

end Work

end FieldVault

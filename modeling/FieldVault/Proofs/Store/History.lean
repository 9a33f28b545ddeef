/-
A store through its whole life.

A store is loaded from a snapshot; then owners are put in and units of work are run, any number of
them, which commit, fail or crash. What every change of a store keeps is kept by each step of a unit
of work, hence by the unit, which either publishes what its steps made or brings back the store it
found, and hence by the whole history. This holds in the middle of a unit as well, where handles may
be out of date.
-/
import FieldVault.Proofs.Stopping
import FieldVault.Proofs.Store.Change
import FieldVault.Script

set_option autoImplicit false

namespace FieldVault

variable {α β : Type} {P : Store → Prop}

/-- What the store of a vault is like. -/
abbrev OnStore (P : Store → Prop) : Vault → Prop := fun v => P v.store

namespace Work

/-! ## Putting work together -/

theorem KeepsStore.keeps {work : Work α} (h : KeepsStore work) : Keeps (OnStore P) work := by
  intro v hv
  unfold OnStore
  rwa [h v]

theorem each_keeps {Q : Vault → Prop} {work : α → Work β} (h : ∀ a, Keeps Q (work a))
    (items : List α) : Keeps Q (each work items) := by
  induction items with
  | nil => exact .pure []
  | cons a as ih => exact (h a).bind fun _ => ih.bind fun _ => .pure _

theorem tally_keeps {Q : Vault → Prop} {work : α → Work Report} (h : ∀ a, Keeps Q (work a))
    (items : List α) : Keeps Q (tally work items) :=
  (each_keeps h items).bind fun _ => .pure _

theorem onCipher_keeps (action : FieldCipher.Action α) : Keeps (OnStore P) (onCipher action) := by
  apply KeepsStore.keeps
  intro v
  rw [after_onCipher]

theorem lookup_keeps (call : Call) (read : Store → α) :
    Keeps (OnStore P) (do attempt call; fromStore read) :=
  KeepsStore.keeps ((attempt_keepsStore call).bind fun _ _ => rfl)

theorem changeStore_keeps {change : Store → Except StoreError Store}
    (h : ∀ s t, change s = .ok t → P s → P t) : Keeps (OnStore P) (changeStore change) := by
  intro v hv
  unfold after changeStore
  cases hc : change v.store with
  | ok t => exact h v.store t hc hv
  | error e => exact hv

theorem shadowOrNew_keeps (owner : OwnerId) (field : FieldName) :
    Keeps (OnStore P) (shadowOrNew owner field) := by
  refine (lookup_keeps _ _).bind fun found => ?_
  cases found with
  | some shadow => exact .pure _
  | none => exact fun _ hv => hv

theorem plainText_keeps (owner : OwnerId) (field : FieldName) (value : String) :
    Keeps (OnStore P) (plainText owner field value) := by
  unfold plainText
  split
  · refine (onCipher_keeps _).outcome.bind fun x => ?_
    split
    · exact .pure _
    · exact .throw _
    · exact Keeps.bind (fun _ hv => hv) fun _ => .pure _
  · exact .pure _

/-- A change that is refused changes nothing. -/
theorem changeStore_atomic (change : Store → Except StoreError Store) :
    Atomic (changeStore change) := by
  intro v e he
  unfold answer changeStore at he
  unfold after changeStore
  cases hc : change v.store with
  | ok t =>
    rw [hc] at he
    cases he
  | error e' => rfl

/-! ## Calls and migrations -/

section Stable

variable (hP : Store.Stable P)

include hP

theorem insertOwner_keeps (owner : Owner) : Keeps (OnStore P) (insertOwner owner) := by
  refine ensureServing_keepsStore.keeps.bind fun _ => changeStore_keeps fun s t h => ?_
  obtain rfl := Except.ok.inj h
  exact hP s _ (.putOwner s owner)

theorem writeField_keeps (id : OwnerId) (field : FieldName) (value : Option String) :
    Keeps (OnStore P) (writeField id field value) :=
  (attempt_keepsStore _).keeps.bind fun _ =>
    changeStore_keeps fun s t h => hP s t (.writeField id field value h)

theorem persistShadow_keeps (shadow : Shadow) : Keeps (OnStore P) (persistShadow shadow) :=
  (attempt_keepsStore _).keeps.bind fun _ =>
    changeStore_keeps fun s t h => hP s t (.putShadow shadow h)

theorem removeShadow_keeps (shadow : Shadow) : Keeps (OnStore P) (removeShadow shadow) := by
  refine (attempt_keepsStore _).keeps.bind fun _ => changeStore_keeps fun s t h => ?_
  obtain rfl := Except.ok.inj h
  exact hP s _ (.removeShadow s shadow)

theorem encryptField_keeps (owner : Owner) (field : Field) :
    Keeps (OnStore P) (encryptField owner field) := by
  have hseal : ∀ text, Keeps (OnStore P) (sealField owner.id field.name text) := fun text =>
    (onCipher_keeps _).bind fun _ => (shadowOrNew_keeps _ _).bind fun _ =>
      (persistShadow_keeps hP _).bind fun _ => writeField_keeps hP _ _ _
  -- Asking for a setting leaves the store, as does every branch that has nothing to encrypt.
  refine Keeps.bind (fun _ hv => hv) fun scope => ?_
  split
  · split
    · exact .pure _
    · split
      · exact .pure _
      · refine (plainText_keeps _ _ _).bind fun found => ?_
        split
        · exact .pure _
        · exact (hseal _).bind fun _ => .pure _
  · exact .pure _

theorem sweep_keeps (owner : Owner) (shadow : Shadow) :
    Keeps (OnStore P) (sweep owner shadow) := by
  unfold sweep
  split
  · exact (removeShadow_keeps hP shadow).bind fun _ => .pure _
  · exact .pure _

theorem encryptOwnerIn_keeps (id : OwnerId) : Keeps (OnStore P) (encryptOwnerIn id) := by
  refine (lookup_keeps _ _).bind fun found => ?_
  split
  · exact .throw _
  · refine Keeps.bind (fun _ hv => hv) fun enabled => ?_
    split
    · split
      · exact .pure _
      · exact (tally_keeps (encryptField_keeps hP _) _).bind fun _ =>
          (lookup_keeps _ _).bind fun _ => (lookup_keeps _ _).bind fun _ =>
            (tally_keeps (sweep_keeps hP _) _).bind fun _ => .pure _
    · exact .pure _

theorem openField_keeps (owner : Owner) (field : Field) :
    Keeps (OnStore P) (openField owner field) := by
  unfold openField
  split
  · exact .pure _
  · split
    · refine (plainText_keeps _ _ _).bind fun found => ?_
      split
      · exact .pure _
      · exact (writeField_keeps hP _ _ _).bind fun _ => .pure _
    · exact .pure _

theorem decryptOwnerIn_keeps (id : OwnerId) : Keeps (OnStore P) (decryptOwnerIn id) := by
  have hverify : ∀ owner shadow, Keeps (OnStore P) (verifyShadow owner shadow) :=
    fun _ _ => (onCipher_keeps _).bind fun _ => .pure _
  have hdrop : ∀ shadow, Keeps (OnStore P) (dropShadow shadow) :=
    fun _ => (removeShadow_keeps hP _).bind fun _ => .pure _
  have hrestore : ∀ owner verified, Keeps (OnStore P) (restoreField owner verified) :=
    fun _ _ => (writeField_keeps hP _ _ _).bind fun _ =>
      (removeShadow_keeps hP _).bind fun _ => .pure _
  refine (lookup_keeps _ _).bind fun found => ?_
  split
  · exact .pure _
  · exact (lookup_keeps _ _).bind fun _ => (each_keeps (hverify _) _).bind fun _ =>
      (tally_keeps hdrop _).bind fun _ => (tally_keeps (hrestore _) _).bind fun _ =>
        (tally_keeps (openField_keeps hP _) _).bind fun _ => .pure _

/-! ## Steps -/

/-- Whatever changes keep, a step keeps. -/
theorem runStep_keeps (step : Step) : Keeps (OnStore P) (runStep step) := by
  have hoperand : ∀ operand, Keeps (OnStore P) (shadowOperand operand) := by
    intro operand
    cases operand with
    | given shadow => exact .pure _
    | fresh owner field ciphertext => exact Keeps.bind (fun _ hv => hv) fun _ => .pure _
  cases step with
  | loadOwner id => exact (lookup_keeps _ _).bind fun _ => .pure _
  | writeField id field value => exact (writeField_keeps hP id field value).bind fun _ => .pure _
  | findShadow owner field => exact (lookup_keeps _ _).bind fun _ => .pure _
  | shadowsOf owner => exact (lookup_keeps _ _).bind fun _ => .pure _
  | persistShadow operand =>
    exact (hoperand operand).bind fun _ => (persistShadow_keeps hP _).bind fun _ => .pure _
  | removeShadow operand =>
    exact (hoperand operand).bind fun _ => (removeShadow_keeps hP _).bind fun _ => .pure _
  | shadowRecord owner field create ciphertext =>
    have hrecord : Keeps (OnStore P) (shadowRecord owner field create) := by
      unfold shadowRecord
      split
      · exact (shadowOrNew_keeps _ _).bind fun _ => .pure _
      · exact lookup_keeps _ _
    refine hrecord.bind fun found => ?_
    split
    · exact (persistShadow_keeps hP _).bind fun _ => .pure _
    · exact .pure _
  | encryptOwner id => exact (encryptOwnerIn_keeps hP id).bind fun _ => .pure _
  | decryptOwner id => exact (decryptOwnerIn_keeps hP id).bind fun _ => .pure _

/-- So do steps in a row, whichever of them fail. -/
theorem runSteps_keeps (steps : List (Step × Bool)) : Keeps (OnStore P) (runSteps steps) := by
  induction steps with
  | nil => exact .pure _
  | cons step steps ih =>
    refine (runStep_keeps hP step.1).outcome.bind fun x => ?_
    split
    · split
      · exact ih.bind fun _ => .pure _
      · exact .pure _
    · exact ih.bind fun _ => .pure _

end Stable

end Work

/-! ## Whole histories -/

/-- What is done to a store from outside: an owner is put in, or a unit of work is run. -/
inductive Deed where
  | insertOwner (owner : Owner)
  | unit (script : Script)

namespace Vault

variable {v : Vault}

/-- The vault after a deed, however it ended. -/
def afterDeed (v : Vault) : Deed → Vault
  | .insertOwner owner => after (Work.insertOwner owner) v
  | .unit script => (v.runScript script).2

/-- The vault after deeds, one by one. -/
def afterDeeds (v : Vault) (deeds : List Deed) : Vault := deeds.foldl afterDeed v

/-- The vault within a unit of work, when these steps have been run. -/
def within (v : Vault) (steps : List (Step × Bool)) : Vault :=
  after (do Work.begin; Work.runSteps steps) v

theorem begin_keeps : Keeps (OnStore P) Work.begin :=
  ((Work.attempt_keepsStore .transaction).bind fun _ => Work.ensureServing_keepsStore).keeps

theorem within_keeps (hP : Store.Stable P) (hv : P v.store) (steps : List (Step × Bool)) :
    P (v.within steps).store :=
  (begin_keeps.bind fun _ => Work.runSteps_keeps hP steps) v hv

/-- A unit of work publishes what its steps made, or nothing. -/
theorem store_after_runScript (v : Vault) (script : Script) :
    (v.runScript script).2.store = v.store ∨
      (v.runScript script).2.store = (v.within script.steps).store := by
  unfold runScript
  cases hbegin : Work.begin v with
  | error e v' =>
    have hkept : v'.store = v.store := by
      have hstore := begin_keeps (P := fun s => s = v.store) v rfl
      rwa [after_of_run_error hbegin] at hstore
    exact .inl hkept
  | ok _ v' =>
    have hwithin : v.within script.steps = after (Work.runSteps script.steps) v' := by
      rw [within, after_bind_of_ok (answer_of_run hbegin), after_of_run hbegin]
    -- Only a unit that commits publishes what its steps made.
    rw [hwithin]
    simp only
    split
    · exact .inl rfl
    · exact .inl rfl
    · rename_i results v'' hrun
      rw [after_of_run hrun]
      split
      · exact .inr rfl
      · exact .inl rfl
      · exact .inl rfl

theorem afterDeed_keeps (hP : Store.Stable P) (hv : P v.store) (deed : Deed) :
    P (v.afterDeed deed).store := by
  cases deed with
  | insertOwner owner => exact Work.insertOwner_keeps hP owner v hv
  | unit script =>
    rcases store_after_runScript v script with h | h
    · rwa [afterDeed, h]
    · rw [afterDeed, h]
      exact within_keeps hP hv script.steps

/-- Whatever changes keep, histories keep. -/
theorem afterDeeds_keeps (hP : Store.Stable P) (hv : P v.store) (deeds : List Deed) :
    P (v.afterDeeds deeds).store := by
  induction deeds generalizing v with
  | nil => exact hv
  | cons deed deeds ih => exact ih (afterDeed_keeps hP hv deed)

/-- **The store stays sound through its whole life.** Of entries with equal keys the loaded store
has the last. Whatever is then put in and run, and within a unit of work as well as between units,
everything is filed under its own key, and all ways to ask for a shadow record give one answer. A
shadow record is refused, without a change, if its owner is unknown, and if the owner is known but
another record is live in its place; so no record is put in under another id than the one it
replaces. A handle with another id than the live record removes nothing. And a shadow record without
an owner is one that was loaded so. -/
theorem store_stays_sound (owners : List Owner) (shadows : List Shadow) (v : Vault)
    (hload : v.store = .ofLists owners shadows) (deeds : List Deed) (steps : List (Step × Bool)) :
    let loaded := Store.ofLists owners shadows
    let s := ((v.afterDeeds deeds).within steps).store
    (∀ id, loaded.owner? id = owners.reverse.find? (·.id = id)) ∧
    (∀ id field, loaded.shadow? id field = shadows.reverse.find? (·.slot = ⟨id, field⟩)) ∧
    s.Filed ∧ s.Agrees ∧
    (∀ shadow, s.owner? shadow.owner = none →
      s.putShadow shadow = .error (.ownerNotFound shadow.owner)) ∧
    (∀ shadow live owner, s.owner? shadow.owner = some owner →
      s.shadow? shadow.owner shadow.field = some live → live.id ≠ shadow.id →
      s.putShadow shadow =
        .error (.backend s!"duplicate shadow record for {shadow.owner}|{shadow.field}")) ∧
    (∀ shadow, Work.Atomic (Work.persistShadow shadow)) ∧
    (∀ shadow t, s.putShadow shadow = .ok t → ∀ id field live, s.shadow? id field = some live →
      ∃ now, t.shadow? id field = some now ∧ now.id = live.id) ∧
    (∀ shadow, (∀ live, s.shadow? shadow.owner shadow.field = some live → live.id ≠ shadow.id) →
      s.removeShadow shadow = s) ∧
    ∀ id field shadow, s.owner? id = none → s.shadow? id field = some shadow →
      loaded.owner? id = none ∧ loaded.shadow? id field = some shadow := by
  intro loaded s
  have hstart : Store.NoNewOrphans loaded v.store := by
    rw [hload]
    exact .refl loaded
  have hstable := Store.stable_noNewOrphans loaded
  have horphans : Store.NoNewOrphans loaded s :=
    within_keeps hstable (afterDeeds_keeps hstable hstart deeds) steps
  refine ⟨fun id => Registry.find?_ofList owners id,
    fun id field => Registry.find?_ofList shadows (⟨id, field⟩ : Slot), s.filed, s.agrees,
    fun shadow => Store.putShadow_of_no_owner, fun shadow live owner ho hlive hne =>
      Store.putShadow_of_other ho hlive hne, fun shadow =>
      .bind (Work.attempt_keepsStore _) fun _ => Work.changeStore_atomic _,
    fun shadow t hput id field live hlive => Store.id_of_putShadow hput hlive,
    fun shadow => Store.removeShadow_of_other, ?_⟩
  intro id field shadow hnone hfound
  exact ⟨horphans.owners id hnone, horphans.orphans id field shadow hnone hfound⟩

/-- A snapshot has two records of one owner and a shadow record without an owner. Then another owner
comes and gets a shadow record. A second one for the same field is refused, and the one without an
owner is still the one that was loaded. -/
theorem store_stays_sound_ghost :
    let k : Key := ⟨List.replicate 16 7, .inl rfl⟩
    let alice : Owner := ⟨"alice", "acme", false, .empty⟩
    let bob : Owner := ⟨"bob", "acme", false, .empty⟩
    let orphan : Shadow := ⟨⟨Block.ofNat 1⟩, "ghost", "email", ""⟩
    let first : Shadow := ⟨⟨Block.ofNat 2⟩, "bob", "email", ""⟩
    let second : Shadow := { first with id := ⟨Block.ofNat 3⟩ }
    let loaded := Store.ofLists [{ alice with tenant := "other" }, alice] [orphan]
    let v := settled k loaded .none
    let deeds := [.insertOwner bob, .unit ⟨[(.persistShadow (.given first), false)], .commit⟩,
      .unit ⟨[(.removeShadow (.given first), false)], .fail⟩]
    let s := ((v.afterDeeds deeds).within [(.removeShadow (.given second), false)]).store
    loaded.owner? "alice" = some alice ∧
      s.putShadow second = .error (.backend "duplicate shadow record for bob|email") ∧
      s.removeShadow second = s ∧ loaded.shadow? "ghost" "email" = some orphan := by
  intro k alice bob orphan first second loaded v deeds s
  obtain ⟨howners, -, -, -, -, hother, -, -, hremove, horphans⟩ :=
    store_stays_sound [{ alice with tenant := "other" }, alice] [orphan] v rfl deeds
      [(.removeShadow (.given second), false)]
  have hbob : s.owner? "bob" = some bob := by decide +kernel
  have hlive : s.shadow? "bob" "email" = some first := by decide +kernel
  have hids : first.id ≠ second.id := by decide +kernel
  have hghost : s.owner? "ghost" = none := by decide +kernel
  have horphan : s.shadow? "ghost" "email" = some orphan := by decide +kernel
  refine ⟨howners "alice", hother second first bob hbob hlive hids, hremove second ?_,
    (horphans "ghost" "email" orphan hghost horphan).2⟩
  intro live h
  cases hlive.symm.trans h
  exact hids

/-- Where a shadow record is live without an owner, another one is refused because the owner is
unknown, and not as a duplicate. -/
theorem orphan_refused_for_its_owner :
    let k : Key := ⟨List.replicate 16 7, .inl rfl⟩
    let orphan : Shadow := ⟨⟨Block.ofNat 1⟩, "ghost", "email", ""⟩
    let other : Shadow := { orphan with id := ⟨Block.ofNat 2⟩ }
    let v := settled k (.ofLists [] [orphan]) .none
    v.store.shadow? other.owner other.field = some orphan ∧ orphan.id ≠ other.id ∧
      (v.runScript ⟨[(.persistShadow (.given other), false)], .commit⟩).1 =
        .ended [.error (.store (.ownerNotFound "ghost"))] (some (.store (.ownerNotFound "ghost"))) ∧
      ∀ reason, v.store.putShadow other ≠ .error (.backend reason) := by
  intro k orphan other v
  have hput : v.store.putShadow other = .error (.ownerNotFound "ghost") := by rfl
  refine ⟨by decide +kernel, by decide +kernel, by rfl, fun reason h => ?_⟩
  cases hput.symm.trans h

end Vault

end FieldVault

/-
Handling an event, once and again.

An event is about one owner at most, and handling it encrypts that owner or does nothing. Whether it
does anything depends on two flags, that of the event's own tenant and that of the owner's, which
can be two different tenants.

Handled again, the event has nothing left to do. For three of the four kinds this is plain: they
tell the owner by words of their own, and the owner is settled by then. The fourth tells it by its
login name, and that is what the first handling has replaced by its lookup hash, or by the hash of
the text that it was a token of. So the second handling may find the owner by the hash, or find it
no more. What it must not find is another one; and it does not if there was only one owner of the
tenant who could be found by that name, because nobody else has changed.
-/
import FieldVault.Event
import FieldVault.Proofs.Encryption.Ciphertexts
import FieldVault.Proofs.Idempotence
import FieldVault.Proofs.Search

set_option autoImplicit false

namespace FieldVault

open Vault

variable {k : Key} {r : Except KeyError Key} {v v' : Vault} {event : Event}

/-! ## Who an event is about -/

/-- The owner that an event is about, read off the store. -/
def Store.ownerOf (s : Store) (tenancy : Tenancy) : Event → Option OwnerId
  | .registered _ owner => some owner
  | .profileUpdated _ owner => some owner
  | .adminCreated tenant username =>
    (s.hits tenancy tenant Owner.usernameField username).head?
  | .adminUpdated _ path => Event.ownerOfPath? path

/-- The login name of the owner is this one, or its lookup hash. -/
def Owner.GoesBy (owner : Owner) (username : String) : Prop :=
  owner.value Owner.usernameField = some username ∨
    owner.value Owner.usernameField = some (LookupHash.of username)

/-- If the event tells its owner by login name, at most one owner of the tenant goes by it. -/
def Event.Unambiguous (s : Store) : Event → Prop
  | .adminCreated tenant username => ∀ a b : Owner,
    s.owner? a.id = some a → s.owner? b.id = some b → a.tenant = tenant → b.tenant = tenant →
      a.GoesBy username → b.GoesBy username → a = b
  | _ => True

namespace Store

variable {s t : Store} {tenancy : Tenancy} {tenant : TenantId} {username : String}

/-- Whoever is found by a login name goes by it. -/
theorem goesBy_of_mem_hits {id : OwnerId}
    (h : id ∈ s.hits tenancy tenant Owner.usernameField username) :
    ∃ owner : Owner, owner.id = id ∧ s.owner? owner.id = some owner ∧ owner.tenant = tenant ∧
      owner.GoesBy username := by
  have hheld : ∀ value, id ∈ s.holders tenant Owner.usernameField value →
      ∃ owner : Owner, owner.id = id ∧ s.owner? owner.id = some owner ∧ owner.tenant = tenant ∧
        owner.value Owner.usernameField = some value := by
    intro value hid
    obtain ⟨owner, ho, htenant, hvalue⟩ := mem_holders_iff.1 hid
    have hid := id_of_owner? ho
    subst hid
    exact ⟨owner, rfl, ho, htenant, hvalue⟩
  rw [hits] at h
  split at h
  · split at h
    · obtain ⟨owner, hid, ho, htenant, hvalue⟩ := hheld _ h
      exact ⟨owner, hid, ho, htenant, .inr hvalue⟩
    · cases h
  · obtain ⟨owner, hid, ho, htenant, hvalue⟩ := hheld _ h
    exact ⟨owner, hid, ho, htenant, .inl hvalue⟩

/-- Once an unambiguous event is about an owner, no change of that owner makes it one about another
owner. -/
theorem ownerOf_of_sameOff {id id' : OwnerId} (hevent : event.Unambiguous s)
    (hoff : s.SameOff (fun other _ => other = id) t)
    (hs : s.ownerOf tenancy event = some id) (ht : t.ownerOf tenancy event = some id') :
    id' = id := by
  cases event with
  | registered tenant owner => exact Option.some.inj (ht.symm.trans hs)
  | profileUpdated tenant owner => exact Option.some.inj (ht.symm.trans hs)
  | adminUpdated tenant path => exact Option.some.inj (ht.symm.trans hs)
  | adminCreated tenant username =>
    by_contra hne
    obtain ⟨a, rfl, ha, htenant, hgoes⟩ := goesBy_of_mem_hits (List.mem_of_mem_head? hs)
    obtain ⟨b, rfl, hb, htenant', hgoes'⟩ := goesBy_of_mem_hits (List.mem_of_mem_head? ht)
    -- The second one was not touched, so it went by the name before.
    rw [hoff.owner?_eq fun _ => hne] at hb
    exact hne (congrArg Owner.id (hevent b a hb ha htenant' htenant hgoes' hgoes))

end Store

namespace Work

/-! ## One handling -/

theorem ownerOfEvent_run (h : v.Calm r) (event : Event) :
    ownerOfEvent event v = .ok (v.store.ownerOf v.tenancy event) v := by
  cases event with
  | registered tenant owner => rfl
  | profileUpdated tenant owner => rfl
  | adminUpdated tenant path => rfl
  | adminCreated tenant username => exact findOwner_run h tenant Owner.usernameField username

/-- Nothing is done in a tenant with encryption off. -/
theorem handleEvent_run_of_disabled (hdisabled : v.tenancy.enabled event.tenant = false) :
    handleEvent event v = .ok {} v := by
  have hasked : isEnabled event.tenant v = .ok false v := by
    rw [← hdisabled]
    rfl
  exact (run_bind_of_ok hasked _).trans rfl

section Enabled

variable (h : v.Calm r) (henabled : v.tenancy.enabled event.tenant = true)
include h henabled

/-- An event about nobody is noted. -/
theorem handleEvent_reads_of_none (hnone : v.store.ownerOf v.tenancy event = none) :
    ReadsAs r (handleEvent event) v (.ok {}) := by
  have hasked : isEnabled event.tenant v = .ok true v := by
    rw [← henabled]
    rfl
  have hfound := ownerOfEvent_run h event
  rw [hnone] at hfound
  have hnote := note_reads h (.unresolvedEvent event.tenant)
  exact .bind_run hasked (.bind_run hfound (hnote.bind (.pure hnote.reads.calm _)))

/-- An event about an owner is handled by encrypting it. -/
theorem handleEvent_run_of_some {id : OwnerId}
    (hsome : v.store.ownerOf v.tenancy event = some id) :
    handleEvent event v = encryptOwner id v := by
  have hasked : isEnabled event.tenant v = .ok true v := by
    rw [← henabled]
    rfl
  have hfound := ownerOfEvent_run h event
  rw [hsome] at hfound
  exact (run_bind_of_ok hasked _).trans (run_bind_of_ok hfound _)

end Enabled

/-- Handling an event touches the owner that it is about, and nobody else. -/
theorem handleEvent_sameOff (h : v.Calm (.ok k)) (event : Event) :
    v.store.SameOff (fun id _ => v.store.ownerOf v.tenancy event = some id)
      (after (handleEvent event) v).store := by
  cases henabled : v.tenancy.enabled event.tenant with
  | false =>
    rw [after_of_run (handleEvent_run_of_disabled henabled)]
    exact .refl _ _
  | true =>
    cases hfound : v.store.ownerOf v.tenancy event with
    | none =>
      rw [(handleEvent_reads_of_none h henabled hfound).reads.store]
      exact .refl _ _
    | some id =>
      rw [after, handleEvent_run_of_some h henabled hfound]
      cases ho : v.store.owner? id with
      | none =>
        rw [encryptOwner_run_of_none h ho]
        exact .refl _ _
      | some owner =>
        obtain ⟨v', hrun, hwrites, -⟩ := encryptOwner_run_report h ho
        rw [hrun]
        exact hwrites.off.mono fun id' _ hid => by rw [hid]

/-- An owner that encryption passes over stays. -/
theorem handleEvent_store_of_passed (h : v.Calm (.ok k)) {owner : Owner}
    (hfound : v.store.ownerOf v.tenancy event = some owner.id)
    (ho : v.store.owner? owner.id = some owner)
    (hpassed : owner.serviceAccount = true ∨ v.tenancy.enabled owner.tenant = false) :
    (after (handleEvent event) v).store = v.store := by
  cases henabled : v.tenancy.enabled event.tenant with
  | false => rw [after_of_run (handleEvent_run_of_disabled henabled)]
  | true =>
    obtain ⟨v', hrun, hwrites, hcells⟩ := encryptOwner_run_report h ho
    rw [after, handleEvent_run_of_some h henabled hfound, hrun]
    refine hwrites.off.eq_of_cells ?_
    rintro _ field rfl
    exact (hcells field).stays hpassed

/-! ## Handling again -/

/-- There is nothing left to do about the event: the owner that it is about, if it is about any, is
there and settled. -/
def Handled (k : Key) (v : Vault) (event : Event) : Prop :=
  v.tenancy.enabled event.tenant = true → ∀ id, v.store.ownerOf v.tenancy event = some id →
    ∃ owner, v.store.owner? id = some owner ∧ OwnerSettled k v owner

/-- Reading leaves an event handled. -/
theorem Handled.of_reads (h : Handled k v event) (hreads : Reads r v v') :
    Handled k v' event := by
  unfold Handled OwnerSettled at *
  rwa [hreads.store, hreads.tenancy]

/-- Handling an event about which nothing is left to do only reads. -/
theorem Handled.reads (h : v.Calm (.ok k)) (hhandled : Handled k v event) :
    ∃ report, ReadsAs (.ok k) (handleEvent event) v (.ok report) ∧ report.fieldsChanged = 0 := by
  cases henabled : v.tenancy.enabled event.tenant with
  | false => exact ⟨{}, .of_run h (handleEvent_run_of_disabled henabled), rfl⟩
  | true =>
    cases hfound : v.store.ownerOf v.tenancy event with
    | none => exact ⟨{}, handleEvent_reads_of_none h henabled hfound, rfl⟩
    | some id =>
      obtain ⟨owner, ho, hsettled⟩ := hhandled henabled id hfound
      obtain ⟨report, hreads, hzero⟩ := encryptOwnerIn_reads h ho hsettled
      have hunit : ReadsAs (.ok k) (encryptOwner id) v (.ok report) := .transaction h hreads
      have hrun := handleEvent_run_of_some h henabled hfound
      refine ⟨report, ⟨?_, ?_⟩, hzero⟩
      · rw [answer, hrun]
        exact hunit.answer
      · rw [after, hrun]
        exact hunit.reads

/-- The same for any number of handlings, since each of them leaves the event handled. -/
theorem Handled.reads_again (h : v.Calm (.ok k)) (hhandled : Handled k v event) (n : Nat) :
    ∃ reports, ReadsAs (.ok k) (each handleEvent (List.replicate n event)) v (.ok reports) ∧
      ∀ report ∈ reports, report.fieldsChanged = 0 := by
  -- Each handling only reads, so the next one finds the event handled too.
  refine ReadsAs.each_of h ?_
  intro event' hmem v' hv'
  rw [List.eq_of_mem_replicate hmem]
  exact Handled.reads hv'.calm (hhandled.of_reads hv')

/-- A first handling that succeeds leaves nothing to do, if the event is unambiguous. -/
theorem Handled.of_run (h : v.Calm (.ok k)) (hevent : event.Unambiguous v.store) {report : Report}
    (hrun : handleEvent event v = .ok report v') :
    v'.Calm (.ok k) ∧ Handled k v' event := by
  cases henabled : v.tenancy.enabled event.tenant with
  | false =>
    cases (handleEvent_run_of_disabled henabled).symm.trans hrun
    refine ⟨h, fun henabled' => ?_⟩
    rw [henabled] at henabled'
    cases henabled'
  | true =>
    cases hfound : v.store.ownerOf v.tenancy event with
    | none =>
      have hreads := (handleEvent_reads_of_none h henabled hfound).reads
      rw [after_of_run hrun] at hreads
      refine ⟨hreads.calm, fun _ id hid => ?_⟩
      rw [hreads.store, hreads.tenancy, hfound] at hid
      cases hid
    | some id =>
      rw [handleEvent_run_of_some h henabled hfound] at hrun
      cases ho : v.store.owner? id with
      | none =>
        rw [encryptOwner_run_of_none h ho] at hrun
        cases hrun
      | some owner =>
        obtain ⟨w, hrun', hwrites, hcells⟩ := encryptOwner_run_report h ho
        cases hrun.symm.trans hrun'
        refine ⟨hwrites.calm, fun _ id' hid => ?_⟩
        rw [hwrites.tenancy] at hid
        -- It may not be found again, but nobody else is found in its place.
        have hsame := Store.ownerOf_of_sameOff hevent hwrites.off hfound hid
        subst hsame
        obtain ⟨owner', ho', htenant, hservice⟩ :=
          Store.exists_owner_of_head?_eq ho (hwrites.off.heads id')
        exact ⟨owner', ho',
          ownerSettled_of_migrated ho' hwrites.tenancy htenant hservice hcells⟩

/-- **Replaying events is harmless.** From every state of the store and under all settings, with a
key at hand: if the event is unambiguous and a first handling succeeds, any number of further
handlings succeed, leave the store as the first one left it, and report no change. And of every
event, ambiguous or not, one handling touches the record and the shadow records of the one owner
that it is about, and of nobody else; it leaves the store as it is if the tenant of the event has
encryption off, and if the owner is a service account or its tenant has encryption off. -/
theorem replay_harmless (h : v.Calm (.ok k)) (event : Event) :
    (event.Unambiguous v.store → ∀ report v₁, handleEvent event v = .ok report v₁ →
      ∀ n, ∃ reports v₂, each handleEvent (List.replicate n event) v₁ = .ok reports v₂ ∧
        v₂.store = v₁.store ∧ ∀ again ∈ reports, again.fieldsChanged = 0) ∧
    ∃ found, ownerOfEvent event v = .ok found v ∧
      v.store.SameOff (fun id _ => found = some id) (after (handleEvent event) v).store ∧
      (v.tenancy.enabled event.tenant = false → (after (handleEvent event) v).store = v.store) ∧
      ∀ owner, found = some owner.id → v.store.owner? owner.id = some owner →
        owner.serviceAccount = true ∨ v.tenancy.enabled owner.tenant = false →
        (after (handleEvent event) v).store = v.store := by
  refine ⟨?_, _, ownerOfEvent_run h event, handleEvent_sameOff h event, ?_, ?_⟩
  · intro hevent report v₁ hrun n
    obtain ⟨hcalm, hhandled⟩ := Handled.of_run h hevent hrun
    obtain ⟨reports, hreads, hzero⟩ := hhandled.reads_again hcalm n
    exact ⟨reports, _, hreads.run, hreads.reads.store, hzero⟩
  · intro hdisabled
    rw [after_of_run (handleEvent_run_of_disabled hdisabled)]
  · intro owner hfound ho hpassed
    exact handleEvent_store_of_passed h hfound ho hpassed

/-- The login name that the first handling finds the owner by is a lookup hash after it. -/
theorem replay_harmless_alice :
    let k : Key := ⟨List.replicate 16 7, .inl rfl⟩
    let alice : Owner := ⟨"alice", "acme", false, Registry.empty.file ⟨"username", some "al"⟩⟩
    let v := settled k (({} : Store).putOwner alice) (Tenancy.none.setEnabled "acme" true)
    let event : Event := .adminCreated "acme" "al"
    ∃ report v₁ alice₁ reports v₂, handleEvent event v = .ok report v₁ ∧
      v₁.store.owner? "alice" = some alice₁ ∧
      alice₁.value "username" = some (LookupHash.of "al") ∧
      each handleEvent [event, event] v₁ = .ok reports v₂ ∧ v₂.store = v₁.store ∧
      ∀ again ∈ reports, again.fieldsChanged = 0 := by
  intro k alice v event
  have hfound : v.store.ownerOf v.tenancy event = some alice.id := by decide +revert
  have hcalm : v.Calm (.ok k) := calm_settled k _ _
  have ho : v.store.owner? alice.id = some alice := Store.owner?_putOwner_self {} alice
  have hevent : event.Unambiguous v.store := by
    intro a b ha hb _ _ _ _
    rw [Store.eq_of_owner?_single ha, Store.eq_of_owner?_single hb]
  have hvalue : alice.value "username" = some "al" :=
    Owner.value_write_self ⟨"alice", "acme", false, .empty⟩ "username" _
  obtain ⟨report, v₁, hencrypt, -, hsealed⟩ := encryptOwner_seals hcalm ho (by decide) rfl hvalue
    (by decide) (reveal_of_not_marked (.ok k) (by decide))
  have hrun := (handleEvent_run_of_some hcalm rfl hfound).trans hencrypt
  obtain ⟨hagain, found, -, hoff, -⟩ := replay_harmless hcalm event
  rw [after_of_run hrun] at hoff
  obtain ⟨alice₁, ho₁, -⟩ := Store.exists_owner_of_head?_eq ho (hoff.heads alice.id)
  obtain ⟨reports, v₂, hruns, hstore, hzero⟩ := hagain hevent report v₁ hrun 2
  refine ⟨report, v₁, alice₁, reports, v₂, hrun, ho₁, ?_, hruns, hstore, hzero⟩
  rw [← Store.stored_cell ho₁]
  exact hsealed.stored

end Work

end FieldVault

/-
Decrypting an owner writes exactly what reading it serves.

The two ways to plain values are written separately: a migration collects verified texts and stale
records before it writes, and a reading fills a copy of the record and lists what it withholds. Cell
by cell they come to the same: an entry holds what the read of its cell answers. So the record that
a migration leaves is the one that a lenient reading serves, and where a reading withholds anything
the migration fails on the first of it.
-/
import FieldVault.Proofs.Decryption
import FieldVault.Proofs.Reading.Agreement

set_option autoImplicit false

namespace FieldVault.Work

open Vault

variable {k : Key} {v : Vault} {id : OwnerId} {owner : Owner}

/-- The owner that decrypting leaves is the one that a lenient reading serves. -/
theorem owner?_of_decrypted {t : Store} (ho : v.store.owner? owner.id = some owner)
    (hhead : t.head? owner.id = v.store.head? owner.id)
    (hcells : ∀ field, t.cell owner.id field =
      (v.store.cell owner.id field).decrypted k ⟨owner.tenant, owner.id, field⟩) :
    t.owner? owner.id = some (v.store.reading false (.ok k) owner).owner := by
  obtain ⟨owner', ho', htenant, hservice⟩ := Store.exists_owner_of_head?_eq ho hhead
  obtain ⟨hid₁, htenant₁, hservice₁⟩ := Store.head_reading v.store false (.ok k) owner
  rw [ho', Option.some.injEq]
  refine Owner.ext_entry ((Store.id_of_owner? ho').trans hid₁.symm) (htenant.trans htenant₁.symm)
    (hservice.trans hservice₁.symm) ?_
  intro field
  rw [← Store.entry_cell ho', hcells, Store.entry_reading ho, Cell.decrypted, Store.entry_cell ho]

/-- **Decrypting writes what a lenient reading serves.** Whatever the store holds, a lenient reading
of an owner succeeds. If it withholds nothing, a unit of work that decrypts the owner succeeds and
leaves the record that was served, without shadow records; otherwise it fails on the first field
that was withheld, and the store is as it was. -/
theorem decryptOwnerIn_writes_reading (h : v.Calm (.ok k)) (ho : v.store.owner? id = some owner) :
    ∃ served : Reading,
      answer (loadOwnerPlain id) { v with strict := false } = .ok served ∧
      ((∃ report, answer (transaction (decryptOwnerIn id)) v = .ok report) ↔
        served.unreadable = []) ∧
      (served.unreadable = [] →
        (after (transaction (decryptOwnerIn id)) v).store.owner? id = some served.owner ∧
          (after (transaction (decryptOwnerIn id)) v).store.shadowsOf id = []) ∧
      (∀ field rest, served.unreadable = field :: rest →
        answer (transaction (decryptOwnerIn id)) v =
            .error (.integrity ⟨owner.tenant, id, field⟩) ∧
          (after (transaction (decryptOwnerIn id)) v).store = v.store) := by
  have hid := Store.id_of_owner? ho
  subst hid
  refine ⟨v.store.reading false (.ok k) owner,
    (loadOwnerPlain_reads_key (h.with_strict false) ho).answer, ?_⟩
  -- Nothing is withheld and the migration goes through, or it fails on the first name.
  cases hu : (v.store.reading false (.ok k) owner).unreadable with
  | nil =>
    obtain ⟨report, v', hrun, hwrites, hcells⟩ := decryptOwnerIn_run h ho hu
    have htransaction := transaction_run_of_ok h hrun
    rw [answer_of_run htransaction, after_of_run htransaction]
    refine ⟨⟨fun _ => rfl, fun _ => ⟨report, rfl⟩⟩, fun _ => ⟨?_, ?_⟩, ?_⟩
    · exact owner?_of_decrypted ho (hwrites.off.heads owner.id) hcells
    · exact Store.shadowsOf_eq_nil fun field => congrArg Cell.shadow (hcells field)
    · intro field rest hcons
      cases hcons
  | cons first others =>
    obtain ⟨v', hrun, hreads⟩ := decryptOwnerIn_fails h ho hu
    have htransaction := transaction_run_of_error h hrun
    rw [answer_of_run_error htransaction, after_of_run_error htransaction]
    refine ⟨⟨?_, ?_⟩, ?_, ?_⟩
    · rintro ⟨report, hreport⟩
      cases hreport
    · intro hnil
      cases hnil
    · intro hnil
      cases hnil
    · intro field rest hcons
      obtain ⟨rfl, -⟩ := List.cons.inj hcons
      exact ⟨rfl, rfl⟩

/-- The email of an owner is encrypted, and in the first name stands the token of a text that is
marked itself: both texts are served, and both are written. With something else than a token in the
shadow record, the email is withheld and the owner stays as it is. -/
theorem decryptOwnerIn_writes_reading_alice :
    let k : Key := ⟨List.replicate 16 7, .inl rfl⟩
    let unnamed : Owner :=
      ⟨"alice", "acme", false, Registry.empty.file ⟨"email", some (LookupHash.of "a@acme")⟩⟩
    let alice := unnamed.write "firstName" (some (k.tokenText Block.zero "$$$Al"))
    let holding := fun ciphertext : String => settled k { ({} : Store).putOwner alice with
      shadows := Registry.empty.file ⟨⟨Block.zero⟩, "alice", "email", ciphertext⟩ } .none
    let token := k.tokenText Block.zero "a@acme"
    let v := holding token
    let w := holding "$$$"
    (∃ served report,
      answer (loadOwnerPlain "alice") { v with strict := false } = .ok ⟨served, []⟩ ∧
      served.value "email" = some "a@acme" ∧ served.value "firstName" = some "$$$Al" ∧
      answer (transaction (decryptOwnerIn "alice")) v = .ok report ∧
      (after (transaction (decryptOwnerIn "alice")) v).store.owner? "alice" = some served ∧
      (after (transaction (decryptOwnerIn "alice")) v).store.shadowsOf "alice" = []) ∧
    ∃ served, answer (loadOwnerPlain "alice") { w with strict := false } =
        .ok ⟨served, ["email"]⟩ ∧
      answer (transaction (decryptOwnerIn "alice")) w =
        .error (.integrity ⟨"acme", "alice", "email"⟩) ∧
      (after (transaction (decryptOwnerIn "alice")) w).store = w.store := by
  intro k unnamed alice holding token v w
  have hcalm : ∀ ciphertext, (holding ciphertext).Calm (.ok k) := fun _ => calm_settled k _ _
  have ho : ∀ ciphertext, (holding ciphertext).store.owner? "alice" = some alice := fun _ =>
    Store.owner?_putOwner_self {} alice
  have hhash : alice.value "email" = some (LookupHash.of "a@acme") :=
    (Owner.value_write_of_ne unnamed (by decide) _).trans
      (Owner.value_write_self ⟨"alice", "acme", false, .empty⟩ "email" _)
  have hname : alice.value "firstName" = some (k.tokenText Block.zero "$$$Al") :=
    Owner.value_write_self unnamed "firstName" _
  have hstale : isStale (alice.value "email") = false := hhash ▸ isStale_of "a@acme"
  have hread : ∀ ciphertext,
      answer (loadOwnerPlain "alice") { holding ciphertext with strict := false } =
        .ok ((holding ciphertext).store.reading false (.ok k) alice) := fun ciphertext =>
    (loadOwnerPlain_reads_key ((hcalm ciphertext).with_strict false) (ho ciphertext)).answer
  have hunreadable : ∀ (ciphertext : String) {x : Except Error String},
      verified (.ok k) ⟨"acme", "alice", "email"⟩ (alice.value "email") ciphertext = x →
      ((holding ciphertext).store.reading false (.ok k) alice).unreadable =
        if x.toOption.isNone then ["email"] else [] := fun ciphertext _ hx =>
    unreadable_of_single (ho ciphertext) ⟨⟨Block.zero⟩, "alice", "email", ciphertext⟩ rfl hstale hx
  constructor
  · have hverified : verified (.ok k) ⟨"acme", "alice", "email"⟩ (alice.value "email") token =
        .ok "a@acme" := by
      rw [hhash, verified_of (reveal_tokenText k Block.zero "a@acme")]
    have hnil : (v.store.reading false (.ok k) alice).unreadable = [] :=
      hunreadable token hverified
    obtain ⟨served, hserved, hiff, hrestored, -⟩ :=
      decryptOwnerIn_writes_reading (hcalm token) (ho token)
    cases hserved.symm.trans (hread token)
    obtain ⟨report, hreport⟩ := hiff.2 hnil
    obtain ⟨howner, hgone⟩ := hrestored hnil
    have hemail : (v.store.cell "alice" "email").read false (.ok k) ⟨"acme", "alice", "email"⟩ =
        .ok (some "a@acme") :=
      Cell.read_of_hash rfl ((Store.stored_cell (ho token)).trans hhash)
        (reveal_tokenText k Block.zero "a@acme")
    have hfirstName : (v.store.cell "alice" "firstName").read false (.ok k)
        ⟨"acme", "alice", "firstName"⟩ = .ok (some "$$$Al") := by
      rw [Cell.read_of_not_live rfl, Store.stored_cell (ho token), hname, storedText_lenient,
        openedText, Option.map_some, reveal_tokenText]
      rfl
    refine ⟨_, report, by rw [hserved, ← hnil], ?_, ?_, hreport, howner, hgone⟩
    · exact (Store.value_reading (ho token) "email").trans
        (congrArg (·.toOption.getD none) hemail)
    · exact (Store.value_reading (ho token) "firstName").trans
        (congrArg (·.toOption.getD none) hfirstName)
  · have hfirst : (w.store.reading false (.ok k) alice).unreadable = ["email"] :=
      hunreadable "$$$" rfl
    obtain ⟨served, hserved, -, -, hfails⟩ :=
      decryptOwnerIn_writes_reading (hcalm "$$$") (ho "$$$")
    cases hserved.symm.trans (hread "$$$")
    obtain ⟨herror, hkept⟩ := hfails "email" [] hfirst
    exact ⟨_, by rw [hserved, ← hfirst], herror, hkept⟩

end FieldVault.Work

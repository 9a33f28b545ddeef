/-
Calm vaults: no outage is scheduled, the store serves, and the key provider always answers alike.

In a calm vault each call of the store is a plain look-up or a plain change. Work that only reads
leaves everything as it was but the journal and the state of the provider, on which no later answer
depends; so what it answers is a function of the store and the settings, and a list of such work
answers the list of the answers.
-/
import FieldVault.Proofs.FieldCipher
import FieldVault.Proofs.Store
import FieldVault.Vault

set_option autoImplicit false

namespace FieldVault

variable {α β : Type} {r : Except KeyError Key} {v v' v'' : Vault}

namespace Vault

/-- Every request for the key gets the answer `r`, and nothing is out of order. -/
structure Calm (r : Except KeyError Key) (v : Vault) : Prop where
  answers : v.cipher.keys.Answers r
  serving : v.poisoned = false
  outages : v.outages = .none

/-- A calm vault that some work may have left where `v` was: the settings are the same. -/
structure Follows (r : Except KeyError Key) (v v' : Vault) : Prop where
  calm : v'.Calm r
  tenancy : v'.tenancy = v.tenancy
  strict : v'.strict = v.strict

/-- A calm vault that reading may have left where `v` was: only the journal and the provider can
differ. -/
structure Reads (r : Except KeyError Key) (v v' : Vault) : Prop extends Follows r v v' where
  store : v'.store = v.store
  ivs : v'.cipher.ivs = v.cipher.ivs
  ids : v'.ids = v.ids

theorem Follows.refl (h : v.Calm r) : Follows r v v := ⟨h, rfl, rfl⟩

theorem Follows.trans (h : Follows r v v') (h' : Follows r v' v'') : Follows r v v'' :=
  ⟨h'.calm, h'.tenancy.trans h.tenancy, h'.strict.trans h.strict⟩

theorem Reads.refl (h : v.Calm r) : Reads r v v := ⟨.refl h, rfl, rfl, rfl⟩

theorem Reads.trans (h : Reads r v v') (h' : Reads r v' v'') : Reads r v v'' :=
  ⟨h.toFollows.trans h'.toFollows, h'.store.trans h.store, h'.ivs.trans h.ivs,
    h'.ids.trans h.ids⟩

/-- A cipher with the same answers and the same vectors makes no difference. -/
theorem Reads.of_cipher {c : FieldCipher} (h : v.Calm r) (hc : c.keys.Answers r)
    (hivs : c.ivs = v.cipher.ivs) : Reads r v { v with cipher := c } :=
  ⟨⟨⟨hc, h.serving, h.outages⟩, rfl, rfl⟩, rfl, hivs, rfl⟩

/-- Changing the store, the supply of ids or the cipher keeps a vault calm under its settings. -/
theorem Calm.follows_store (h : v.Calm r) (store : Store) : Follows r v { v with store } :=
  ⟨⟨h.answers, h.serving, h.outages⟩, rfl, rfl⟩

theorem Calm.with_strict (h : v.Calm r) (strict : Bool) : ({ v with strict } : Vault).Calm r :=
  ⟨h.answers, h.serving, h.outages⟩

/-- A vault over a store, with a settled key and its supplies at their start. -/
def settled (k : Key) (store : Store) (tenancy : Tenancy) : Vault where
  cipher := .settled k fun _ => Block.zero
  store := store
  tenancy := tenancy
  ids := ⟨fun _ => ⟨Block.zero⟩, 0⟩

theorem calm_settled (k : Key) (store : Store) (tenancy : Tenancy) :
    (settled k store tenancy).Calm (.ok k) :=
  ⟨FieldCipher.answers_settled k _, rfl, rfl⟩

end Vault

namespace Work

open Vault

/-! ## Calls of a calm store -/

section Calls

variable (h : v.Calm r)
include h

theorem attempt_run (call : Call) : attempt call v = .ok () v := by
  have ho := h.outages
  obtain ⟨cipher, store, tenancy, strict, ids, poisoned, outages⟩ := v
  simp only at ho
  subst ho
  rfl

theorem ensureServing_run : ensureServing v = .ok () v := by
  rw [ensureServing, h.serving]
  rfl

theorem loadOwner_run (id : OwnerId) : loadOwner id v = .ok (v.store.owner? id) v :=
  (run_bind_of_ok (attempt_run h .loadOwner) _).trans rfl

theorem findShadow_run (owner : OwnerId) (field : FieldName) :
    findShadow owner field v = .ok (v.store.shadow? owner field) v :=
  (run_bind_of_ok (attempt_run h .findShadow) _).trans rfl

theorem shadowsOf_run (owner : OwnerId) : shadowsOf owner v = .ok (v.store.shadowsOf owner) v :=
  (run_bind_of_ok (attempt_run h .shadowsOf) _).trans rfl

theorem ownersIn_run (tenant : TenantId) : ownersIn tenant v = .ok (v.store.ownersIn tenant) v :=
  (run_bind_of_ok (attempt_run h .ownersIn) _).trans
    ((run_bind_of_ok (ensureServing_run h) _).trans rfl)

theorem holders_run (tenant : TenantId) (field : FieldName) (value : String) :
    holders tenant field value v = .ok (v.store.holders tenant field value) v :=
  (run_bind_of_ok (attempt_run h .holders) _).trans
    ((run_bind_of_ok (ensureServing_run h) _).trans rfl)

theorem readOwner_run (id : OwnerId) : readOwner id v = .ok (v.store.view? id) v :=
  (run_bind_of_ok (attempt_run h .readOwner) _).trans
    ((run_bind_of_ok (ensureServing_run h) _).trans rfl)

theorem writeField_run {id : OwnerId} {field : FieldName} {value : Option String} {store : Store}
    (hw : v.store.writeField id field value = .ok store) :
    writeField id field value v = .ok () { v with store } := by
  rw [writeField, run_bind_of_ok (attempt_run h .writeField), changeStore]
  simp only [hw]

theorem writeField_run_of_none {id : OwnerId} (ho : v.store.owner? id = none) (field : FieldName)
    (value : Option String) :
    writeField id field value v = .error (.store (.ownerNotFound id)) v := by
  have hw : v.store.writeField id field value = .error (.ownerNotFound id) := by
    rw [Store.writeField, ho]
  rw [writeField, run_bind_of_ok (attempt_run h .writeField), changeStore]
  simp only [hw]

theorem persistShadow_run {shadow : Shadow} {store : Store}
    (hp : v.store.putShadow shadow = .ok store) :
    persistShadow shadow v = .ok () { v with store } := by
  rw [persistShadow, run_bind_of_ok (attempt_run h .persistShadow), changeStore]
  simp only [hp]

theorem removeShadow_run (shadow : Shadow) :
    removeShadow shadow v = .ok () { v with store := v.store.removeShadow shadow } :=
  (run_bind_of_ok (attempt_run h .removeShadow) _).trans rfl

theorem insertOwner_run (owner : Owner) :
    insertOwner owner v = .ok () { v with store := v.store.putOwner owner } :=
  (run_bind_of_ok (ensureServing_run h) _).trans rfl

theorem setEnabled_run (tenant : TenantId) (enabled : Bool) :
    setEnabled tenant enabled v =
      .ok () { v with tenancy := v.tenancy.setEnabled tenant enabled } :=
  (run_bind_of_ok (attempt_run h .setEnabled) _).trans rfl

/-- A unit of work that succeeds publishes what it did. -/
theorem transaction_run_of_ok {work : Work α} {a : α} (hw : work v = .ok a v') :
    transaction work v = .ok a v' := by
  have hbegin : begin v = .ok () v :=
    (run_bind_of_ok (attempt_run h .transaction) _).trans (ensureServing_run h)
  refine (run_bind_of_ok hbegin _).trans ?_
  simp only [hw]

/-- A unit of work that fails leaves the store that it began with. -/
theorem transaction_run_of_error {work : Work α} {e : Error} (hw : work v = .error e v') :
    transaction work v = .error e { v' with store := v.store } := by
  have hbegin : begin v = .ok () v :=
    (run_bind_of_ok (attempt_run h .transaction) _).trans (ensureServing_run h)
  refine (run_bind_of_ok hbegin _).trans ?_
  simp only [hw]

end Calls

/-! ## Work that reads -/

/-- In this vault the work answers `x` and changes nothing that a later answer depends on. -/
structure ReadsAs (r : Except KeyError Key) (work : Work α) (v : Vault) (x : Except Error α) :
    Prop where
  answer : answer work v = x
  reads : Vault.Reads r v (after work v)

namespace ReadsAs

theorem pure (h : v.Calm r) (a : α) : ReadsAs r (Pure.pure a) v (.ok a) := ⟨rfl, .refl h⟩

theorem throw (h : v.Calm r) (e : Error) : ReadsAs r (throwThe Error e : Work α) v (.error e) :=
  ⟨rfl, .refl h⟩

theorem of_run {work : Work α} {a : α} (h : v.Calm r) (hw : work v = .ok a v) :
    ReadsAs r work v (.ok a) :=
  ⟨answer_of_run hw, by rw [after_of_run hw]; exact .refl h⟩

theorem bind {work : Work α} {next : α → Work β} {a : α} {x : Except Error β}
    (h : ReadsAs r work v (.ok a)) (h' : ReadsAs r (next a) (after work v) x) :
    ReadsAs r (work >>= next) v x := by
  refine ⟨?_, ?_⟩
  · rw [answer_bind_of_ok h.answer, h'.answer]
  · rw [after_bind_of_ok h.answer]
    exact h.reads.trans h'.reads

/-- Work after work that leaves the very vault. -/
theorem bind_run {work : Work α} {next : α → Work β} {a : α} {x : Except Error β}
    (hw : work v = .ok a v) (h : ReadsAs r (next a) v x) : ReadsAs r (work >>= next) v x := by
  have hrun : (work >>= next) v = next a v := run_bind_of_ok hw next
  refine ⟨?_, ?_⟩
  · rw [← h.answer, FieldVault.answer, hrun, FieldVault.answer]
  · rw [after, hrun]
    exact h.reads

theorem bind_error {work : Work α} {e : Error} (h : ReadsAs r work v (.error e))
    (next : α → Work β) : ReadsAs r (work >>= next) v (.error e) := by
  refine ⟨answer_bind_of_error h.answer next, ?_⟩
  rw [after_bind_of_error h.answer]
  exact h.reads

theorem outcome {work : Work α} {x : Except Error α} (h : ReadsAs r work v x) :
    ReadsAs r (FieldVault.outcome work) v (.ok x) := by
  refine ⟨?_, ?_⟩
  · rw [answer_outcome, h.answer]
  · rw [after_outcome]
    exact h.reads

/-- Reading work that succeeds, as an equation for its run. -/
theorem run {work : Work α} {a : α} (h : ReadsAs r work v (.ok a)) :
    work v = .ok a (after work v) :=
  run_of_answer h.answer

/-- A list of work that reads answers the list of the answers, or the first failure. -/
theorem each {work : α → Work β} {g : α → Except Error β} {items : List α} (h : v.Calm r)
    (hitem : ∀ a ∈ items, ∀ v', Vault.Reads r v v' → ReadsAs r (work a) v' (g a)) :
    ReadsAs r (each work items) v (items.mapM g) := by
  induction items generalizing v with
  | nil => exact .pure h []
  | cons a as ih =>
    rw [List.mapM_cons]
    -- The first item runs in `v`; the others run in a vault that was only read.
    have ha := hitem a List.mem_cons_self v (.refl h)
    cases hg : g a with
    | error e =>
      rw [hg] at ha
      exact ha.bind_error _
    | ok b =>
      rw [hg] at ha
      have has := ih ha.reads.calm fun a' ha' v' hv' =>
        hitem a' (List.mem_cons_of_mem a ha') v' (ha.reads.trans hv')
      refine ha.bind ?_
      cases hm : as.mapM g with
      | error e =>
        rw [hm] at has
        exact has.bind_error _
      | ok bs =>
        rw [hm] at has
        exact has.bind (.pure has.reads.calm _)

/-- A list of work that reads, whatever each item answers. -/
theorem each_of {P : β → Prop} {work : α → Work β} {items : List α} (h : v.Calm r)
    (hitem : ∀ a ∈ items, ∀ v', Vault.Reads r v v' →
      ∃ b, ReadsAs r (work a) v' (.ok b) ∧ P b) :
    ∃ bs, ReadsAs r (Work.each work items) v (.ok bs) ∧ ∀ b ∈ bs, P b := by
  induction items generalizing v with
  | nil => exact ⟨[], .pure h [], fun b hb => by cases hb⟩
  | cons a as ih =>
    obtain ⟨b, hb, hPb⟩ := hitem a List.mem_cons_self v (.refl h)
    obtain ⟨bs, hbs, hPbs⟩ := ih hb.reads.calm fun a' ha' v' hv' =>
      hitem a' (List.mem_cons_of_mem a ha') v' (hb.reads.trans hv')
    refine ⟨b :: bs, hb.bind (hbs.bind (.pure hbs.reads.calm _)), ?_⟩
    intro c hc
    rcases List.mem_cons.1 hc with rfl | hc
    · exact hPb
    · exact hPbs c hc

/-- A list of work that reads, however it ends. -/
theorem each_any {work : α → Work β} (h : v.Calm r) (items : List α)
    (hitem : ∀ a v', v'.Calm r → ∃ x, ReadsAs r (work a) v' x) :
    ∃ x, ReadsAs r (Work.each work items) v x := by
  induction items generalizing v with
  | nil => exact ⟨_, .pure h []⟩
  | cons a as ih =>
    obtain ⟨x, hx⟩ := hitem a v h
    cases x with
    | error e => exact ⟨_, hx.bind_error _⟩
    | ok b =>
      obtain ⟨y, hy⟩ := ih hx.reads.calm
      cases y with
      | error e => exact ⟨_, hx.bind (hy.bind_error _)⟩
      | ok bs => exact ⟨_, hx.bind (hy.bind (.pure hy.reads.calm _))⟩

/-- A unit of work that reads answers what its work answers. -/
theorem transaction {work : Work α} {x : Except Error α} (h : v.Calm r)
    (hw : ReadsAs r work v x) : ReadsAs r (Work.transaction work) v x := by
  cases x with
  | ok a =>
    have hrun := transaction_run_of_ok h hw.run
    exact ⟨answer_of_run hrun, by rw [after_of_run hrun]; exact hw.reads⟩
  | error e =>
    have hrun := transaction_run_of_error h (run_of_answer_error hw.answer)
    refine ⟨answer_of_run_error hrun, ?_⟩
    -- The store that is brought back is the one that reading left.
    rw [after_of_run_error hrun, ← hw.reads.store]
    exact hw.reads

end ReadsAs

theorem answer_onCipher (action : FieldCipher.Action α) (v : Vault) :
    answer (onCipher action) v = answer action v.cipher := by
  rw [answer, answer, onCipher]
  cases action v.cipher <;> rfl

theorem after_onCipher (action : FieldCipher.Action α) (v : Vault) :
    after (onCipher action) v = { v with cipher := after action v.cipher } := by
  rw [after, after, onCipher]
  cases action v.cipher <;> rfl

theorem note_reads (h : v.Calm r) (notice : Notice) : ReadsAs r (note notice) v (.ok ()) :=
  ⟨rfl, .of_cipher h h.answers rfl⟩

theorem key_reads (h : v.Calm r) :
    ReadsAs r (onCipher FieldCipher.key) v (r.mapError Error.key) := by
  refine ⟨?_, ?_⟩
  · rw [answer_onCipher, FieldCipher.answer_key h.answers]
  · rw [after_onCipher]
    exact .of_cipher h (FieldCipher.answers_after_key h.answers)
      (FieldCipher.ivs_after_key v.cipher)

/-- Decrypting within a vault answers what the cipher reveals. -/
theorem decrypt_reads (h : v.Calm r) (value : String) :
    ReadsAs r (onCipher (FieldCipher.decrypt value)) v (reveal r value) := by
  refine ⟨?_, ?_⟩
  · rw [answer_onCipher, FieldCipher.answer_decrypt h.answers]
  · rw [after_onCipher]
    exact .of_cipher h (FieldCipher.answers_after_decrypt h.answers value)
      (FieldCipher.ivs_after_decrypt value v.cipher)

end Work

/-! ## Work that writes -/

namespace Vault

variable {touched wider : OwnerId → FieldName → Prop}

/-- A calm vault that writing may have left where `v` was: only the touched cells can differ, apart
from what draws and notices leave. -/
structure Writes (r : Except KeyError Key) (touched : OwnerId → FieldName → Prop)
    (v v' : Vault) : Prop extends Follows r v v' where
  off : v.store.SameOff touched v'.store

theorem Writes.refl (h : v.Calm r) : Writes r touched v v := ⟨.refl h, .refl touched _⟩

theorem Writes.trans (h : Writes r touched v v') (h' : Writes r touched v' v'') :
    Writes r touched v v'' :=
  ⟨h.toFollows.trans h'.toFollows, h.off.trans h'.off⟩

theorem Writes.mono (h : Writes r touched v v')
    (hsub : ∀ id field, touched id field → wider id field) : Writes r wider v v' :=
  ⟨h.toFollows, h.off.mono hsub⟩

theorem Reads.writes (h : Reads r v v') : Writes r touched v v' :=
  ⟨h.toFollows, by rw [h.store]; exact .refl touched _⟩

/-- Setting one cell of the store touches that cell. -/
theorem Calm.writes_of_sets (h : v.Calm r) {id : OwnerId} {field : FieldName} {c : Cell}
    {store : Store} (hs : v.store.Sets id field c store) :
    Writes r (fun id' field' => id' = id ∧ field' = field) v { v with store } :=
  ⟨h.follows_store store, hs.off⟩

end Vault

namespace Work

open Vault

/-- **A loop whose steps touch separate regions** does to each region what its step does alone. Each
step starts from a vault that differs from the first one off its own region only, because the steps
before it stayed in theirs; and the steps after it stay out of its region, so what it did stands. -/
theorem each_run (region : α → OwnerId → FieldName → Prop)
    (post : α → OwnerId → FieldName → Cell → Cell → Prop) (result : α → β → Prop)
    (work : α → Work β) {items : List α} (h : v.Calm r)
    (hseparate : items.Pairwise fun a b => ∀ id field, region a id field → ¬region b id field)
    (hstep : ∀ a ∈ items, ∀ v₁, Writes r (fun id field => ¬region a id field) v v₁ →
      ∃ b v₂, work a v₁ = .ok b v₂ ∧ result a b ∧ Writes r (region a) v₁ v₂ ∧
        ∀ id field, region a id field →
          post a id field (v.store.cell id field) (v₂.store.cell id field)) :
    ∃ bs v', each work items v = .ok bs v' ∧ List.Forall₂ result items bs ∧
      Writes r (fun id field => ∃ a ∈ items, region a id field) v v' ∧
        ∀ a ∈ items, ∀ id field, region a id field →
          post a id field (v.store.cell id field) (v'.store.cell id field) := by
  induction items generalizing v with
  | nil =>
    refine ⟨[], v, rfl, .nil, .refl h, ?_⟩
    intro a ha
    cases ha
  | cons a as ih =>
    -- `v₁` is where the first step ends, and where the loop over the rest starts.
    obtain ⟨hfirst, hrest⟩ := List.pairwise_cons.1 hseparate
    obtain ⟨b, v₁, hrun, hresult, hwrites, hpost⟩ := hstep a List.mem_cons_self v (.refl h)
    obtain ⟨bs, v', hruns, hresults, hwrites', hposts⟩ := ih hwrites.calm hrest (by
      intro b hb v₂ hv₂
      -- Seen from `v`, the first step and those before `b` stayed out of the region of `b`.
      have hseen : Writes r (fun id field => ¬region b id field) v v₂ :=
        (hwrites.mono fun id field ha => hfirst b hb id field ha).trans hv₂
      obtain ⟨c, v₃, hrun₃, hresult₃, hwrites₃, hpost₃⟩ :=
        hstep b (List.mem_cons_of_mem a hb) v₂ hseen
      refine ⟨c, v₃, hrun₃, hresult₃, hwrites₃, ?_⟩
      intro id field hregion
      have hcell : v₁.store.cell id field = v.store.cell id field :=
        hwrites.off.cells id field fun ha => hfirst b hb id field ha hregion
      rw [hcell]
      exact hpost₃ id field hregion)
    have htouched : Writes r (fun id field => ∃ b ∈ a :: as, region b id field) v v' :=
      (hwrites.mono fun id field ha => ⟨a, List.mem_cons_self, ha⟩).trans
        (hwrites'.mono fun id field hb => by
          obtain ⟨b, hb, hregion⟩ := hb
          exact ⟨b, List.mem_cons_of_mem a hb, hregion⟩)
    refine ⟨b :: bs, v', ?_, .cons hresult hresults, htouched, ?_⟩
    · rw [each, run_bind_of_ok hrun, run_bind_of_ok hruns]
      rfl
    · intro b hb id field hregion
      rcases List.mem_cons.1 hb with rfl | hb
      -- What the first step did stands, because no later step comes near it.
      · have hcell : v'.store.cell id field = v₁.store.cell id field := by
          refine hwrites'.off.cells id field ?_
          rintro ⟨c, hc, hregion'⟩
          exact hfirst c hc id field hregion hregion'
        rw [hcell]
        exact hpost id field hregion
      · have hcell : v₁.store.cell id field = v.store.cell id field :=
          hwrites.off.cells id field fun ha => hfirst b hb id field ha hregion
        rw [← hcell]
        exact hposts b hb id field hregion

/-- The same for a loop over fields of one owner: each step works on one cell, which it finds as it
was before the loop. -/
theorem each_fields_run (id : OwnerId) (name : α → FieldName) (post : α → Cell → Cell → Prop)
    (result : α → β → Prop) (work : α → Work β) {items : List α} (h : v.Calm r)
    (hnames : (items.map name).Nodup)
    (hstep : ∀ a ∈ items, ∀ v₁, Follows r v v₁ → v₁.store.head? id = v.store.head? id →
      v₁.store.cell id (name a) = v.store.cell id (name a) →
      ∃ b v₂, work a v₁ = .ok b v₂ ∧ result a b ∧
        Writes r (fun id' field => id' = id ∧ field = name a) v₁ v₂ ∧
        post a (v.store.cell id (name a)) (v₂.store.cell id (name a))) :
    ∃ bs v', each work items v = .ok bs v' ∧ List.Forall₂ result items bs ∧
      Writes r (fun id' field => id' = id ∧ field ∈ items.map name) v v' ∧
        ∀ a ∈ items, post a (v.store.cell id (name a)) (v'.store.cell id (name a)) := by
  -- Different names are different cells.
  have hseparate : items.Pairwise fun a b => ∀ id' field,
      (id' = id ∧ field = name a) → ¬(id' = id ∧ field = name b) := by
    refine List.Pairwise.imp ?_ (List.pairwise_map.1 hnames)
    rintro a b hne id' field ⟨-, rfl⟩ ⟨-, heq⟩
    exact hne heq
  obtain ⟨bs, v', hrun, hresults, hwrites, hposts⟩ := each_run
    (fun a id' field => id' = id ∧ field = name a)
    (fun a _ _ c c' => post a c c') result work h hseparate (by
      intro a ha v₁ hv₁
      have hcell : v₁.store.cell id (name a) = v.store.cell id (name a) :=
        hv₁.off.cells id (name a) fun hn => hn ⟨rfl, rfl⟩
      obtain ⟨b, v₂, hrun, hresult, hwrites, hpost⟩ :=
        hstep a ha v₁ hv₁.toFollows (hv₁.off.heads id) hcell
      refine ⟨b, v₂, hrun, hresult, hwrites, ?_⟩
      rintro id' field ⟨rfl, rfl⟩
      exact hpost)
  refine ⟨bs, v', hrun, hresults, hwrites.mono ?_,
    fun a ha => hposts a ha id (name a) ⟨rfl, rfl⟩⟩
  rintro id' field ⟨a, ha, rfl, rfl⟩
  exact ⟨rfl, List.mem_map_of_mem ha⟩

/-- The same for a loop over owners: each step works on one owner, which it finds as it was before
the loop. -/
theorem each_owners_run (post : OwnerId → FieldName → Cell → Prop) (result : OwnerId → β → Prop)
    (work : OwnerId → Work β) {ids : List OwnerId} (h : v.Calm r) (hnodup : ids.Nodup)
    (hstep : ∀ id ∈ ids, ∀ v₁, Follows r v v₁ → v₁.store.owner? id = v.store.owner? id →
      (∀ field, v₁.store.cell id field = v.store.cell id field) →
      ∃ b v₂, work id v₁ = .ok b v₂ ∧ result id b ∧ Writes r (fun id' _ => id' = id) v₁ v₂ ∧
        ∀ field, post id field (v₂.store.cell id field)) :
    ∃ bs v', each work ids v = .ok bs v' ∧ List.Forall₂ result ids bs ∧
      Writes r (fun id _ => id ∈ ids) v v' ∧
        ∀ id ∈ ids, ∀ field, post id field (v'.store.cell id field) := by
  have hseparate : ids.Pairwise fun a b => ∀ id (_ : FieldName), id = a → ¬id = b := by
    refine List.Pairwise.imp ?_ hnodup
    rintro a b hne id - rfl heq
    exact hne heq
  -- The region of a step is all cells of its owner.
  obtain ⟨bs, v', hrun, hresults, hwrites, hposts⟩ := each_run (fun a id _ => id = a)
    (fun id _ field _ c' => post id field c') result work h hseparate (by
      intro id hid v₁ hv₁
      have howner : v₁.store.owner? id = v.store.owner? id :=
        hv₁.off.owner?_eq fun _ hn => hn rfl
      have hcells : ∀ field, v₁.store.cell id field = v.store.cell id field :=
        fun field => hv₁.off.cells id field fun hn => hn rfl
      obtain ⟨b, v₂, hrun, hresult, hwrites, hpost⟩ := hstep id hid v₁ hv₁.toFollows howner hcells
      refine ⟨b, v₂, hrun, hresult, hwrites, ?_⟩
      rintro id' field rfl
      exact hpost field)
  refine ⟨bs, v', hrun, hresults, hwrites.mono ?_, fun id hid field => hposts id hid id field rfl⟩
  rintro id field ⟨a, ha, rfl⟩
  exact ha

end Work

end FieldVault

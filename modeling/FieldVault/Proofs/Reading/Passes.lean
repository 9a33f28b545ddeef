/-
The two passes over an owner, read off the stored record.

A reading changes the record while it goes over it, and the second pass looks at what the first one
left. That makes no difference to what either of them does. Every shadow record has a field of its
own, so what is served from one is not looked at for another; and what the first pass wrote the
second one leaves alone, even if it looks like a token. So the same is served if both passes look at
the record as it is stored, and all of it is put in at the end.
-/
import FieldVault.Proofs.Run
import FieldVault.Proofs.Store
import FieldVault.Reading

set_option autoImplicit false

namespace FieldVault

/-! ## Putting in what was served -/

/-- A field with what is served for it. -/
abbrev ServedField := FieldName × Work.Served

/-- An owner with the values to serve put in, and the names of the fields withheld. -/
def Work.assemble (owner : Owner) (served : List ServedField) : Reading :=
  ⟨served.foldl (fun o s => o.write s.1 (s.2.getD none)) owner,
    (served.filter (·.2.isNone)).map (·.1)⟩

namespace Reading

variable {reading : Reading} {field : FieldName}

/-- Puts in what is served for some fields, one after the other. -/
def putAll (reading : Reading) (served : List ServedField) : Reading :=
  served.foldl (fun r s => r.put s.1 s.2) reading

theorem owner_put (reading : Reading) (field : FieldName) (served : Work.Served) :
    (reading.put field served).owner = reading.owner.write field (served.getD none) := by
  cases served <;> rfl

theorem putAll_eq (served : List ServedField) (reading : Reading) :
    reading.putAll served = ⟨(Work.assemble reading.owner served).owner,
      reading.unreadable ++ (Work.assemble reading.owner served).unreadable⟩ := by
  induction served generalizing reading with
  | nil => simp [putAll, Work.assemble]
  | cons s served ih =>
    obtain ⟨field, value⟩ := s
    have hrest := ih (reading.put field value)
    rw [owner_put] at hrest
    rw [putAll, List.foldl_cons, ← putAll, hrest]
    cases value with
    | some value => rfl
    | none => simp [put, Work.assemble]

end Reading

/-- Filing an entry makes no difference to the entries with other keys. -/
theorem Registry.filter_toList_file {α κ : Type} [Keyed α κ] [Ord κ] [Std.TransOrd κ]
    [Std.LawfulEqOrd κ] {p : α → Bool} {x : α} (hp : ∀ y, key y = key x → p y = false)
    (r : Registry α) : (r.file x).toList.filter p = r.toList.filter p := by
  show (place x r.entries).filter p = r.entries.filter p
  fun_induction place x r.entries with
  | case1 => simp [hp x rfl]
  | case2 y ys _ => simp [hp x rfl]
  | case3 y ys heq =>
    have hy : key y = key x := (Std.LawfulEqOrd.eq_of_compare heq).symm
    simp [hp x rfl, hp y hy]
  | case4 y ys _ ih => simp [List.filter_cons, ih]

theorem Owner.filter_fields_write {p : Field → Bool} {field : FieldName}
    (hp : ∀ f, f.name = field → p f = false) (owner : Owner) (value : Option String) :
    (owner.write field value).fields.toList.filter p = owner.fields.toList.filter p :=
  Registry.filter_toList_file (x := ⟨field, value⟩) hp owner.fields

namespace Work

/-! ## The passes, off the stored record -/

/-- Serves some items, each under its name. -/
def collect {α : Type} (name : α → FieldName) (serve : α → Work Served) (items : List α) :
    Work (List ServedField) :=
  each (fun a => do return (name a, ← serve a)) items

/-- The shadow records that are not stale. -/
def liveAmong (owner : Owner) (shadows : List Shadow) : List Shadow :=
  shadows.filter fun s => !isStale (owner.value s.field)

/-- The fields that hold tokens, but for those that were served before. -/
def tokensBeside (owner : Owner) (verified : List FieldName) : List Field :=
  owner.fields.toList.filter fun f => !verified.contains f.name && holdsToken f

/-- What both passes serve, looked up in the stored record and put in at the end. -/
def readOff (owner : Owner) (shadows : List Shadow) : Work Reading := do
  let live := liveAmong owner shadows
  let fromShadows ← collect Shadow.field (serveShadow owner) live
  let tokens := owner.fields.toList.filter fun f =>
    live.all (·.field ≠ f.name) && holdsToken f
  let fromTokens ← collect Field.name (serveToken owner.id) tokens
  return assemble owner (fromShadows ++ fromTokens)

theorem tokensBeside_live (owner : Owner) (live : List Shadow) :
    tokensBeside owner (live.map Shadow.field) =
      owner.fields.toList.filter fun f => live.all (·.field ≠ f.name) && holdsToken f := by
  have hnone : ∀ f : Field,
      (!(live.map Shadow.field).contains f.name) = live.all (·.field ≠ f.name) := by
    intro f
    rw [Bool.eq_iff_iff, Bool.not_eq_true', ← Bool.not_eq_true, List.contains_iff_mem,
      List.mem_map, List.all_eq_true]
    simp only [not_exists, not_and, decide_eq_true_eq, ne_eq]
  simp only [tokensBeside, hnone]

theorem collect_cons {α : Type} (name : α → FieldName) (serve : α → Work Served) (a : α)
    (items : List α) : collect name serve (a :: items) = (do
      let served ← serve a
      let others ← collect name serve items
      return (name a, served) :: others) := by
  simp only [collect, each, bind_assoc, pure_bind]

/-- What a shadow record is served for depends on its own field alone. -/
theorem serveShadow_congr {owner owner' : Owner} {shadow : Shadow} (hid : owner'.id = owner.id)
    (htenant : owner'.tenant = owner.tenant)
    (hvalue : owner'.value shadow.field = owner.value shadow.field) :
    serveShadow owner' shadow = serveShadow owner shadow := by
  unfold serveShadow verifyShadow
  rw [hid, htenant, hvalue]

/-- The second pass opens the tokens in the fields that it is not to leave alone. -/
theorem serveTokens_eq (verified : List FieldName) (fields : List Field) (reading : Reading) :
    serveTokens verified reading fields = (do
      let served ← collect Field.name (serveToken reading.owner.id)
        (fields.filter fun f => !verified.contains f.name && holdsToken f)
      return reading.putAll served) := by
  induction fields generalizing reading with
  | nil => rfl
  | cons field fields ih =>
    rw [serveTokens, List.filter_cons]
    by_cases hskip : (verified.contains field.name || !holdsToken field) = true
    · have htoken : ¬(!verified.contains field.name && holdsToken field) = true := by
        simpa [or_iff_not_imp_left] using hskip
      rw [if_pos hskip, if_neg htoken, ih]
    · have htoken : (!verified.contains field.name && holdsToken field) = true := by
        simpa using hskip
      rw [if_neg hskip, if_pos htoken, collect_cons]
      simp only [bind_assoc, pure_bind]
      congr 1
      funext served
      have hid : (reading.put field.name served).owner.id = reading.owner.id := by
        rw [Reading.owner_put]
        rfl
      rw [ih, hid]
      rfl

/-- A record that a first pass is changing, as the shadow records ahead and the second pass see it:
it is the stored one but for the fields that were served. -/
structure Underway (owner : Owner) (verified : List FieldName) (shadows : List Shadow)
    (reading : Reading) : Prop where
  id : reading.owner.id = owner.id
  tenant : reading.owner.tenant = owner.tenant
  ahead : ∀ shadow ∈ shadows, reading.owner.value shadow.field = owner.value shadow.field
  others : ∀ p : Field → Bool, (∀ f, f.name ∈ verified → p f = false) →
    reading.owner.fields.toList.filter p = owner.fields.toList.filter p

theorem Underway.skip {owner : Owner} {verified : List FieldName} {shadow : Shadow}
    {shadows : List Shadow} {reading : Reading}
    (h : Underway owner verified (shadow :: shadows) reading) :
    Underway owner verified shadows reading :=
  ⟨h.id, h.tenant, fun sh hsh => h.ahead sh (List.mem_cons_of_mem _ hsh), h.others⟩

/-- Serving a shadow record changes its own field, which no shadow record ahead has. -/
theorem Underway.put {owner : Owner} {verified : List FieldName} {shadow : Shadow}
    {shadows : List Shadow} {reading : Reading}
    (h : Underway owner verified (shadow :: shadows) reading)
    (hnew : shadow.field ∉ shadows.map Shadow.field) (served : Served) :
    Underway owner (verified ++ [shadow.field]) shadows (reading.put shadow.field served) := by
  refine ⟨?_, ?_, fun sh hsh => ?_, fun p hp => ?_⟩
  · rw [Reading.owner_put]
    exact h.id
  · rw [Reading.owner_put]
    exact h.tenant
  · have hne : sh.field ≠ shadow.field := fun heq => hnew (heq ▸ List.mem_map_of_mem hsh)
    rw [Reading.owner_put, Owner.value_write_of_ne _ hne, h.ahead sh (List.mem_cons_of_mem _ hsh)]
  · rw [Reading.owner_put, Owner.filter_fields_write fun f hf => hp f (by simp [hf])]
    exact h.others p fun f hf => hp f (List.mem_append_left _ hf)

/-- Both passes from anywhere in the first one. -/
theorem passes_eq (owner : Owner) (shadows : List Shadow)
    (hnodup : (shadows.map Shadow.field).Nodup) (verified : List FieldName) (reading : Reading)
    (h : Underway owner verified shadows reading) :
    (do let (reading, verified) ← serveShadows reading verified shadows
        serveTokens verified reading reading.owner.fields.toList) = (do
      let fromShadows ← collect Shadow.field (serveShadow owner) (liveAmong owner shadows)
      let fromTokens ← collect Field.name (serveToken owner.id)
        (tokensBeside owner (verified ++ (liveAmong owner shadows).map Shadow.field))
      return reading.putAll (fromShadows ++ fromTokens)) := by
  induction shadows generalizing verified reading with
  | nil =>
    -- The fields that are left to the second pass stand in the record as they are stored.
    have hothers := h.others (fun f => !verified.contains f.name && holdsToken f)
      fun f hf => by simp [hf]
    rw [serveShadows, pure_bind]
    dsimp only
    rw [serveTokens_eq, hothers, h.id]
    simp [liveAmong, tokensBeside, collect, each]
  | cons shadow shadows ih =>
    obtain ⟨hnew, hrest⟩ := List.nodup_cons.1 hnodup
    have hvalue := h.ahead shadow List.mem_cons_self
    rw [serveShadows, hvalue, liveAmong, List.filter_cons, ← liveAmong]
    cases hstale : isStale (owner.value shadow.field) with
    | true => exact ih hrest verified reading h.skip
    | false =>
      -- What is served now is put in under a field that no shadow record ahead has.
      rw [serveShadow_congr h.id h.tenant hvalue]
      simp only [Bool.not_false, if_true, Bool.false_eq_true, if_false, collect_cons, bind_assoc,
        pure_bind, List.map_cons]
      congr 1
      funext served
      rw [ih hrest _ _ (h.put hnew served), List.append_assoc]
      rfl

/-- What is read of an owner is what the store holds of it afterwards. -/
theorem view?_of_readOwner {v v' : Vault} {id : OwnerId} {found : Option OwnerView}
    (h : readOwner id v = .ok found v') : v'.store.view? id = found := by
  rw [readOwner] at h
  cases hattempt : attempt .readOwner v with
  | error e v₁ =>
    rw [run_bind_of_error hattempt] at h
    cases h
  | ok _ v₁ =>
    rw [run_bind_of_ok hattempt] at h
    cases hserving : ensureServing v₁ with
    | error e v₂ =>
      rw [run_bind_of_error hserving] at h
      cases h
    | ok _ v₂ =>
      rw [run_bind_of_ok hserving] at h
      cases h
      rfl

/-- The owner that is viewed is in the store, with the shadow records that the store has of it. -/
theorem view?_of_viewOwner {v v' : Vault} {id : OwnerId} {view : OwnerView}
    (h : viewOwner id v = .ok view v') : v'.store.view? id = some view := by
  rw [viewOwner] at h
  cases hfound : readOwner id v with
  | error e v₁ =>
    rw [run_bind_of_error hfound] at h
    cases h
  | ok found v₁ =>
    rw [run_bind_of_ok hfound] at h
    cases found with
    | none => cases h
    | some _ =>
      cases h
      exact view?_of_readOwner hfound

/-- **Reading an owner in place** comes to reading it off the stored record, in every vault. -/
theorem loadOwnerPlain_eq (id : OwnerId) :
    loadOwnerPlain id = (do
      let view ← viewOwner id
      readOff view.owner view.shadows) := by
  funext v
  cases hview : viewOwner id v with
  | error e v' => rw [loadOwnerPlain, run_bind_of_error hview, run_bind_of_error hview]
  | ok view v' =>
    rw [loadOwnerPlain, run_bind_of_ok hview, run_bind_of_ok hview]
    obtain ⟨owner, howner, rfl⟩ := Option.map_eq_some_iff.1 (view?_of_viewOwner hview)
    have hnodup := (Store.ascending_fields_shadowsOf v'.store id).nodup
    have hstart : Underway owner [] (v'.store.shadowsOf id) ⟨owner, []⟩ :=
      ⟨rfl, rfl, fun _ _ => rfl, fun _ _ => rfl⟩
    have hpasses := passes_eq owner _ hnodup [] ⟨owner, []⟩ hstart
    simp only [List.nil_append, tokensBeside_live, Reading.putAll_eq] at hpasses
    exact congrFun hpasses v'

end Work

end FieldVault

/-
What decrypting an owner does to its cells.

All live shadow records are verified before anything is written. If one fails, the first that does
names the failure and nothing has changed. If none fails, three loops write: stale shadow records
are dropped, verified texts are put back with their shadow records taken away, and the tokens in the
fields that are left are opened in place. The loops work on separate cells or on separate parts of
one, so each cell ends as its entry filled with what a lenient read answers, and without a shadow
record.
-/
import FieldVault.Proofs.Encryption
import FieldVault.Proofs.Reading.Owner
import FieldVault.Proofs.Report

set_option autoImplicit false

namespace FieldVault

open Vault

variable {k : Key} {r : Except KeyError Key} {v : Vault}

/-! ## Cells -/

/-- A stored value with the token in it opened, if it can be. -/
def openedText (k : Key) (stored : Option String) : Option String :=
  stored.map fun value => (reveal (.ok k) value).toOption.getD value

/-- The stored value is a token that opens. -/
def opens (k : Key) : Option String → Bool
  | none => false
  | some value => Token.isMarked value && (reveal (.ok k) value).toOption.isSome

theorem opens_iff {stored : Option String} : opens k stored = true ↔
    ∃ value text, stored = some value ∧ Token.isMarked value = true ∧
      reveal (.ok k) value = .ok text := by
  cases stored with
  | none => simp [opens]
  | some value =>
    rw [opens, Bool.and_eq_true]
    cases hr : reveal (.ok k) value <;> simp [hr, Except.toOption]

theorem opens_of_not_marked {value : String} (h : Token.isMarked value = false) :
    opens k (some value) = false := by
  rw [opens, h, Bool.false_and]

theorem holdsToken_of_opens {f : Field} (h : opens k f.value = true) :
    Work.holdsToken f = true := by
  rw [Work.holdsToken]
  cases hv : f.value with
  | none =>
    rw [hv] at h
    cases h
  | some value =>
    rw [hv, opens, Bool.and_eq_true] at h
    exact h.1

/-- Opening a value changes it if there is anything to open. -/
theorem openedText_eq_self_iff {stored : Option String} :
    openedText k stored = stored ↔ opens k stored = false := by
  cases stored with
  | none => exact ⟨fun _ => rfl, fun _ => rfl⟩
  | some value =>
    rw [openedText, opens, Option.map_some]
    cases hm : Token.isMarked value with
    | false =>
      rw [reveal_of_not_marked _ hm]
      exact ⟨fun _ => rfl, fun _ => rfl⟩
    | true =>
      cases hr : reveal (.ok k) value with
      | error e => exact ⟨fun _ => rfl, fun _ => rfl⟩
      | ok text =>
        -- The value is a token of the text, and no text is its own token.
        obtain ⟨token, -, hvalue⟩ := eq_tokenText_of_reveal hm hr
        refine ⟨fun heq => ?_, fun hno => by cases hno⟩
        have htext : text = value := Option.some.inj heq
        rw [htext] at hvalue
        exact absurd hvalue.symm (Key.tokenText_ne k token.iv value)

theorem storedText_lenient (k : Key) (stored : Option String) :
    storedText false (.ok k) stored = .ok (openedText k stored) := by
  cases stored <;> rfl

namespace Cell

/-- What decrypting makes of a cell: the entry holds what a lenient read answers, and there is no
shadow record. -/
def decrypted (k : Key) (ref : FieldRef) (c : Cell) : Cell :=
  ⟨c.entry.map fun _ => (c.read false (.ok k) ref).toOption.getD none, none⟩

theorem decrypted_of_live {ref : FieldRef} {c : Cell} {shadow : Shadow} {text : String}
    (hlive : c.live? = some shadow)
    (htext : verified (.ok k) ref c.stored shadow.ciphertext = .ok text) :
    c.decrypted k ref = ⟨some (some text), none⟩ := by
  have hstale := (live?_eq_some_iff.1 hlive).2
  rw [decrypted, read_of_live hlive, htext]
  cases he : c.entry with
  | none =>
    rw [Cell.stored, he] at hstale
    cases hstale
  | some stored => rfl

theorem decrypted_of_not_live {ref : FieldRef} {c : Cell} (hlive : c.live? = none) :
    c.decrypted k ref = ⟨c.entry.map (openedText k), none⟩ := by
  rw [decrypted, read_of_not_live hlive, storedText_lenient, Cell.stored]
  cases c.entry <;> rfl

end Cell

/-! ## Counting -/

namespace Store

/-- The number of changes that decrypting an owner makes: its shadow records go, and the tokens
that stand in its fields and can be opened are opened. -/
def decryptChanges (s : Store) (k : Key) (owner : Owner) : Nat :=
  (s.shadowsOf owner.id).length + (s.tokenFields owner).countP fun f => opens k f.value

/-- The changes by the loops that make them: stale shadow records, live ones, tokens. -/
theorem decryptChanges_eq (s : Store) (k : Key) (owner : Owner) :
    (s.shadowsOf owner.id).countP (fun shadow => isStale (owner.value shadow.field)) +
        (s.liveShadows owner).length +
        ((owner.fields.toList.filter fun f => (s.liveShadows owner).all (·.field ≠ f.name)).countP
          fun f => opens k f.value) =
      s.decryptChanges k owner := by
  have hshadows : (s.shadowsOf owner.id).length =
      (s.shadowsOf owner.id).countP (fun shadow => isStale (owner.value shadow.field)) +
        (s.liveShadows owner).length := by
    rw [List.length_eq_countP_add_countP fun shadow => isStale (owner.value shadow.field),
      liveShadows, ← List.countP_eq_length_filter]
    simp only [Bool.not_eq_true, Bool.decide_eq_false]
  -- Only a token can be opened, so leaving out the other values makes no difference.
  have htokens : ((owner.fields.toList.filter fun f =>
      (s.liveShadows owner).all (·.field ≠ f.name)).countP fun f => opens k f.value) =
      (s.tokenFields owner).countP fun f => opens k f.value := by
    rw [tokenFields, List.countP_filter, List.countP_filter]
    refine List.countP_congr fun f _ => ?_
    simp only [Bool.and_eq_true]
    refine and_congr_right fun hopens => (and_iff_left ?_).symm
    exact holdsToken_of_opens hopens
  rw [htokens, decryptChanges, hshadows]

/-- Decrypting an owner makes no change if it leaves every cell as it is. -/
theorem decryptChanges_eq_zero_iff {s : Store} {owner : Owner}
    (ho : s.owner? owner.id = some owner) :
    s.decryptChanges k owner = 0 ↔ ∀ field, (s.cell owner.id field).decrypted k
      ⟨owner.tenant, owner.id, field⟩ = s.cell owner.id field := by
  rw [decryptChanges, Nat.add_eq_zero_iff, List.length_eq_zero_iff, List.countP_eq_zero]
  constructor
  · rintro ⟨hshadows, htokens⟩ field
    have hshadow : (s.cell owner.id field).shadow = none := shadow?_of_shadowsOf_nil hshadows
    have hlive : (s.cell owner.id field).live? = none := by
      rw [Cell.live?, hshadow]
      rfl
    have hentry : (s.cell owner.id field).entry.map (openedText k) =
        (s.cell owner.id field).entry := by
      rw [entry_cell ho]
      cases he : owner.entry field with
      | none => rfl
      | some stored =>
        rw [Option.map_some, openedText_eq_self_iff.2]
        refine Bool.eq_false_of_not_eq_true fun hopens => ?_
        have hmem : (⟨field, stored⟩ : Field) ∈ s.tokenFields owner :=
          (mem_tokenFields_iff ho).2 ⟨he, hlive, holdsToken_of_opens hopens⟩
        exact htokens _ hmem hopens
    rw [Cell.decrypted_of_not_live hlive, hentry, ← hshadow]
  · intro hcells
    refine ⟨shadowsOf_eq_nil fun field => ?_, fun f hf hopens => ?_⟩
    · exact (congrArg Cell.shadow (hcells field)).symm
    · obtain ⟨hentry, hlive, -⟩ := (mem_tokenFields_iff ho).1 hf
      have hcell := congrArg Cell.entry (hcells f.name)
      rw [Cell.decrypted_of_not_live hlive, entry_cell ho, hentry] at hcell
      rw [openedText_eq_self_iff.1 (Option.some.inj hcell)] at hopens
      cases hopens

end Store

namespace Work

/-! ## Steps -/

/-- Dropping a shadow record clears its cell. -/
theorem dropShadow_run (h : v.Calm r) {id : OwnerId} {shadow : Shadow}
    (hlive : v.store.shadow? id shadow.field = some shadow) :
    ∃ v', dropShadow shadow v = .ok .oneChanged v' ∧
      Writes r (fun id' field => id' = id ∧ field = shadow.field) v v' ∧
      v'.store.cell id shadow.field =
        { v.store.cell id shadow.field with shadow := none } := by
  have hsets := Store.sets_removeShadow hlive
  refine ⟨_, ?_, h.writes_of_sets hsets, hsets.cell⟩
  exact (run_bind_of_ok (removeShadow_run h shadow) _).trans rfl

/-- Restoring a field puts its text back and takes its shadow record away. -/
theorem restoreField_run (h : v.Calm r) {owner owner' : Owner} {shadow : Shadow} {text : String}
    (ho : v.store.owner? owner.id = some owner')
    (hlive : v.store.shadow? owner.id shadow.field = some shadow) :
    ∃ v', restoreField owner (shadow, text) v = .ok .oneChanged v' ∧
      Writes r (fun id' field => id' = owner.id ∧ field = shadow.field) v v' ∧
      v'.store.cell owner.id shadow.field = ⟨some (some text), none⟩ := by
  obtain ⟨s₁, hwrite, hsets₁⟩ := Store.sets_writeField ho shadow.field (some text)
  have hrun₁ := writeField_run h hwrite
  have hcalm₁ := (h.follows_store s₁).calm
  have hlive₁ : s₁.shadow? owner.id shadow.field = some shadow := by
    rw [← hlive]
    exact congrArg Cell.shadow hsets₁.cell
  have hsets := hsets₁.trans (Store.sets_removeShadow hlive₁)
  refine ⟨_, ?_, h.writes_of_sets hsets, ?_⟩
  · rw [restoreField, run_bind_of_ok hrun₁]
    exact (run_bind_of_ok (removeShadow_run hcalm₁ shadow) _).trans rfl
  · refine hsets.cell.trans ?_
    rw [hsets₁.cell]

/-- Opening a field puts the text of the token that stands in it in its place. -/
theorem openField_run (h : v.Calm (.ok k)) {owner owner' : Owner} {field : Field}
    (ho : v.store.owner? owner.id = some owner')
    (hentry : (v.store.cell owner.id field.name).entry = some field.value) :
    ∃ v', openField owner field v = .ok (if opens k field.value then .oneChanged else {}) v' ∧
      Writes (.ok k) (fun id' field' => id' = owner.id ∧ field' = field.name) v v' ∧
      v'.store.cell owner.id field.name =
        { v.store.cell owner.id field.name with entry := some (openedText k field.value) } := by
  have hsame : { v.store.cell owner.id field.name with entry := some field.value } =
      v.store.cell owner.id field.name := by
    rw [← hentry]
  rw [openField]
  cases hv : field.value with
  | none =>
    rw [hv] at hsame
    exact ⟨v, rfl, .refl h, hsame.symm⟩
  | some value =>
    rw [hv] at hsame
    simp only
    -- A value without the mark is left, and opening leaves it as it is.
    by_cases hm : Token.isMarked value = true
    · rw [if_pos hm]
      have hplain := plainText_reads h owner.id field.name value
      rw [withhold_of_not_key (reveal_ne_key k value)] at hplain
      have hreads := hplain.reads
      have hopens : opens k (some value) = (reveal (.ok k) value).toOption.isSome := by
        rw [opens, hm, Bool.true_and]
      rw [run_bind_of_ok hplain.run, openedText, Option.map_some, hopens]
      cases (reveal (.ok k) value).toOption with
      | none =>
        refine ⟨_, rfl, hreads.writes, ?_⟩
        rw [hreads.store]
        exact hsame.symm
      | some text =>
        rw [← hreads.store] at ho
        obtain ⟨s₁, hwrite, hsets⟩ := Store.sets_writeField ho field.name (some text)
        have hrun := writeField_run hreads.calm hwrite
        refine ⟨_, (run_bind_of_ok hrun _).trans rfl,
          hreads.writes.trans (hreads.calm.writes_of_sets hsets), ?_⟩
        refine hsets.cell.trans ?_
        rw [hreads.store]
        rfl
    · have hopens : opens k (some value) = false :=
        opens_of_not_marked (Bool.eq_false_of_not_eq_true hm)
      rw [if_neg hm, hopens, openedText_eq_self_iff.2 hopens]
      exact ⟨v, rfl, .refl h, hsame.symm⟩

/-! ## Loops -/

/-- Dropping the stale shadow records of an owner sweeps each of its cells. -/
theorem dropStale_run (h : v.Calm r) {owner : Owner} (ho : v.store.owner? owner.id = some owner) :
    ∃ v', tally dropShadow ((v.store.shadowsOf owner.id).filter fun shadow =>
        isStale (owner.value shadow.field)) v = .ok (.changed ((v.store.shadowsOf owner.id).countP
          fun shadow => isStale (owner.value shadow.field))) v' ∧
      Writes r (fun id' _ => id' = owner.id) v v' ∧
      ∀ field, v'.store.cell owner.id field = (v.store.cell owner.id field).swept := by
  have hnames : (((v.store.shadowsOf owner.id).filter fun shadow =>
      isStale (owner.value shadow.field)).map Shadow.field).Nodup :=
    List.Nodup.sublist (List.filter_sublist.map _)
      (Store.ascending_fields_shadowsOf v.store owner.id).nodup
  obtain ⟨reports, v', hrun, hreports, hwrites, hposts⟩ := each_fields_run owner.id Shadow.field
    (fun _ c c' => c' = c.swept) (fun _ report => report = .oneChanged) dropShadow h hnames (by
      intro shadow hshadow v₁ hv₁ hhead hcell
      obtain ⟨hmem, hstale⟩ := List.mem_filter.1 hshadow
      have hlive : v₁.store.shadow? owner.id shadow.field = some shadow := by
        rw [← Store.mem_shadowsOf_iff.1 hmem]
        exact congrArg Cell.shadow hcell
      obtain ⟨v₂, hstep, hwrites, hpost⟩ := dropShadow_run hv₁.calm hlive
      refine ⟨_, v₂, hstep, rfl, hwrites, ?_⟩
      rw [hpost, hcell, Cell.swept, Store.stored_cell ho, hstale]
      rfl)
  have htally := tally_run_of_each hrun
  rw [Report.sum_eq_changed_length hreports, ← List.countP_eq_length_filter] at htally
  refine ⟨v', htally, hwrites.mono fun _ _ ht => ht.1, ?_⟩
  intro field
  by_cases hfield : field ∈ ((v.store.shadowsOf owner.id).filter fun shadow =>
      isStale (owner.value shadow.field)).map Shadow.field
  · obtain ⟨shadow, hshadow, rfl⟩ := List.mem_map.1 hfield
    exact hposts shadow hshadow
  · rw [hwrites.off.cells owner.id field fun ht => hfield ht.2]
    cases hs : v.store.shadow? owner.id field with
    | none => exact (Cell.swept_of_shadow_none hs).symm
    | some shadow =>
      -- The shadow record was not listed, so it is not stale.
      have hname := Store.field_of_shadow? hs
      subst hname
      cases hstale : isStale (owner.value shadow.field) with
      | false =>
        rw [Cell.swept, Store.stored_cell ho, hstale]
        rfl
      | true =>
        have hmem : shadow ∈ (v.store.shadowsOf owner.id).filter fun shadow =>
            isStale (owner.value shadow.field) :=
          List.mem_filter.2 ⟨Store.mem_shadowsOf_iff.2 hs, hstale⟩
        exact absurd (List.mem_map_of_mem hmem) hfield

theorem restoreFields_run (h : v.Calm r) {owner owner' : Owner} {restored : List (Shadow × String)}
    (ho : v.store.owner? owner.id = some owner')
    (hnames : (restored.map (·.1.field)).Nodup)
    (hlive : ∀ p ∈ restored, v.store.shadow? owner.id p.1.field = some p.1) :
    ∃ v', tally (restoreField owner) restored v = .ok (.changed restored.length) v' ∧
      Writes r (fun id' field => id' = owner.id ∧ field ∈ restored.map (·.1.field)) v v' ∧
      ∀ p ∈ restored, v'.store.cell owner.id p.1.field = ⟨some (some p.2), none⟩ := by
  obtain ⟨reports, v', hrun, hreports, hwrites, hposts⟩ := each_fields_run owner.id (·.1.field)
    (fun p _ c' => c' = ⟨some (some p.2), none⟩) (fun _ report => report = .oneChanged)
    (restoreField owner) h hnames (by
      rintro ⟨shadow, text⟩ hp v₁ hv₁ hhead hcell
      obtain ⟨owner₁, ho₁, -⟩ := Store.exists_owner_of_head?_eq ho hhead
      have hlive₁ : v₁.store.shadow? owner.id shadow.field = some shadow := by
        rw [← hlive _ hp]
        exact congrArg Cell.shadow hcell
      obtain ⟨v₂, hstep, hwrites, hpost⟩ := restoreField_run hv₁.calm ho₁ hlive₁
      exact ⟨_, v₂, hstep, rfl, hwrites, hpost⟩)
  have htally := tally_run_of_each hrun
  rw [Report.sum_eq_changed_length hreports] at htally
  exact ⟨v', htally, hwrites, hposts⟩

theorem openFields_run (h : v.Calm (.ok k)) {owner owner' : Owner} (others : List Field)
    (ho : v.store.owner? owner.id = some owner') (hnames : (others.map Field.name).Nodup)
    (hentry : ∀ f ∈ others, (v.store.cell owner.id f.name).entry = some f.value) :
    ∃ v', tally (openField owner) others v =
        .ok (.changed (others.countP fun f => opens k f.value)) v' ∧
      Writes (.ok k) (fun id' field => id' = owner.id ∧ field ∈ others.map Field.name) v v' ∧
      ∀ f ∈ others, v'.store.cell owner.id f.name =
        { v.store.cell owner.id f.name with entry := some (openedText k f.value) } := by
  obtain ⟨reports, v', hrun, hreports, hwrites, hposts⟩ := each_fields_run owner.id Field.name
    (fun f c c' => c' = { c with entry := some (openedText k f.value) })
    (fun f report => report = if opens k f.value then .oneChanged else {}) (openField owner) h
    hnames (by
      intro f hf v₁ hv₁ hhead hcell
      obtain ⟨owner₁, ho₁, -⟩ := Store.exists_owner_of_head?_eq ho hhead
      have hentry₁ : (v₁.store.cell owner.id f.name).entry = some f.value := by
        rw [hcell, hentry f hf]
      obtain ⟨v₂, hstep, hwrites, hpost⟩ := openField_run hv₁.calm ho₁ hentry₁
      rw [hcell] at hpost
      exact ⟨_, v₂, hstep, rfl, hwrites, hpost⟩)
  have htally := tally_run_of_each hrun
  rw [Report.sum_eq_changed hreports] at htally
  exact ⟨v', htally, hwrites, hposts⟩

/-! ## Verification -/

/-- What verifying a shadow record of an owner answers. -/
def verifiedShadow (k : Key) (owner : Owner) (shadow : Shadow) :
    Except Error (Shadow × String) :=
  (verified (.ok k) ⟨owner.tenant, owner.id, shadow.field⟩ (owner.value shadow.field)
    shadow.ciphertext).map fun text => (shadow, text)

theorem verifyShadows_reads (h : v.Calm (.ok k)) (owner : Owner) (shadows : List Shadow) :
    ReadsAs (.ok k) (each (verifyShadow owner) shadows) v
      (shadows.mapM (verifiedShadow k owner)) :=
  ReadsAs.each h fun shadow _ _ hv => verifyShadow_reads hv.calm owner shadow

theorem verifiedShadow_error {owner : Owner} {shadow : Shadow} {e : Error}
    (h : verifiedShadow k owner shadow = .error e) :
    e = .integrity ⟨owner.tenant, owner.id, shadow.field⟩ := by
  rw [verifiedShadow] at h
  cases hv : verified (.ok k) ⟨owner.tenant, owner.id, shadow.field⟩ (owner.value shadow.field)
      shadow.ciphertext with
  | ok text => simp [hv, Except.map] at h
  | error e' =>
    rw [hv] at h
    cases h
    rcases verified_error hv with he | ⟨e', -, he'⟩
    · exact he
    · exact absurd he' (reveal_ne_key k _ e')

theorem verifiedShadow_ok {owner : Owner} {shadow : Shadow} {p : Shadow × String}
    (h : verifiedShadow k owner shadow = .ok p) :
    p.1 = shadow ∧ verified (.ok k) ⟨owner.tenant, owner.id, shadow.field⟩
      (owner.value shadow.field) shadow.ciphertext = .ok p.2 := by
  rw [verifiedShadow] at h
  cases hv : verified (.ok k) ⟨owner.tenant, owner.id, shadow.field⟩ (owner.value shadow.field)
      shadow.ciphertext with
  | ok text =>
    rw [hv] at h
    cases h
    exact ⟨rfl, rfl⟩
  | error e =>
    rw [hv] at h
    cases h

/-- Where none of them fails, each shadow record is answered with its text. -/
theorem verifiedShadows_ok {owner : Owner} {shadows : List Shadow}
    (h : shadows.filter (fun shadow => (verifiedShadow k owner shadow).toOption.isNone) = []) :
    ∃ restored, shadows.mapM (verifiedShadow k owner) = .ok restored ∧
      restored.map Prod.fst = shadows ∧
      ∀ p ∈ restored, verified (.ok k) ⟨owner.tenant, owner.id, p.1.field⟩
        (owner.value p.1.field) p.1.ciphertext = .ok p.2 := by
  induction shadows with
  | nil => exact ⟨[], rfl, rfl, fun p hp => by cases hp⟩
  | cons shadow shadows ih =>
    cases hv : verifiedShadow k owner shadow with
    | error e => simp [hv, Except.toOption] at h
    | ok p =>
      rw [List.filter_cons, hv] at h
      obtain ⟨restored, hmapM, hfst, hall⟩ := ih h
      obtain ⟨hp, hverified⟩ := verifiedShadow_ok hv
      refine ⟨p :: restored, ?_, ?_, ?_⟩
      · rw [List.mapM_cons, hv, hmapM]
        rfl
      · rw [List.map_cons, hfst, hp]
      · intro q hq
        rcases List.mem_cons.1 hq with rfl | hq
        · rw [hp]
          exact hverified
        · exact hall q hq

/-- The fields that a lenient reading withholds are those whose live shadow records fail. -/
theorem unreadable_lenient {s : Store} {owner : Owner} (ho : s.owner? owner.id = some owner) :
    (s.reading false (.ok k) owner).unreadable = ((s.liveShadows owner).filter fun shadow =>
      (verifiedShadow k owner shadow).toOption.isNone).map Shadow.field := by
  -- A lenient reading serves a token that it cannot open, so only shadow records can fail.
  have htokens : (s.tokenNames owner).filter (s.isWithheld false (.ok k) owner) = [] := by
    rw [List.filter_eq_nil_iff]
    intro field hfield hwithheld
    have hlive := ((Store.mem_tokenNames_iff ho).1 hfield).1
    obtain ⟨e, he⟩ := Store.isWithheld_iff.1 hwithheld
    rw [Cell.read_of_not_live hlive, storedText_lenient] at he
    cases he
  rw [Store.unreadable_reading, htokens, List.append_nil, Store.liveNames, List.filter_map]
  congr 1
  apply List.filter_congr
  intro shadow hshadow
  have hlive := (Store.mem_liveShadows_iff ho).1 hshadow
  rw [Function.comp_apply, Store.isWithheld, Cell.read_of_live hlive, Store.stored_cell ho,
    verifiedShadow]
  cases verified (.ok k) ⟨owner.tenant, owner.id, shadow.field⟩ (owner.value shadow.field)
      shadow.ciphertext <;> rfl

/-- Of an owner with one shadow record, live, a lenient reading withholds its field or nothing. -/
theorem unreadable_of_single {s : Store} {owner : Owner} (ho : s.owner? owner.id = some owner)
    (shadow : Shadow) (hshadows : s.shadowsOf owner.id = [shadow])
    (hstale : isStale (owner.value shadow.field) = false) {x : Except Error String}
    (hx : verified (.ok k) ⟨owner.tenant, owner.id, shadow.field⟩ (owner.value shadow.field)
      shadow.ciphertext = x) :
    (s.reading false (.ok k) owner).unreadable =
      if x.toOption.isNone then [shadow.field] else [] := by
  have hlive : s.liveShadows owner = [shadow] := by
    rw [Store.liveShadows, hshadows, List.filter_cons, hstale]
    rfl
  rw [unreadable_lenient ho, hlive, List.filter_cons, verifiedShadow, hx]
  cases x <;> rfl

/-! ## One owner -/

/-- The three loops that write, once the live shadow records of an owner are verified. -/
theorem writeBack_run (h : v.Calm (.ok k)) {owner : Owner}
    (ho : v.store.owner? owner.id = some owner) {restored : List (Shadow × String)}
    (hfst : restored.map Prod.fst = v.store.liveShadows owner)
    (hverified : ∀ p ∈ restored, verified (.ok k) ⟨owner.tenant, owner.id, p.1.field⟩
      (owner.value p.1.field) p.1.ciphertext = .ok p.2) :
    ∃ dropped v₁ put v₂ opened v₃,
      tally dropShadow ((v.store.shadowsOf owner.id).filter fun shadow =>
        isStale (owner.value shadow.field)) v = .ok dropped v₁ ∧
      tally (restoreField owner) restored v₁ = .ok put v₂ ∧
      tally (openField owner) (owner.fields.toList.filter fun f =>
        (v.store.liveShadows owner).all (·.field ≠ f.name)) v₂ = .ok opened v₃ ∧
      dropped + put + opened = .changed (v.store.decryptChanges k owner) ∧
      Writes (.ok k) (fun id' _ => id' = owner.id) v v₃ ∧
      ∀ field, v₃.store.cell owner.id field =
        (v.store.cell owner.id field).decrypted k ⟨owner.tenant, owner.id, field⟩ := by
  -- The verified records are the live ones, in order.
  have hlive : ∀ p ∈ restored, (v.store.cell owner.id p.1.field).live? = some p.1 := by
    intro p hp
    rw [← Store.mem_liveShadows_iff ho, ← hfst]
    exact List.mem_map_of_mem hp
  have hnames : restored.map (·.1.field) = v.store.liveNames owner := by
    rw [Store.liveNames, ← hfst, List.map_map]
    rfl
  -- The stale shadow records go.
  obtain ⟨v₁, hdrop, hwrites₁, hcells₁⟩ := dropStale_run h ho
  obtain ⟨owner₁, ho₁, -⟩ := Store.exists_owner_of_head?_eq ho (hwrites₁.off.heads owner.id)
  -- The verified texts are put back.
  obtain ⟨v₂, hrestore, hwrites₂, hcells₂⟩ := restoreFields_run hwrites₁.calm ho₁
    (hnames.symm ▸ (Store.ascending_liveNames v.store owner).nodup) (by
      intro p hp
      have hcell := hcells₁ p.1.field
      rw [Cell.swept_of_live (hlive p hp)] at hcell
      rw [← (Cell.live?_eq_some_iff.1 (hlive p hp)).1, ← hcell]
      rfl)
  obtain ⟨owner₂, ho₂, -⟩ := Store.exists_owner_of_head?_eq ho₁ (hwrites₂.off.heads owner.id)
  have hrest₂ : ∀ field, (v.store.cell owner.id field).live? = none →
      v₂.store.cell owner.id field = ⟨(v.store.cell owner.id field).entry, none⟩ := by
    intro field hnone
    have hnot : field ∉ restored.map (·.1.field) := by
      rw [hnames, Store.mem_liveNames_iff ho, hnone]
      exact Bool.false_ne_true
    rw [hwrites₂.off.cells owner.id field fun ht => hnot ht.2, hcells₁,
      Cell.swept_of_not_live hnone]
  -- The tokens in the other fields are opened.
  have hothers : ∀ f, f ∈ (owner.fields.toList.filter fun f =>
      (v.store.liveShadows owner).all (·.field ≠ f.name)) ↔
      owner.entry f.name = some f.value ∧ (v.store.cell owner.id f.name).live? = none := by
    intro f
    rw [List.mem_filter, Owner.mem_fields_iff, Store.all_ne_liveShadows_iff ho]
  obtain ⟨v₃, hopen, hwrites₃, hcells₃⟩ := openFields_run hwrites₂.calm
    (owner.fields.toList.filter fun f => (v.store.liveShadows owner).all (·.field ≠ f.name)) ho₂
    (List.Nodup.sublist (List.filter_sublist.map _) owner.fields.nodup_keys) (by
      intro f hf
      obtain ⟨hentry, hnone⟩ := (hothers f).1 hf
      rw [hrest₂ f.name hnone, Store.entry_cell ho, hentry])
  refine ⟨_, v₁, _, v₂, _, v₃, hdrop, hrestore, hopen, ?_, ?_, ?_⟩
  · have hlength : restored.length = (v.store.liveShadows owner).length := by
      rw [← hfst, List.length_map]
    rw [hlength, Report.changed_add, Report.changed_add, Store.decryptChanges_eq]
  · exact (hwrites₁.trans (hwrites₂.mono fun _ _ ht => ht.1)).trans
      (hwrites₃.mono fun _ _ ht => ht.1)
  -- A live cell is set by the second loop only; any other by the first and the third.
  intro field
  cases hl : (v.store.cell owner.id field).live? with
  | some shadow =>
    have hname := Store.field_of_shadow? (Cell.live?_eq_some_iff.1 hl).1
    subst hname
    have hmem := (Store.mem_liveShadows_iff ho).2 hl
    rw [← hfst] at hmem
    obtain ⟨p, hp, rfl⟩ := List.mem_map.1 hmem
    have htext := hverified p hp
    rw [← Store.stored_cell ho] at htext
    have hnot : p.1.field ∉ (owner.fields.toList.filter fun f =>
        (v.store.liveShadows owner).all (·.field ≠ f.name)).map Field.name := by
      intro hf
      obtain ⟨f, hf, hname⟩ := List.mem_map.1 hf
      have hnone := ((hothers f).1 hf).2
      rw [hname, hl] at hnone
      cases hnone
    rw [Cell.decrypted_of_live hl htext, hwrites₃.off.cells _ _ fun ht => hnot ht.2]
    exact hcells₂ p hp
  | none =>
    rw [Cell.decrypted_of_not_live hl, Store.entry_cell ho]
    cases he : owner.entry field with
    | some value =>
      have hf := (hothers ⟨field, value⟩).2 ⟨he, hl⟩
      rw [hcells₃ ⟨field, value⟩ hf, hrest₂ field hl]
      rfl
    | none =>
      have hnot : field ∉ (owner.fields.toList.filter fun f =>
          (v.store.liveShadows owner).all (·.field ≠ f.name)).map Field.name := by
        intro hf
        obtain ⟨f, hmem, rfl⟩ := List.mem_map.1 hf
        rw [((hothers f).1 hmem).1] at he
        cases he
      rw [hwrites₃.off.cells _ _ fun ht => hnot ht.2, hrest₂ field hl, Store.entry_cell ho, he]
      rfl

/-- **Decrypting an owner** all of whose fields can be read makes of each of its cells what a
lenient read answers, takes its shadow records away, and touches no other cell. It counts its
changes, and the owner if there are any. -/
theorem decryptOwnerIn_run_report (h : v.Calm (.ok k)) {owner : Owner}
    (ho : v.store.owner? owner.id = some owner)
    (hreadable : (v.store.reading false (.ok k) owner).unreadable = []) :
    ∃ v', decryptOwnerIn owner.id v = .ok (.restoring (v.store.decryptChanges k owner)) v' ∧
      Writes (.ok k) (fun id' _ => id' = owner.id) v v' ∧
      ∀ field, v'.store.cell owner.id field =
        (v.store.cell owner.id field).decrypted k ⟨owner.tenant, owner.id, field⟩ := by
  have hload := loadOwner_run h owner.id
  rw [ho] at hload
  have hshadows := shadowsOf_run h owner.id
  rw [unreadable_lenient ho, List.map_eq_nil_iff] at hreadable
  obtain ⟨restored, hmapM, hfst, hverified⟩ := verifiedShadows_ok hreadable
  have hverify := verifyShadows_reads h owner (v.store.liveShadows owner)
  rw [hmapM] at hverify
  have hreads := hverify.reads
  have ho₁ := ho
  rw [← hreads.store] at ho₁ hfst
  obtain ⟨dropped, v₁, put, v₂, opened, v₃, hdrop, hrestore, hopen, hreport, hwrites, hcells⟩ :=
    writeBack_run hreads.calm ho₁ hfst hverified
  rw [hreads.store] at hdrop hopen hcells hreport
  refine ⟨v₃, ?_, hreads.writes.trans hwrites, hcells⟩
  rw [decryptOwnerIn, run_bind_of_ok hload]
  simp only
  rw [run_bind_of_ok hshadows]
  refine (run_bind_of_ok hverify.run _).trans ?_
  refine (run_bind_of_ok hdrop _).trans ?_
  refine (run_bind_of_ok hrestore _).trans ?_
  refine (run_bind_of_ok hopen _).trans ?_
  rw [hreport]
  rfl

theorem decryptOwnerIn_run (h : v.Calm (.ok k)) {owner : Owner}
    (ho : v.store.owner? owner.id = some owner)
    (hreadable : (v.store.reading false (.ok k) owner).unreadable = []) :
    ∃ report v', decryptOwnerIn owner.id v = .ok report v' ∧
      Writes (.ok k) (fun id' _ => id' = owner.id) v v' ∧
      ∀ field, v'.store.cell owner.id field =
        (v.store.cell owner.id field).decrypted k ⟨owner.tenant, owner.id, field⟩ := by
  obtain ⟨v', hrun, hwrites, hcells⟩ := decryptOwnerIn_run_report h ho hreadable
  exact ⟨_, v', hrun, hwrites, hcells⟩

/-- Decrypting an owner one of whose fields cannot be read fails on the first such field, before
anything is written. -/
theorem decryptOwnerIn_fails (h : v.Calm (.ok k)) {owner : Owner}
    (ho : v.store.owner? owner.id = some owner) {field : FieldName} {rest : List FieldName}
    (hunreadable : (v.store.reading false (.ok k) owner).unreadable = field :: rest) :
    ∃ v', decryptOwnerIn owner.id v = .error (.integrity ⟨owner.tenant, owner.id, field⟩) v' ∧
      Vault.Reads (.ok k) v v' := by
  have hload := loadOwner_run h owner.id
  rw [ho] at hload
  have hshadows := shadowsOf_run h owner.id
  rw [unreadable_lenient ho, List.map_eq_cons_iff] at hunreadable
  obtain ⟨shadow, shadows, hfilter, hfield, -⟩ := hunreadable
  obtain ⟨-, e, he, hmapM⟩ := mapM_of_filter_cons hfilter
  have hintegrity := verifiedShadow_error he
  rw [hfield] at hintegrity
  have hverify := verifyShadows_reads h owner (v.store.liveShadows owner)
  rw [hmapM, hintegrity] at hverify
  -- Verification is the first thing that happens, so the failure is all that happens.
  refine ⟨after (each (verifyShadow owner) (v.store.liveShadows owner)) v, ?_, hverify.reads⟩
  rw [decryptOwnerIn, run_bind_of_ok hload]
  simp only
  rw [run_bind_of_ok hshadows]
  exact run_bind_of_error (run_of_answer_error hverify.answer) _

end Work

end FieldVault

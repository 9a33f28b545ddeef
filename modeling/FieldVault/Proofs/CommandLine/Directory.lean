/-
Writing a file anew.

Where a path leads depends on what files there are, not on what is in them. So when a file gets new
content, every path that led to it leads to it still, and finds the new content there.
-/
import FieldVault.CommandLine.Directory

set_option autoImplicit false

namespace FieldVault.CommandLine.Directory

variable {d : Directory} {path name : String} {file : StoredFile} {location : Location}

/-! ## Files -/

theorem name_of_file? (h : d.file? name = some file) : file.name = name :=
  of_decide_eq_true (List.find?_some h :)

/-- Putting a file in leaves the files of other names. -/
theorem file?_put_of_ne (h : name ≠ file.name) : (d.put file).file? name = d.file? name := by
  have hnew : [file].find? (·.name = name) = none := by
    simpa using h.symm
  rw [file?, file?, put, List.find?_append, hnew, Option.or_none, List.find?_filter]
  congr 1
  funext x
  by_cases hx : x.name = name
  · simp [hx, h]
  · simp [hx]

/-! ## Paths -/

/-- What stands for a file stands for it with other content. -/
def Entry.refill (name : String) (content : Bytes) : Entry → Entry
  | .file file => .file (if file.name = name then { file with content } else file)
  | found => found

theorem Entry.location_refill (content : Bytes) (found : Entry) :
    (found.refill name content).location = found.location := by
  cases found <;> rfl

/-- A name stands for a file if the file of that name is there. -/
theorem file?_of_entry (h : d.entry location name = .ok (.file file)) :
    d.file? file.name = some file := by
  unfold entry at h
  split at h
  · cases h
  · split at h
    · cases h
    · split at h
      · cases h
      · cases location with
        | working =>
          cases hf : d.file? name with
          | none =>
            rw [hf] at h
            cases h
          | some found =>
            rw [hf] at h
            cases h
            rwa [name_of_file? hf]
        | outer => cases h
        | root => simp only at h; split at h <;> cases h
        | usual parent => simp only at h; split at h <;> cases h

section Refill

variable (h : d.file? file.name = some file) (content : Bytes)
include h

theorem file?_refill (name : String) :
    (d.put { file with content }).file? name =
      (d.file? name).map fun f => if f.name = file.name then { f with content } else f := by
  by_cases hname : name = file.name
  · subst hname
    rw [h, Option.map_some, if_pos rfl]
    exact file?_put_self d { file with content }
  · have hother : name ≠ ({ file with content } : StoredFile).name := hname
    rw [file?_put_of_ne hother]
    cases hf : d.file? name with
    | none => rfl
    | some f => rw [Option.map_some, if_neg (name_of_file? hf ▸ hname)]

/-- Names stand for what they stood for. -/
theorem entry_refill (location : Location) (name : String) :
    (d.put { file with content }).entry location name =
      (d.entry location name).map (Entry.refill file.name content) := by
  unfold entry
  split
  · rfl
  · split
    · rfl
    · split
      · rfl
      · cases location with
        | working =>
          simp only [file?_refill h content]
          cases d.file? name <;> rfl
        | outer => rfl
        | root => simp only; split <;> rfl
        | usual parent => simp only; split <;> rfl

theorem walk_refill (location : Location) (names : List String) :
    (d.put { file with content }).walk location names = d.walk location names := by
  induction names generalizing location with
  | nil => rfl
  | cons name names ih =>
    rw [walk, walk, entry_refill h content]
    cases d.entry location name with
    | error e => rfl
    | ok found =>
      simp only [Except.map, Entry.location_refill]
      cases found.location with
      | error e => rfl
      | ok next => exact ih next

end Refill

/-- A path finds a file if the directory on the way to it knows the file by the last name, and no
slash follows. -/
theorem find_eq_file_iff : d.find path = .ok (.file file) ↔
    ∃ p location, Path.parse path = .ok p ∧ d.parent p = .ok location ∧ p.closed = false ∧
      d.entry location p.last = .ok (.file file) := by
  unfold find
  cases Path.parse path with
  | error e => exact ⟨nofun, fun ⟨_, _, hp, _⟩ => nomatch hp⟩
  | ok p =>
    simp only [bind, Except.bind]
    cases hl : d.parent p with
    | error e =>
      refine ⟨nofun, fun ⟨p', location, hp, hl', _⟩ => ?_⟩
      cases hp
      cases hl.symm.trans hl'
    | ok location =>
      constructor
      · intro h
        cases he : d.entry location p.last with
        | error e => simp [he] at h
        | ok found =>
          cases hc : p.closed with
          | false =>
            simp only [he, hc] at h
            exact ⟨p, location, rfl, hl, hc, he.trans h⟩
          | true => cases hf : found.location <;> simp [he, hc, hf, Pure.pure, Except.pure] at h
      · rintro ⟨p', location', hp, hl', hc, he⟩
        cases hp
        cases hl.symm.trans hl'
        simp only [he, hc]
        rfl

theorem file?_of_find (h : d.find path = .ok (.file file)) : d.file? file.name = some file := by
  obtain ⟨p, location, -, -, -, hentry⟩ := find_eq_file_iff.1 h
  exact file?_of_entry hentry

/-- A file that was found at a path is found there with the content that it was given. -/
theorem find_put (h : d.find path = .ok (.file file)) (content : Bytes) :
    (d.put { file with content }).find path = .ok (.file { file with content }) := by
  have hfile := file?_of_find h
  obtain ⟨p, location, hparse, hparent, hclosed, hentry⟩ := find_eq_file_iff.1 h
  refine find_eq_file_iff.2 ⟨p, location, hparse, ?_, hclosed, ?_⟩
  · rwa [parent, walk_refill hfile content]
  · rw [entry_refill hfile content, hentry]
    exact congrArg (Except.ok <| Entry.file ·) (if_pos rfl)

/-! ## Reading -/

theorem read_of_find (h : d.find path = .ok (.file file)) : d.read path = .ok file.content := by
  rw [read, h]

/-- What was written to a file is read there. -/
theorem read_put (h : d.find path = .ok (.file file)) (content : Bytes) :
    (d.put { file with content }).read path = .ok content :=
  read_of_find (find_put h content)

/-- What is read at a path is the content of a file there, if it is anything. -/
theorem exists_find_of_read {content : Bytes} (h : d.read path = .ok content)
    (hne : content ≠ []) : ∃ file, d.find path = .ok (.file file) ∧ file.content = content := by
  unfold read at h
  split at h
  · cases h
  · case h_2 file hfind => exact ⟨file, hfind, Except.ok.inj h⟩
  · cases h
    exact absurd rfl hne
  · cases h
  · cases h
  · cases h

end FieldVault.CommandLine.Directory

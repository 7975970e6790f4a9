import DataPipeline.Disk.Basic
import Mathlib.Tactic.Common

namespace DataPipeline

theorem find?_filter_key {κ β : Type} [DecidableEq κ] {entries : List (κ × β)} {key key' : κ}
    (h : key' ≠ key) :
    (entries.filter (·.1 ≠ key)).find? (·.1 = key') = entries.find? (·.1 = key') := by
  rw [List.find?_filter]
  congr 1
  funext entry
  by_cases he : entry.1 = key' <;> simp [he, h]

namespace Disk

variable {d : Disk} {l l' : Location} {item : Item} {b b' : ByteArray} {path name : String}

theorem get?_set_self (hl : l ≠ []) : (d.set l item).get? l = some item := by
  cases l with
  | nil => exact absurd rfl hl
  | cons name dir => simp [get?, set]

theorem get?_set_of_ne (h : l' ≠ l) : (d.set l item).get? l' = d.get? l' := by
  cases l' with
  | nil => rfl
  | cons name dir =>
    have hset : (d.set l item).get? (name :: dir) =
        (((l, item) :: d.items.filter (·.1 ≠ l)).find? (·.1 = name :: dir)).map (·.2) := rfl
    rw [hset, List.find?_cons_of_neg (by simpa using h.symm), find?_filter_key h]
    rfl

/-- The directories of one disk are directories of the other. -/
def LeadsIn (d d' : Disk) : Prop :=
  ∀ l, d.get? l = some .directory → d'.get? l = some .directory

theorem leadsIn_set_file (hl : d.get? l ≠ some .directory) : d.LeadsIn (d.set l (.file b)) := by
  intro l' hl'
  have hne : l' ≠ l := by
    rintro rfl
    exact hl hl'
  rw [get?_set_of_ne hne, hl']

section Lead

variable {d' : Disk} (hd : d.LeadsIn d')
include hd

theorem LeadsIn.enter {dir : Location} (h : d.enter dir name = .ok l) :
    d'.enter dir name = .ok l := by
  rw [Disk.enter] at h ⊢
  split at h
  · rw [if_pos ‹_›]
    exact h
  rw [if_neg ‹_›]
  split at h
  · rw [if_pos ‹_›]
    exact h
  rw [if_neg ‹_›]
  split at h
  · cases h
  rw [if_neg ‹_›]
  split at h
  · cases h
  · cases h
  next hdirectory =>
    rw [hd _ hdirectory]
    exact h

theorem LeadsIn.follow {dir : Location} {names : List String} {r : Location × Option String}
    (h : d.follow dir names = .ok r) : d'.follow dir names = .ok r := by
  induction names generalizing dir with
  | nil => exact h
  | cons name rest ih =>
    cases rest with
    | nil =>
      rw [Disk.follow] at h ⊢
      split at h
      · rw [if_pos ‹_›]
        cases he : d.enter dir name with
        | error e =>
          rw [he] at h
          cases h
        | ok l' =>
          rw [he] at h
          rw [hd.enter he]
          exact h
      · rw [if_neg ‹_›]
        exact h
    | cons next rest =>
      rw [Disk.follow] at h ⊢
      · cases he : d.enter dir name with
        | error e =>
          rw [he] at h
          cases h
        | ok l' =>
          rw [he] at h
          rw [hd.enter he]
          exact ih h
      · simp
      · simp

theorem LeadsIn.locate {r : Location × Option String} (h : d.locate path = .ok r) :
    d'.locate path = .ok r := by
  unfold Disk.locate at h ⊢
  split at h
  · cases h
  rw [if_neg ‹_›]
  split at h
  · cases h
  rw [if_neg ‹_›]
  split at h
  · cases h
  rw [if_neg ‹_›]
  exact hd.follow h

end Lead

theorem target_ok :
    d.target path = .ok (l, b) ↔ ∃ dir name, d.locate path = .ok (dir, some name) ∧
    FilePath.endsInSlash path = false ∧ isTooLong name = false ∧ l = name :: dir ∧
      (d.get? l = none ∧ b = .empty ∨ d.get? l = some (.file b)) := by
  unfold target
  cases hlocate : d.locate path with
  | error e => simp [bind, Except.bind]
  | ok r =>
    obtain ⟨dir, _ | name⟩ := r
    · simp [bind, Except.bind]
    simp only [bind, Except.bind]
    by_cases hslash : FilePath.endsInSlash path = true
    · simp [hslash]
    by_cases hlong : isTooLong name = true
    · simp [hslash, hlong]
    cases hget : d.get? (name :: dir) with
    | none => simp [hslash, hlong]; grind
    | some item => cases item <;> simp [hslash, hlong] <;> grind

theorem not_directory_of_target (h : d.target path = .ok (l, b)) :
    d.get? l ≠ some .directory := by
  obtain ⟨_, _, _, _, _, _, hget⟩ := target_ok.1 h
  rcases hget with ⟨hget, _⟩ | hget <;> simp [hget]

theorem target_set_self (h : d.target path = .ok (l, b)) :
    (d.set l (.file b')).target path = .ok (l, b') := by
  have hl := not_directory_of_target h
  obtain ⟨dir, name, hlocate, hslash, hlong, rfl, _⟩ := target_ok.1 h
  exact target_ok.2 ⟨dir, name, (leadsIn_set_file hl).locate hlocate, hslash, hlong, rfl,
    .inr (get?_set_self (List.cons_ne_nil _ _))⟩

theorem target_set_of_ne {other : String} {c : ByteArray} (h : d.target path = .ok (l, b))
    (hother : d.target other = .ok (l', b')) (hne : l' ≠ l) :
    (d.set l (.file c)).target other = .ok (l', b') := by
  have hl := not_directory_of_target h
  obtain ⟨dir, name, hlocate, hslash, hlong, hl', hget⟩ := target_ok.1 hother
  refine target_ok.2 ⟨dir, name, (leadsIn_set_file hl).locate hlocate, hslash, hlong, hl', ?_⟩
  rwa [get?_set_of_ne hne]

theorem append_of_target {text : String} (h : d.target path = .ok (l, b)) :
    d.append path text = .ok (d.set l (.file (b ++ text.toUTF8))) := by
  rw [append, h]
  rfl

theorem set_set (d : Disk) (l : Location) (item item' : Item) :
    (d.set l item).set l item' = d.set l item' := by
  simp [set]

theorem append_opened {text : String} (h : d.append path "" = .ok d') :
    d'.append path text = d.append path text := by
  cases htarget : d.target path with
  | error e =>
    rw [append, htarget] at h
    cases h
  | ok r =>
    obtain ⟨l, b⟩ := r
    rw [append_of_target htarget] at h
    cases h
    have hnothing : b ++ "".toUTF8 = b := ByteArray.append_empty
    have hopened : (d.set l (.file (b ++ "".toUTF8))).target path = .ok (l, b ++ "".toUTF8) :=
      target_set_self htarget
    rw [append_of_target hopened, append_of_target htarget, set_set, hnothing]

theorem append_isOk {text : String} :
    (∃ d', d.append path text = .ok d') ↔ ∃ d', d.append path "" = .ok d' := by
  rw [append, append]
  cases d.target path with
  | error e => simp [bind, Except.bind]
  | ok r => simp [bind, Except.bind]

theorem isDirectory_iff : d.isDirectory path = true ↔ d.find path = .ok .directory := by
  rw [isDirectory]
  split
  next h => simp [h]
  next h => simpa using h

theorem find_directory :
    d.find path = .ok .directory ↔ ∃ dir name?, d.locate path = .ok (dir, name?) ∧
    ∀ name, name? = some name →
      isTooLong name = false ∧ d.get? (name :: dir) = some .directory := by
  unfold find
  cases hlocate : d.locate path with
  | error e => simp [bind, Except.bind]
  | ok r =>
    obtain ⟨dir, _ | name⟩ := r
    · simp [bind, Except.bind]
    simp only [bind, Except.bind]
    by_cases hlong : isTooLong name = true
    · simp [hlong]
    cases hget : d.get? (name :: dir) with
    | none => simp [hlong, hget]
    | some item =>
      cases item with
      | directory => simp [hlong, hget]
      | file bytes =>
        by_cases hslash : FilePath.endsInSlash path = true <;> simp [hlong, hslash, hget]

theorem isDirectory_set_file (hl : d.get? l ≠ some .directory) (h : d.isDirectory path = true) :
    (d.set l (.file b)).isDirectory path = true := by
  obtain ⟨dir, name?, hlocate, hname⟩ := find_directory.1 (isDirectory_iff.1 h)
  have hleads : d.LeadsIn (d.set l (.file b)) := leadsIn_set_file hl
  refine isDirectory_iff.2 (find_directory.2 ⟨dir, name?, hleads.locate hlocate, ?_⟩)
  intro name hsome
  obtain ⟨hlong, hget⟩ := hname name hsome
  exact ⟨hlong, hleads _ hget⟩

theorem makeDirectory_of_isDirectory (h : d.isDirectory path = true) :
    d.makeDirectory path = .error .alreadyExists := by
  obtain ⟨dir, _ | name, hlocate, hname⟩ := find_directory.1 (isDirectory_iff.1 h)
  · rw [makeDirectory, hlocate]
    rfl
  · obtain ⟨hlong, hget⟩ := hname name rfl
    rw [makeDirectory, hlocate]
    simp [bind, Except.bind, hlong, hget]

theorem settleDirectory_of_isDirectory (h : d.isDirectory path = true) :
    d.settleDirectory path = (.ok (), d) := by
  rw [settleDirectory, makeDirectory_of_isDirectory h, h]
  rfl

theorem makeAll_of_isDirectory (h : d.isDirectory path = true) :
    d.makeAll path = (.ok (), d) := by
  rw [makeAll]
  cases path.length with
  | zero => exact settleDirectory_of_isDirectory h
  | succ fuel =>
    rw [makeDirectories, makeDirectory_of_isDirectory h]
    split
    · rfl
    · exact settleDirectory_of_isDirectory h

end Disk

end DataPipeline

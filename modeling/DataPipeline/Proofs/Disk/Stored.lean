import DataPipeline.Proofs.Disk.Target

namespace DataPipeline

namespace FilePath

/-- Where a name leads from a place. -/
def onward (l : Location) (name : String) : Location :=
  if name = "." then l else if name = ".." then l.tail else name :: l

/-- The place that a path leads to. -/
def place (path : String) : Location := ((split path).filter (· ≠ "")).foldl onward []

end FilePath

namespace Disk

variable {d d' : Disk} {l l' : Location} {b : ByteArray} {path other name text : String}

theorem onward_of_enter (h : d.enter l name = .ok l') : FilePath.onward l name = l' := by
  unfold enter at h
  unfold FilePath.onward
  split at h
  · cases h
    rw [if_pos ‹_›]
  rw [if_neg ‹_›]
  split at h
  · cases h
    rw [if_pos ‹_›]
  rw [if_neg ‹_›]
  split at h
  · cases h
  split at h
  · cases h
  · cases h
  · cases h
    rfl

theorem foldl_onward_of_follow {names : List String} {name? : Option String}
    (h : d.follow l names = .ok (l', name?)) :
    names.foldl FilePath.onward l = name?.toList ++ l' := by
  induction names generalizing l with
  | nil =>
    cases h
    rfl
  | cons name rest ih =>
    cases rest with
    | nil =>
      rw [follow] at h
      split at h
      · cases he : d.enter l name with
        | error e =>
          rw [he] at h
          cases h
        | ok l'' =>
          rw [he] at h
          cases h
          exact onward_of_enter he
      next hname =>
        cases h
        simp only [not_or] at hname
        simp [FilePath.onward, hname]
    | cons next rest =>
      rw [follow] at h
      · cases he : d.enter l name with
        | error e =>
          rw [he] at h
          cases h
        | ok l'' =>
          rw [he] at h
          rw [List.foldl_cons, onward_of_enter he]
          exact ih h
      · simp

theorem place_of_locate {name? : Option String} (h : d.locate path = .ok (l, name?)) :
    FilePath.place path = name?.toList ++ l := by
  unfold locate at h
  split at h
  · cases h
  split at h
  · cases h
  split at h
  · cases h
  exact foldl_onward_of_follow h

theorem locate_of_split (hzero : path.toList.contains '\x00' = false)
    (hlong : path.utf8ByteSize ≤ 4095) (hsplit : (FilePath.split path).filter (· ≠ "") = [name])
    (hname : name ≠ "." ∧ name ≠ "..") (d : Disk) : d.locate path = .ok ([], some name) := by
  have hpath : path ≠ "" := by
    rintro rfl
    have hempty : (FilePath.split "").filter (· ≠ "") = [] := by decide +kernel
    rw [hempty] at hsplit
    cases hsplit
  rw [locate, hzero, if_neg Bool.false_ne_true, if_neg hpath, if_neg (Nat.not_lt.2 hlong),
    hsplit, follow, if_neg (not_or.2 hname)]

theorem place_of_target (h : d.target path = .ok (l, b)) : FilePath.place path = l := by
  obtain ⟨dir, name, hlocate, _, _, rfl, _⟩ := target_ok.1 h
  exact place_of_locate hlocate

/-- A text is read from a file that a path leads to. -/
theorem readText_ok :
    d.readText path = .ok text ↔ ∃ dir name bytes, d.locate path = .ok (dir, some name) ∧
    FilePath.endsInSlash path = false ∧ isTooLong name = false ∧
      d.get? (name :: dir) = some (.file bytes) ∧ String.fromUTF8? bytes = some text := by
  unfold readText find
  cases hlocate : d.locate path with
  | error e => simp [bind, Except.bind]
  | ok r =>
    obtain ⟨dir, _ | name⟩ := r
    · simp [bind, Except.bind]
    simp only [bind, Except.bind]
    by_cases hlong : isTooLong name = true
    · simp [hlong]
    cases hget : d.get? (name :: dir) with
    | none => simp [hlong, hget]
    | some item =>
      cases item with
      | directory => simp [hlong, hget]
      | file bytes =>
        by_cases hslash : FilePath.endsInSlash path = true
        · simp [hlong, hslash]
        · cases htext : String.fromUTF8? bytes <;> simp [hlong, hslash, hget, htext]

/-- What is on one disk is on the other. -/
def KeptIn (d d' : Disk) : Prop := ∀ l item, d.get? l = some item → d'.get? l = some item

namespace KeptIn

theorem refl (d : Disk) : d.KeptIn d := fun _ _ h => h

theorem readText (h : d.KeptIn d') (ht : d.readText path = .ok text) :
    d'.readText path = .ok text := by
  obtain ⟨dir, name, bytes, hlocate, hslash, hlong, hget, htext⟩ := readText_ok.1 ht
  have hleads : d.LeadsIn d' := fun l => h l .directory
  exact readText_ok.2 ⟨dir, name, bytes, hleads.locate hlocate, hslash, hlong,
    h _ _ hget, htext⟩

end KeptIn

/-- One disk is the other with more directories, all of them at places of some kind. -/
def Raises (P : Location → Prop) (d d' : Disk) : Prop :=
  ∀ l, d'.get? l = d.get? l ∨ d.get? l = none ∧ d'.get? l = some .directory ∧ P l

section Raises

variable {P Q : Location → Prop} {d'' : Disk}

theorem Raises.refl (d : Disk) : Raises P d d := fun _ => .inl rfl

theorem Raises.trans (h : Raises P d d') (h' : Raises P d' d'') : Raises P d d'' := by
  intro l
  rcases h' l with heq | ⟨hnone, hmade, hl⟩
  · rw [heq]
    exact h l
  · rcases h l with heq | ⟨_, hthere, _⟩
    · exact .inr ⟨heq ▸ hnone, hmade, hl⟩
    · rw [hthere] at hnone
      cases hnone

theorem Raises.mono (h : Raises P d d') (hP : ∀ l, P l → Q l) : Raises Q d d' :=
  fun l => (h l).imp_right fun ⟨hnone, hmade, hl⟩ => ⟨hnone, hmade, hP l hl⟩

theorem Raises.keptIn (h : Raises P d d') : d.KeptIn d' := by
  intro l item hl
  rcases h l with heq | ⟨hnone, _⟩
  · rw [heq, hl]
  · rw [hnone] at hl
    cases hl

theorem raises_makeDirectory (h : d.makeDirectory path = .ok d') :
    Raises (· = FilePath.place path) d d' := by
  unfold makeDirectory at h
  cases hlocate : d.locate path with
  | error e =>
    rw [hlocate] at h
    cases h
  | ok r =>
    obtain ⟨dir, _ | name⟩ := r
    · rw [hlocate] at h
      cases h
    rw [hlocate] at h
    simp only [bind, Except.bind] at h
    split at h
    · cases h
    split at h
    · cases h
    next hnone =>
      cases h
      intro l
      by_cases hl : l = name :: dir
      · subst hl
        refine .inr ⟨by simpa using hnone, get?_set_self (List.cons_ne_nil _ _), ?_⟩
        exact (place_of_locate hlocate).symm
      · exact .inl (get?_set_of_ne hl)

theorem raises_settleDirectory :
    Raises (· = FilePath.place path) d (d.settleDirectory path).2 := by
  unfold settleDirectory
  split
  next h => exact raises_makeDirectory h
  · exact .refl d

variable {R : String → Prop}

/-- Only directories are made, at the places of the paths that lead upward from the given
one. -/
theorem raises_makeDirectories (hplace : ∀ path, R path → P (FilePath.place path))
    (hparent : ∀ path parent, R path → FilePath.parent? path = some parent → R parent)
    (fuel : Nat) (h : R path) :
    Raises P d (makeDirectories fuel d path).2 := by
  have hsettle (d : Disk) {path : String} (h : R path) :
      Raises P d (d.settleDirectory path).2 :=
    raises_settleDirectory.mono fun l hl => hl ▸ hplace path h
  induction fuel generalizing path with
  | zero => exact hsettle d h
  | succ fuel ih =>
    rw [makeDirectories]
    split
    · exact .refl d
    split
    next parent _ heq =>
      have habove : Raises P d (makeDirectories fuel d parent).2 := ih (hparent _ _ h heq)
      split
      next d' hmade =>
        rw [hmade] at habove
        exact habove.trans (hsettle d' h)
      · exact habove
    · exact hsettle d h

theorem raises_makeAll : Raises (fun _ => True) d (d.makeAll path).2 :=
  raises_makeDirectories (R := fun _ => True) (fun _ _ => trivial)
    (fun _ _ _ _ => trivial) _ trivial

theorem keptIn_makeAll : d.KeptIn (d.makeAll path).2 := raises_makeAll.keptIn

end Raises

theorem write_ok : d.write path text = .ok d' ↔
    ∃ l b, d.target path = .ok (l, b) ∧ d' = d.set l (.file text.toUTF8) := by
  unfold write
  cases d.target path with
  | error e => simp [bind, Except.bind]
  | ok r =>
    obtain ⟨l, b⟩ := r
    simp [bind, Except.bind, eq_comm]

theorem fromUTF8?_toUTF8 (s : String) : String.fromUTF8? s.toUTF8 = some s := by
  have hvalid : s.toUTF8.IsValidUTF8 := s.isValidUTF8
  rw [String.fromUTF8?, dif_pos hvalid]
  rfl

theorem readText_write (h : d.write path text = .ok d') : d'.readText path = .ok text := by
  obtain ⟨l, b, htarget, rfl⟩ := write_ok.1 h
  have hleads : d.LeadsIn (d.set l (.file text.toUTF8)) :=
    leadsIn_set_file (not_directory_of_target htarget)
  obtain ⟨dir, name, hlocate, hslash, hlong, rfl, _⟩ := target_ok.1 htarget
  exact readText_ok.2 ⟨dir, name, text.toUTF8, hleads.locate hlocate, hslash, hlong,
    get?_set_self (List.cons_ne_nil _ _), fromUTF8?_toUTF8 text⟩

theorem readText_write_of_ne {t : String} (h : d.write path text = .ok d')
    (hne : FilePath.place other ≠ FilePath.place path) (ht : d.readText other = .ok t) :
    d'.readText other = .ok t := by
  obtain ⟨l, b, htarget, rfl⟩ := write_ok.1 h
  have hleads : d.LeadsIn (d.set l (.file text.toUTF8)) :=
    leadsIn_set_file (not_directory_of_target htarget)
  obtain ⟨dir, name, bytes, hlocate, hslash, hlong, hget, hbytes⟩ := readText_ok.1 ht
  rw [place_of_locate hlocate, place_of_target htarget] at hne
  exact readText_ok.2 ⟨dir, name, bytes, hleads.locate hlocate, hslash, hlong,
    (get?_set_of_ne hne).trans hget, hbytes⟩

/-- Writes a file, given in a directory, once the directories above it are made. -/
def store (cwd : String) (d : Disk) (path text : String) : Except FileError Disk :=
  match (FilePath.parent? path).filter (· ≠ "") with
  | none => d.write (FilePath.seenFrom cwd path) text
  | some parent =>
    match d.makeAll (FilePath.seenFrom cwd parent) with
    | (.ok (), d) => d.write (FilePath.seenFrom cwd path) text
    | (.error e, _) => .error e

/-- Stores texts at their paths, one after another. -/
def storeAll (cwd : String) (d : Disk) (texts : List (String × String)) :
    Except FileError Disk :=
  texts.foldlM (fun d entry => d.store cwd entry.1 entry.2) d

theorem store_ok {cwd : String} (h : d.store cwd path text = .ok d') :
    ∃ d'', d.KeptIn d'' ∧ d''.write (FilePath.seenFrom cwd path) text = .ok d' := by
  unfold store at h
  split at h
  · exact ⟨d, .refl d, h⟩
  next parent _ =>
    have hkept : d.KeptIn (d.makeAll (FilePath.seenFrom cwd parent)).2 := keptIn_makeAll
    split at h
    next d'' hmade =>
      rw [hmade] at hkept
      exact ⟨d'', hkept, h⟩
    · cases h

theorem store_of_locate {cwd : String}
    (hparent : (FilePath.parent? path).filter (· ≠ "") = none)
    (hlocate : d.locate (FilePath.seenFrom cwd path) = .ok ([], some name))
    (hslash : FilePath.endsInSlash (FilePath.seenFrom cwd path) = false)
    (hlong : isTooLong name = false) (hnone : d.get? [name] = none) :
    d.store cwd path text = .ok (d.set [name] (.file text.toUTF8)) := by
  have htarget : d.target (FilePath.seenFrom cwd path) = .ok ([name], .empty) :=
    target_ok.2 ⟨[], name, hlocate, hslash, hlong, rfl, .inl ⟨hnone, rfl⟩⟩
  rw [store, hparent]
  exact write_ok.2 ⟨[name], .empty, htarget, rfl⟩

variable {cwd : String} {texts : List (String × String)}

theorem storeAll_cons {entry : String × String} : d.storeAll cwd (entry :: texts) = .ok d' ↔
    ∃ d'', d.store cwd entry.1 entry.2 = .ok d'' ∧ d''.storeAll cwd texts = .ok d' := by
  rw [storeAll, List.foldlM_cons]
  cases d.store cwd entry.1 entry.2 with
  | error e => simp [bind, Except.bind]
  | ok d'' => simp [bind, Except.bind, storeAll]

theorem storeAll_append {texts' : List (String × String)} :
    d.storeAll cwd (texts ++ texts') = .ok d' ↔
    ∃ d'', d.storeAll cwd texts = .ok d'' ∧ d''.storeAll cwd texts' = .ok d' := by
  induction texts generalizing d with
  | nil => simp [storeAll, pure, Except.pure]
  | cons entry rest ih =>
    simp only [List.cons_append, storeAll_cons, ih]
    constructor
    · rintro ⟨d₁, hstore, d₂, hrest, htexts⟩
      exact ⟨d₂, ⟨d₁, hstore, hrest⟩, htexts⟩
    · rintro ⟨d₂, ⟨d₁, hstore, hrest⟩, htexts⟩
      exact ⟨d₁, hstore, d₂, hrest, htexts⟩

theorem readText_storeAll_of_notMem {t : String} (h : d.storeAll cwd texts = .ok d')
    (hplace : FilePath.place other ∉
      texts.map fun entry => FilePath.place (FilePath.seenFrom cwd entry.1))
    (ht : d.readText other = .ok t) : d'.readText other = .ok t := by
  induction texts generalizing d with
  | nil =>
    cases h
    exact ht
  | cons entry rest ih =>
    obtain ⟨d₁, hstore, hrest⟩ := storeAll_cons.1 h
    obtain ⟨d₀, hkept, hwrite⟩ := store_ok hstore
    rw [List.map_cons, List.mem_cons, not_or] at hplace
    apply ih hrest hplace.2
    exact readText_write_of_ne hwrite hplace.1 (hkept.readText ht)

theorem readText_storeAll (h : d.storeAll cwd texts = .ok d')
    (hplaces : (texts.map fun entry => FilePath.place (FilePath.seenFrom cwd entry.1)).Nodup) :
    ∀ entry ∈ texts, d'.readText (FilePath.seenFrom cwd entry.1) = .ok entry.2 := by
  induction texts generalizing d with
  | nil => nofun
  | cons first rest ih =>
    obtain ⟨d₁, hstore, hrest⟩ := storeAll_cons.1 h
    obtain ⟨d₀, hkept, hwrite⟩ := store_ok hstore
    rw [List.map_cons, List.nodup_cons] at hplaces
    intro entry hentry
    rcases List.mem_cons.1 hentry with rfl | hentry
    · exact readText_storeAll_of_notMem hrest hplaces.1 (readText_write hwrite)
    · exact ih hrest hplaces.2 entry hentry

end Disk

end DataPipeline

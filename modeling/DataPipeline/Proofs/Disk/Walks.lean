import DataPipeline.Proofs.Disk.Made

namespace DataPipeline

namespace FilePath

variable {cs : List Char} {path base parent name : String}

theorem splitChars_last (cs : List Char) : ∃ pieces,
    splitChars cs = pieces ++ [(cs.reverse.takeWhile (· ≠ '/')).reverse] := by
  obtain ⟨front, last, rfl, hlast, hfront⟩ := exists_last cs
  have htake : (front ++ last).reverse.takeWhile (· ≠ '/') = last.reverse := by
    rw [List.reverse_append, List.takeWhile_append_of_pos]
    · rcases hfront with rfl | ⟨before, rfl⟩
      · exact List.append_nil _
      · simp
    · intro c hc
      have hne : c ≠ '/' := fun heq => hlast (heq ▸ List.mem_reverse.1 hc)
      simpa using hne
  rw [htake, List.reverse_reverse]
  rcases hfront with rfl | ⟨before, rfl⟩
  · exact ⟨[], splitChars_of_notMem hlast⟩
  · refine ⟨splitChars before, ?_⟩
    rw [List.append_assoc]
    change splitChars (before ++ '/' :: last) = _
    rw [splitChars_append_slash, splitChars_of_notMem hlast]

/-- A path that is spelled up to its last segment, with nothing after it. -/
def NamesLast (path : String) : Prop :=
  ∃ pieces name, split path = pieces ++ [name] ∧ name ≠ "" ∧ name ≠ "."

theorem split_ne_nil (path : String) : split path ≠ [] := by
  rw [split, ne_eq, List.map_eq_nil_iff]
  exact splitChars_ne_nil _

theorem endsInSlash_iff {pieces : List String} (hsplit : split path = pieces ++ [name])
    (hpath : path ≠ "") :
    endsInSlash path = true ↔ name = "" := by
  obtain ⟨pieces', hpieces⟩ := splitChars_last path.toList
  rw [split, hpieces, List.map_append] at hsplit
  obtain ⟨-, hname⟩ := List.append_inj' hsplit rfl
  obtain ⟨front, last, hlast⟩ := (List.eq_nil_or_concat path.toList).resolve_left fun h =>
    hpath (String.toList_eq_nil_iff.1 h)
  have hends : endsInSlash path = true ↔ last = '/' := by
    rw [endsInSlash, hlast]
    simp
  rw [hends, ← List.singleton_inj.1 hname, String.ofList_eq_empty_iff,
    List.reverse_eq_nil_iff, hlast]
  by_cases hslash : last = '/' <;> simp [hslash]

theorem NamesLast.exists_segments (h : NamesLast path) :
    ∃ names name, segments path = names ++ [name] := by
  obtain ⟨pieces, name, hsplit, hempty, hpoint⟩ := h
  refine ⟨pieces.filter fun s => s ≠ "" && s ≠ ".", name, ?_⟩
  rw [segments, hsplit, List.filter_append, List.filter_cons_of_pos (by simp [hempty, hpoint])]
  rfl

theorem split_join (h : isAbsolute path = false) :
    ∃ pieces, split (join base path) = pieces ++ split path := by
  rw [join, h, if_neg Bool.false_ne_true]
  have hslash (a b : List Char) : ∃ pieces : List String,
      (splitChars (a ++ '/' :: b)).map String.ofList =
        pieces ++ (splitChars b).map String.ofList := by
    rw [splitChars_append_slash, List.map_append]
    exact ⟨_, rfl⟩
  split
  next hbase =>
    rw [split, split, String.toList_append]
    rcases hbase with rfl | hends
    · exact ⟨[], rfl⟩
    · obtain ⟨front, hfront⟩ := List.getLast?_eq_some_iff.1 (eq_of_beq hends)
      rw [hfront, List.append_assoc]
      exact hslash front path.toList
  · rw [split, split, String.toList_append, String.toList_append, List.append_assoc]
    exact hslash base.toList path.toList

theorem cutLast_isPrefix (start : Nat) (cs : List Char) : (cutLast start cs).2 <+: cs := by
  rw [cutLast]
  dsimp only
  split
  · exact List.take_prefix _ _
  · exact (List.dropLast_prefix _).trans (List.take_prefix _ _)

theorem trim_isPrefix (start fuel : Nat) (cs : List Char) : trim start fuel cs <+: cs := by
  induction fuel generalizing cs with
  | zero => exact List.prefix_refl _
  | succ fuel ih =>
    have hcut := cutLast_isPrefix start cs
    rw [trim]
    split
    · exact List.prefix_refl _
    split
    next before heq =>
      rw [heq] at hcut
      apply (ih _).trans
      split
      · exact List.dropLast_prefix cs
      · exact hcut
    next before heq =>
      rw [heq] at hcut
      exact (ih _).trans hcut
    · exact List.prefix_refl _

theorem parent?_isPrefix (h : parent? path = some parent) : parent.toList <+: path.toList := by
  rw [parent?] at h
  split at h
  · split at h
    · cases h
      exact List.nil_prefix
    · cases h
  · cases h
    rw [String.toList_ofList]
    exact (trim_isPrefix _ _ _).trans ((cutLast_isPrefix _ _).trans (trim_isPrefix _ _ _))

theorem parent?_length (h : isAbsolute path = true) (hparent : parent? path = some parent) :
    parent.length < path.length := by
  have hbegins := parent?_isPrefix hparent
  rcases parent?_of_isAbsolute h with ⟨hnone, _⟩ | ⟨_, hsome, _, hne, hsegments⟩
  · rw [hnone] at hparent
    cases hparent
  rw [hsome] at hparent
  cases hparent
  rw [← String.length_toList, ← String.length_toList]
  apply Nat.lt_of_le_of_ne hbegins.length_le
  intro hlength
  rw [String.toList_inj.1 (hbegins.eq_of_length hlength)] at hsegments
  have hdrop := congrArg List.length hsegments
  rw [List.length_dropLast] at hdrop
  have := List.length_pos_iff.2 hne
  omega

/-- The parent of an absolute path is the root, or is spelled up to its last segment. -/
theorem parent?_namesLast (h : isAbsolute path = true) (hparent : parent? path = some parent) :
    parent = "/" ∨ NamesLast parent := by
  obtain ⟨rest, hrest⟩ := List.head?_eq_some_iff.1 (eq_of_beq h)
  obtain ⟨kept, hbody, _, _⟩ := trim_slash path.toList.length rest
  obtain ⟨before, last, hcut, _, _, hlength⟩ := cutLast_slash kept
  obtain ⟨above, htrim, _, hends⟩ := trim_slash path.toList.length before
  have hstart : bodyStart path.toList = 1 := by
    rw [hrest]
    rfl
  rw [← hrest] at hbody
  rw [parent?, hstart, hbody, hcut, htrim] at hparent
  split at hparent
  next =>
    rw [hrest] at hparent
    exact absurd hparent (by simp)
  next hlong =>
    cases hparent
    by_cases habove : above = []
    · exact .inl (by rw [habove])
    right
    have hkept : kept ≠ [] := by
      rintro rfl
      exact hlong (Nat.le_refl 1)
    have hfuel : before.length ≤ path.toList.length := by
      have hbegins := (trim_isPrefix 1 path.toList.length path.toList).length_le
      rw [hbody, List.length_cons] at hbegins
      have := hlength hkept
      omega
    obtain ⟨hne, hpoint⟩ := hends hfuel habove
    obtain ⟨pieces, hpieces⟩ := splitChars_last above
    have hname : (cutLast 1 ('/' :: above)).1 = above.reverse.takeWhile (· ≠ '/') := rfl
    rw [hname] at hne hpoint
    refine ⟨("" :: pieces.map String.ofList),
      String.ofList (above.reverse.takeWhile (· ≠ '/')).reverse, ?_, ?_, ?_⟩
    · rw [split, String.toList_ofList, splitChars, if_pos rfl, hpieces, List.map_cons,
        List.map_append]
      rfl
    · rw [ne_eq, String.ofList_eq_empty_iff, List.reverse_eq_nil_iff]
      exact hne
    · rw [ne_eq, ← String.toList_inj, String.toList_ofList]
      intro heq
      exact hpoint (List.reverse_eq_iff.1 heq)

/-- A path that can be given to the file system: no limit of its length is exceeded. -/
structure Fits (path : String) : Prop where
  absolute : isAbsolute path = true
  zero : '\x00' ∉ path.toList
  size : path.utf8ByteSize ≤ 4095
  short : ∀ name ∈ segments path, Disk.isTooLong name = false

theorem Fits.ne_empty (h : Fits path) : path ≠ "" := by
  rintro rfl
  exact absurd h.absolute (by decide)

theorem Fits.above (h : Fits path) (hparent : parent? path = some parent) : Fits parent := by
  have hbegins := parent?_isPrefix hparent
  have hsize : parent.utf8ByteSize ≤ path.utf8ByteSize := by
    obtain ⟨rest, hrest⟩ := hbegins
    have hpath : path = parent ++ String.ofList rest := by
      rw [← String.toList_inj, String.toList_append, String.toList_ofList, hrest]
    rw [hpath, String.utf8ByteSize_append]
    exact Nat.le_add_right _ _
  rcases parent?_of_isAbsolute h.absolute with ⟨hnone, _⟩ | ⟨_, hsome, habsolute, _, hsegments⟩
  · rw [hnone] at hparent
    cases hparent
  rw [hsome] at hparent
  cases hparent
  refine ⟨habsolute, fun hmem => h.zero (hbegins.subset hmem), Nat.le_trans hsize h.size, ?_⟩
  intro name hname
  rw [hsegments] at hname
  exact h.short name ((List.dropLast_sublist _).subset hname)

end FilePath

namespace Disk

open FilePath (Ancestral Fits NamesLast place segments)

variable {d d' : Disk} {l l' : Location} {path parent name : String} {names : List String}

/-- Where names lead to, each through a directory. -/
def walk (d : Disk) (l : Location) (names : List String) : Except FileError Location :=
  names.foldlM d.enter l

theorem walk_cons :
    d.walk l (name :: names) = (d.enter l name).bind fun l => d.walk l names := rfl

theorem walk_append {more : List String} :
    d.walk l (names ++ more) = (d.walk l names).bind fun l => d.walk l more :=
  List.foldlM_append

theorem LeadsIn.walk (hd : d.LeadsIn d') (h : d.walk l names = .ok l') :
    d'.walk l names = .ok l' := by
  induction names generalizing l with
  | nil => exact h
  | cons name rest ih =>
    rw [walk_cons] at h ⊢
    cases he : d.enter l name with
    | error e =>
      rw [he] at h
      cases h
    | ok next =>
      rw [he] at h
      rw [hd.enter he]
      exact ih h

theorem walk_points : d.walk l (names.filter (· ≠ ".")) = d.walk l names := by
  induction names generalizing l with
  | nil => rfl
  | cons name rest ih =>
    rw [walk_cons]
    by_cases hpoint : name = "."
    · rw [List.filter_cons_of_neg (by simpa using hpoint), ih, hpoint]
      rfl
    · rw [List.filter_cons_of_pos (by simpa using hpoint), walk_cons]
      congr 1
      funext next
      exact ih

theorem follow_concat :
    d.follow l (names ++ [name]) = (d.walk l names).bind fun l => d.follow l [name] := by
  induction names generalizing l with
  | nil => rfl
  | cons first rest ih =>
    rw [List.cons_append, follow]
    · rw [walk_cons]
      cases he : d.enter l first with
      | error e => rfl
      | ok next => exact ih
    · exact List.append_ne_nil_of_right_ne_nil _ (List.cons_ne_nil _ _)

theorem locate_of_namesLast (hfits : Fits path) (h : NamesLast path)
    (hsegments : segments path = names ++ [name]) :
    d.locate path = (d.walk [] names).bind fun l => d.follow l [name] := by
  obtain ⟨pieces, last, hsplit, hempty, hpoint⟩ := h
  have hlast : segments path = (pieces.filter fun s => s ≠ "" && s ≠ ".") ++ [last] := by
    rw [FilePath.segments, hsplit, List.filter_append,
      List.filter_cons_of_pos (by simp [hempty, hpoint])]
    rfl
  have hpieces : (pieces ++ [last]).filter (· ≠ "") = pieces.filter (· ≠ "") ++ [last] := by
    rw [List.filter_append, List.filter_cons_of_pos (by simpa using hempty)]
    rfl
  obtain ⟨rfl, heq⟩ := List.append_inj' (hsegments.symm.trans hlast) rfl
  cases heq
  rw [locate, if_neg (by simpa using hfits.zero), if_neg hfits.ne_empty,
    if_neg (Nat.not_lt.2 hfits.size), hsplit, hpieces, follow_concat, ← walk_points,
    List.filter_filter]
  congr 2
  exact List.filter_congr fun s _ => Bool.and_comm _ _

/-- Where no file is on the way, names lead to their place, or a directory is missing. -/
theorem walk_or
    (hopen : ∀ k b, d.get? ((names.take k).foldl FilePath.onward l) ≠ some (.file b))
    (hshort : ∀ name ∈ names, isTooLong name = false) :
    d.walk l names = .ok (names.foldl FilePath.onward l) ∨
    d.walk l names = .error .notFound := by
  induction names generalizing l with
  | nil => exact .inl rfl
  | cons name rest ih =>
    rw [List.forall_mem_cons] at hshort
    have hrest := @ih (FilePath.onward l name) (fun k => hopen (k + 1)) hshort.2
    have hname := hopen 1
    rw [List.take_succ_cons, List.take_zero, List.foldl_cons, List.foldl_nil] at hname
    rw [walk_cons, List.foldl_cons, enter]
    split
    next hpoint =>
      rw [FilePath.onward, if_pos hpoint] at hrest ⊢
      exact hrest
    next hpoint =>
      split
      next hup =>
        rw [FilePath.onward, if_neg hpoint, if_pos hup] at hrest ⊢
        exact hrest
      next hup =>
        rw [FilePath.onward, if_neg hpoint, if_neg hup] at hrest hname ⊢
        rw [hshort.1, if_neg Bool.false_ne_true]
        split
        · exact .inr rfl
        next b hfile => exact absurd hfile (hname b)
        · exact hrest

theorem leadsIn_set_directory : d.LeadsIn (d.set l .directory) := by
  intro l' hl'
  by_cases hl : l' = l
  · subst hl
    cases l' with
    | nil => rfl
    | cons name dir => exact get?_set_self (List.cons_ne_nil _ _)
  · rw [get?_set_of_ne hl, hl']

theorem locate_of_walk (hfits : Fits path) (h : NamesLast path)
    (hsegments : segments path = names ++ [name]) (hwalk : d.walk [] names = .ok l) :
    name = ".." ∧ d.locate path = .ok (l.tail, none) ∨
    name ≠ ".." ∧ d.locate path = .ok (l, some name) := by
  have hname : name ∈ segments path := by
    rw [hsegments]
    exact List.mem_append_right _ List.mem_cons_self
  have hlocate : d.locate path = d.follow l [name] := by
    rw [locate_of_namesLast hfits h hsegments, hwalk]
    rfl
  rw [hlocate]
  by_cases hup : name = ".."
  · left
    rw [hup]
    exact ⟨rfl, rfl⟩
  · right
    rw [follow, if_neg (not_or.2 ⟨(FilePath.ne_point_of_mem_segments hname).2, hup⟩)]
    exact ⟨hup, rfl⟩

/-- A directory whose parent a path leads to can be made where no file is, and the path leads to
it then. -/
theorem settleDirectory_walk (hfits : Fits path) (hspelled : path = "/" ∨ NamesLast path)
    (hopen : ∀ b, d.get? (place path) ≠ some (.file b))
    (hwalk : d.walk [] (segments path).dropLast = .ok l) :
    ∃ d', d.settleDirectory path = (.ok (), d') ∧
      ∃ l', d'.walk [] (segments path) = .ok l' := by
  rcases hspelled with rfl | hspelled
  · exact ⟨d, settleDirectory_of_isDirectory rfl, [], rfl⟩
  obtain ⟨names, name, hsegments⟩ := hspelled.exists_segments
  have hname : name ∈ segments path := by
    rw [hsegments]
    exact List.mem_append_right _ List.mem_cons_self
  rw [hsegments, List.dropLast_concat] at hwalk
  have hlast {d' : Disk} (hleads : d.LeadsIn d') :
      d'.walk [] (segments path) = d'.walk l [name] := by
    rw [hsegments, walk_append, hleads.walk hwalk]
    rfl
  rcases locate_of_walk hfits hspelled hsegments hwalk with ⟨rfl, hlocate⟩ | ⟨hup, hlocate⟩
  · have hdirectory : d.isDirectory path = true :=
      isDirectory_iff.2 (find_directory.2 ⟨_, _, hlocate, nofun⟩)
    exact ⟨d, settleDirectory_of_isDirectory hdirectory, l.tail, hlast fun _ => id⟩
  have hlong := hfits.short name hname
  have hpoint := (FilePath.ne_point_of_mem_segments hname).2
  rw [place_of_locate hlocate] at hopen
  have hin {d' : Disk} (hget : d'.get? (name :: l) = some .directory) :
      d'.walk l [name] = .ok (name :: l) := by
    rw [walk_cons, enter, if_neg hpoint, if_neg hup, hlong, if_neg Bool.false_ne_true, hget]
    rfl
  cases hget : d.get? (name :: l) with
  | none =>
    have hmake : d.makeDirectory path = .ok (d.set (name :: l) .directory) := by
      rw [makeDirectory, hlocate]
      simp [bind, Except.bind, hlong, hget]
    refine ⟨_, by rw [settleDirectory, hmake], name :: l, ?_⟩
    rw [hlast leadsIn_set_directory, hin (get?_set_self (List.cons_ne_nil _ _))]
  | some item =>
    cases item with
    | file b => exact absurd hget (hopen b)
    | directory =>
      have hdirectory : d.isDirectory path = true := by
        refine isDirectory_iff.2 (find_directory.2 ⟨_, _, hlocate, ?_⟩)
        intro name' hname'
        cases hname'
        exact ⟨hlong, hget⟩
      exact ⟨d, settleDirectory_of_isDirectory hdirectory, _,
        (hlast fun _ => id).trans (hin hget)⟩

theorem makeDirectory_of_walk {e : FileError} (hfits : Fits path)
    (hspelled : path = "/" ∨ NamesLast path) (hne : segments path ≠ [])
    (hwalk : d.walk [] (segments path).dropLast = .error e) :
    d.makeDirectory path = .error e := by
  rcases hspelled with rfl | hspelled
  · exact absurd rfl hne
  obtain ⟨names, name, hsegments⟩ := hspelled.exists_segments
  rw [hsegments, List.dropLast_concat] at hwalk
  rw [makeDirectory, locate_of_namesLast hfits hspelled hsegments, hwalk]
  rfl

/-- All directories above a path and at it can be made if no file is on the way, and the path
leads there then. -/
theorem makeDirectories_walk (fuel : Nat) (hfuel : path.length ≤ fuel) (hfits : Fits path)
    (hspelled : path = "/" ∨ NamesLast path)
    (hopen : ∀ l b, Ancestral path l → d.get? l ≠ some (.file b)) :
    ∃ d', makeDirectories fuel d path = (.ok (), d') ∧
      ∃ l, d'.walk [] (segments path) = .ok l := by
  induction fuel generalizing d path with
  | zero =>
    have hpath := String.length_eq_zero_iff.1 (Nat.le_zero.1 hfuel)
    exact absurd hfits.ne_empty (not_not.2 hpath)
  | succ fuel ih =>
    have hplace := FilePath.ancestral_place path
    rw [makeDirectories, if_neg hfits.ne_empty]
    rcases FilePath.parent?_of_isAbsolute hfits.absolute with ⟨hnone, hnil⟩
      | ⟨parent, hsome, _, hne, hsegments⟩
    · have hwalk : d.walk [] (segments path).dropLast = .ok [] := by
        rw [hnil]
        rfl
      rw [hnone]
      split
      next heq => cases heq
      · exact settleDirectory_walk hfits hspelled (fun b => hopen _ b hplace) hwalk
    have habove := hfits.above hsome
    have hopen' : ∀ l b, Ancestral parent l → d.get? l ≠ some (.file b) := fun l b hl =>
      hopen l b (hl.of_parent hsegments)
    rw [hsome]
    split
    next parent' hmake heq =>
      cases heq
      have hlength : parent.length ≤ fuel := by
        have := FilePath.parent?_length hfits.absolute hsome
        omega
      obtain ⟨d', hmade, l, hwalk⟩ :=
        ih hlength habove (FilePath.parent?_namesLast hfits.absolute hsome) hopen'
      have hraises : Raises (fun _ => True) d (makeDirectories fuel d parent).2 :=
        raises_makeDirectories (R := fun _ => True) (fun _ _ => trivial)
          (fun _ _ _ _ => trivial) _ trivial
      rw [hmade] at hraises ⊢
      rw [hsegments] at hwalk
      refine settleDirectory_walk hfits hspelled (fun b => ?_) hwalk
      rcases hraises (place path) with heq | ⟨_, hthere, _⟩
      · rw [heq]
        exact hopen _ b hplace
      · rw [hthere]
        intro heq
        cases heq
    next hother =>
      -- only a directory that is missing on the way would have sent the walk upward
      rcases walk_or (fun k b => hopen' _ b ⟨k, rfl⟩) habove.short with hwalk | hwalk
      · rw [hsegments] at hwalk
        exact settleDirectory_walk hfits hspelled (fun b => hopen _ b hplace) hwalk
      · rw [hsegments] at hwalk
        exact absurd rfl (hother parent (makeDirectory_of_walk hfits hspelled hne hwalk))

/-- What is found at the end of a way through directories was reached by a walk. -/
theorem walk_of_follow {name? : Option String} (h : d.follow l names = .ok (l', name?))
    (hname : ∀ name, name? = some name →
      isTooLong name = false ∧ d.get? (name :: l') = some .directory) :
    d.walk l names = .ok (name?.toList ++ l') := by
  induction names generalizing l with
  | nil =>
    cases h
    rfl
  | cons name rest ih =>
    rw [walk_cons]
    cases rest with
    | nil =>
      rw [follow] at h
      split at h
      · cases he : d.enter l name with
        | error e =>
          rw [he] at h
          cases h
        | ok l'' =>
          rw [he] at h
          cases h
          rfl
      next hpoints =>
        cases h
        rw [not_or] at hpoints
        obtain ⟨hlong, hget⟩ := hname name rfl
        rw [enter, if_neg hpoints.1, if_neg hpoints.2, hlong, if_neg Bool.false_ne_true, hget]
        rfl
    | cons next rest =>
      rw [follow] at h
      · cases he : d.enter l name with
        | error e =>
          rw [he] at h
          cases h
        | ok l'' =>
          rw [he] at h
          exact ih h
      · exact List.cons_ne_nil _ _

theorem walk_of_isDirectory (h : d.isDirectory path = true) :
    d.walk [] (segments path) = .ok (place path) := by
  obtain ⟨dir, name?, hlocate, hname⟩ := find_directory.1 (isDirectory_iff.1 h)
  have hplace := place_of_locate hlocate
  unfold locate at hlocate
  split at hlocate
  · cases hlocate
  split at hlocate
  · cases hlocate
  split at hlocate
  · cases hlocate
  have hwalk := walk_of_follow hlocate hname
  rw [← walk_points, List.filter_filter] at hwalk
  rw [hplace, ← hwalk, FilePath.segments]
  congr 1
  exact List.filter_congr fun s _ => Bool.and_comm _ _

/-- A walk from a directory passes through directories only, and all that is above them are
directories. -/
theorem get?_of_walk (hl : ∀ s, s <:+ l → d.get? s = some .directory)
    (h : d.walk l names = .ok l') (k : Nat) :
    d.get? ((names.take k).foldl FilePath.onward l) = some .directory := by
  induction names generalizing l k with
  | nil =>
    rw [List.take_nil]
    exact hl l (List.suffix_refl _)
  | cons name rest ih =>
    cases k with
    | zero => exact hl l (List.suffix_refl _)
    | succ k =>
      rw [walk_cons] at h
      cases he : d.enter l name with
      | error e =>
        rw [he] at h
        cases h
      | ok next =>
        rw [he] at h
        rw [List.take_succ_cons, List.foldl_cons, onward_of_enter he]
        refine ih (fun s hs => ?_) h k
        rw [enter] at he
        split at he
        · cases he
          exact hl s hs
        split at he
        · cases he
          exact hl s (hs.trans (List.tail_suffix _))
        split at he
        · cases he
        split at he
        · cases he
        · cases he
        next hget =>
          cases he
          rcases List.suffix_cons_iff.1 hs with rfl | hs
          · exact hget
          · exact hl s hs

/-- A path that leads to a name is spelled up to it, or ends in a slash. -/
theorem name_of_follow (h : d.follow l names = .ok (l', some name)) :
    names.getLast? = some name ∧ name ≠ "." := by
  induction names generalizing l with
  | nil => cases h
  | cons first rest ih =>
    cases rest with
    | nil =>
      rw [follow] at h
      split at h
      · cases he : d.enter l first <;> rw [he] at h <;> cases h
      next hpoints =>
        cases h
        exact ⟨rfl, fun heq => hpoints (.inl heq)⟩
    | cons next rest =>
      rw [follow] at h
      · cases he : d.enter l first with
        | error e =>
          rw [he] at h
          cases h
        | ok l'' =>
          rw [he] at h
          exact ih h
      · exact List.cons_ne_nil _ _

theorem namesLast_of_target {b : ByteArray} (h : d.target path = .ok (l, b)) :
    NamesLast path := by
  obtain ⟨dir, name, hlocate, hslash, _⟩ := target_ok.1 h
  have hsplit := (List.dropLast_concat_getLast (FilePath.split_ne_nil path)).symm
  unfold locate at hlocate
  split at hlocate
  · cases hlocate
  split at hlocate
  · cases hlocate
  next hpath =>
    split at hlocate
    · cases hlocate
    have hempty : (FilePath.split path).getLast (FilePath.split_ne_nil path) ≠ "" := by
      rw [ne_eq, ← FilePath.endsInSlash_iff hsplit hpath, hslash]
      exact Bool.false_ne_true
    obtain ⟨hlast, hpoint⟩ := name_of_follow hlocate
    rw [hsplit, List.filter_append, List.filter_cons_of_pos (by simpa using hempty)] at hlast
    rw [List.filter_nil, List.getLast?_concat] at hlast
    exact ⟨_, _, hsplit, hempty, Option.some.inj hlast ▸ hpoint⟩

theorem target_of_walk (hfits : Fits path) (h : NamesLast path)
    (hup : (segments path).getLast? ≠ some "..")
    (hwalk : d.walk [] (segments path).dropLast = .ok l) (hnone : d.get? (place path) = none) :
    d.target path = .ok (place path, .empty) := by
  obtain ⟨pieces, last, hsplit, hempty, _⟩ := id h
  obtain ⟨names, name, hsegments⟩ := h.exists_segments
  rw [hsegments, List.dropLast_concat] at hwalk
  rw [hsegments, List.getLast?_concat] at hup
  rcases locate_of_walk hfits h hsegments hwalk with ⟨rfl, _⟩ | ⟨_, hlocate⟩
  · exact absurd rfl hup
  have hslash : FilePath.endsInSlash path = false := by
    rw [Bool.eq_false_iff, ne_eq, FilePath.endsInSlash_iff hsplit hfits.ne_empty]
    exact hempty
  have hname : name ∈ segments path := by
    rw [hsegments]
    exact List.mem_append_right _ List.mem_cons_self
  rw [place_of_locate hlocate] at hnone ⊢
  exact target_ok.2 ⟨l, name, hlocate, hslash, hfits.short name hname, rfl, .inl ⟨hnone, rfl⟩⟩

end Disk

end DataPipeline

import DataPipeline.Proofs.Disk.Stored
import Mathlib.Data.List.Induction

namespace DataPipeline

namespace FilePath

variable {a b cs rest : List Char} {path base parent : String}

theorem splitChars_ne_nil (cs : List Char) : splitChars cs ≠ [] := by
  cases cs with
  | nil => exact List.cons_ne_nil _ _
  | cons c rest =>
    rw [splitChars]
    split
    · exact List.cons_ne_nil _ _
    · split
      · exact List.cons_ne_nil _ _
      · exact List.cons_ne_nil _ _

theorem splitChars_append_slash (a b : List Char) :
    splitChars (a ++ '/' :: b) = splitChars a ++ splitChars b := by
  induction a with
  | nil => simp [splitChars]
  | cons c a ih =>
    rw [List.cons_append, splitChars, splitChars, ih]
    split
    · rfl
    · cases hsplit : splitChars a with
      | nil => exact absurd hsplit (splitChars_ne_nil a)
      | cons s more => rfl

theorem splitChars_of_notMem (h : '/' ∉ cs) : splitChars cs = [cs] := by
  induction cs with
  | nil => rfl
  | cons c rest ih =>
    rw [List.mem_cons, not_or] at h
    rw [splitChars, ih h.2, if_neg (Ne.symm h.1)]

/-- The segments of a path that name something, by their letters. -/
def parts (cs : List Char) : List (List Char) :=
  (splitChars cs).filter fun s => s ≠ [] && s ≠ ['.']

theorem segments_eq (path : String) :
    segments path = (parts path.toList).map String.ofList := by
  rw [segments, split, parts, List.filter_map]
  congr 2
  funext s
  have hempty : String.ofList s = "" ↔ s = [] := String.ofList_eq_empty_iff
  have hpoint : String.ofList s = "." ↔ s = ['.'] := by
    rw [← String.toList_inj, String.toList_ofList]
    rfl
  simp [hempty, hpoint]

theorem parts_append_slash (a b : List Char) : parts (a ++ '/' :: b) = parts a ++ parts b := by
  rw [parts, splitChars_append_slash, List.filter_append]
  rfl

theorem parts_of_notMem (h : '/' ∉ cs) (hne : cs ≠ []) (hpoint : cs ≠ ['.']) :
    parts cs = [cs] := by
  rw [parts, splitChars_of_notMem h]
  simp [hne, hpoint]

theorem segments_join (h : isAbsolute path = false) :
    segments (join base path) = segments base ++ segments path := by
  simp only [segments_eq, ← List.map_append]
  congr 1
  rw [join, h, if_neg Bool.false_ne_true]
  split
  next hbase =>
    rw [String.toList_append]
    rcases hbase with rfl | hslash
    · rfl
    · obtain ⟨front, hfront⟩ := List.getLast?_eq_some_iff.1 (eq_of_beq hslash)
      rw [hfront, List.append_assoc]
      change parts (front ++ '/' :: path.toList) = parts (front ++ '/' :: []) ++ _
      rw [parts_append_slash, parts_append_slash]
      exact congrArg (· ++ _) (List.append_nil _).symm
  · rw [String.toList_append, String.toList_append, List.append_assoc]
    exact parts_append_slash _ _

theorem isAbsolute_join (hbase : isAbsolute base = true) (h : isAbsolute path = false) :
    isAbsolute (join base path) = true := by
  have hhead : base.toList.head? = some '/' := eq_of_beq hbase
  rw [join, h, if_neg Bool.false_ne_true]
  split
  · rw [isAbsolute, String.toList_append, List.head?_append, hhead]
    rfl
  · rw [isAbsolute, String.toList_append, String.toList_append, List.append_assoc,
      List.head?_append, hhead]
    rfl

theorem exists_last (cs : List Char) : ∃ front last, cs = front ++ last ∧ '/' ∉ last ∧
    (front = [] ∨ ∃ before, front = before ++ ['/']) := by
  induction cs using List.reverseRecOn with
  | nil => exact ⟨[], [], rfl, List.not_mem_nil, .inl rfl⟩
  | append_singleton cs c ih =>
    by_cases hc : c = '/'
    · exact ⟨cs ++ [c], [], (List.append_nil _).symm, List.not_mem_nil, .inr ⟨cs, by rw [hc]⟩⟩
    · obtain ⟨front, last, rfl, hlast, hfront⟩ := ih
      refine ⟨front, last ++ [c], List.append_assoc .., ?_, hfront⟩
      rw [List.mem_append, List.mem_singleton, not_or]
      exact ⟨hlast, Ne.symm hc⟩

/-- An absolute path is cut at its last slash; the segments of both sides are its own. -/
theorem cutLast_slash (rest : List Char) :
    ∃ before last, cutLast 1 ('/' :: rest) = (last.reverse, '/' :: before) ∧
    '/' ∉ last ∧ parts ('/' :: rest) = parts ('/' :: before) ++ parts last ∧
    (rest ≠ [] → before.length < rest.length) := by
  obtain ⟨front, last, rfl, hlast, hfront⟩ := exists_last rest
  have htake : (front ++ last).reverse.takeWhile (· ≠ '/') = last.reverse := by
    rw [List.reverse_append, List.takeWhile_append_of_pos]
    · rcases hfront with rfl | ⟨before, rfl⟩
      · exact List.append_nil _
      · simp
    · intro c hc
      have hne : c ≠ '/' := fun heq => hlast (heq ▸ List.mem_reverse.1 hc)
      simpa using hne
  have hbefore :
      ('/' :: (front ++ last)).take (('/' :: (front ++ last)).length - last.reverse.length) =
        '/' :: front := by
    rw [← List.cons_append]
    apply List.take_left'
    simp only [List.length_append, List.length_cons, List.length_reverse]
    omega
  have hcut : cutLast 1 ('/' :: (front ++ last)) =
      (last.reverse,
        if ('/' :: front).length ≤ 1 then '/' :: front else ('/' :: front).dropLast) := by
    rw [cutLast]
    simp only [List.drop_succ_cons, List.drop_zero]
    rw [htake, hbefore]
  rcases hfront with rfl | ⟨before, rfl⟩
  · refine ⟨[], last, hcut, hlast, parts_append_slash [] last, ?_⟩
    intro hne
    exact List.length_pos_iff.2 hne
  · refine ⟨before, last, ?_, hlast, ?_, ?_⟩
    · rw [hcut, if_neg (by simp), ← List.cons_append, List.dropLast_concat]
    · rw [List.append_assoc, ← List.cons_append]
      exact parts_append_slash _ _
    · intro _
      simp only [List.length_append, List.length_singleton]
      omega

/-- To drop final slashes and points changes no segment. What is left ends in a segment that
names something, if there is one. -/
theorem trim_slash (fuel : Nat) (rest : List Char) :
    ∃ kept, trim 1 fuel ('/' :: rest) = '/' :: kept ∧
    parts ('/' :: kept) = parts ('/' :: rest) ∧
    (rest.length ≤ fuel → kept ≠ [] →
      (cutLast 1 ('/' :: kept)).1 ≠ [] ∧ (cutLast 1 ('/' :: kept)).1 ≠ ['.']) := by
  induction fuel generalizing rest with
  | zero =>
    refine ⟨rest, rfl, rfl, ?_⟩
    intro hfuel hne
    exact absurd (List.eq_nil_of_length_eq_zero (Nat.le_zero.1 hfuel)) hne
  | succ fuel ih =>
    rw [trim]
    split
    next hshort =>
      refine ⟨rest, rfl, rfl, ?_⟩
      intro _ hne
      rw [List.length_cons] at hshort
      exact absurd (List.eq_nil_of_length_eq_zero (by omega)) hne
    next hlong =>
      have hne : rest ≠ [] := by
        rintro rfl
        exact hlong (Nat.le_refl 1)
      obtain ⟨before, last, hcut, _, hparts, hlength⟩ := cutLast_slash rest
      have hlength := hlength hne
      obtain ⟨kept, htrim, hkept, hends⟩ := ih before
      rw [hcut]
      split
      next heq =>
        obtain ⟨hnil, rfl⟩ := Prod.mk.inj heq
        rw [List.reverse_eq_nil_iff.1 hnil] at hparts
        rw [if_neg (by simp only [List.length_cons]; omega)]
        exact ⟨kept, htrim, by rw [hkept, hparts]; exact (List.append_nil _).symm,
          fun hfuel => hends (by omega)⟩
      next heq =>
        obtain ⟨hpoint, rfl⟩ := Prod.mk.inj heq
        rw [List.reverse_eq_iff.1 hpoint] at hparts
        exact ⟨kept, htrim, by rw [hkept, hparts]; exact (List.append_nil _).symm,
          fun hfuel => hends (by omega)⟩
      next hnil hpoint =>
        refine ⟨rest, rfl, rfl, fun _ _ => ?_⟩
        rw [hcut]
        exact ⟨fun heq => hnil _ (Prod.ext heq rfl), fun heq => hpoint _ (Prod.ext heq rfl)⟩

/-- The parent of an absolute path has its segments but the last, and only the root has none. -/
theorem parent?_of_isAbsolute (h : isAbsolute path = true) :
    (parent? path = none ∧ segments path = []) ∨
    ∃ parent, parent? path = some parent ∧ isAbsolute parent = true ∧ segments path ≠ [] ∧
      segments parent = (segments path).dropLast := by
  obtain ⟨rest, hrest⟩ := List.head?_eq_some_iff.1 (eq_of_beq h)
  obtain ⟨kept, htrim, hparts, hends⟩ := trim_slash path.toList.length rest
  have hlength : rest.length ≤ path.toList.length := by
    rw [hrest]
    exact Nat.le_succ _
  have hends := hends hlength
  have hsegments : segments path = (parts ('/' :: kept)).map String.ofList := by
    rw [segments_eq, hrest, hparts]
  have hparent : parent? path = if ('/' :: kept).length ≤ 1 then none
      else some (String.ofList (trim 1 path.toList.length (cutLast 1 ('/' :: kept)).2)) := by
    have hstart : bodyStart path.toList = 1 := by
      rw [hrest]
      rfl
    have hhead : path.toList.head? ≠ some '.' := by
      rw [hrest]
      exact fun hpoint => absurd (Option.some.inj hpoint) (by decide)
    have hbody : trim 1 path.toList.length path.toList = '/' :: kept := by
      rw [← htrim, hrest]
    simp only [parent?, hstart, hbody, if_neg hhead]
  cases kept with
  | nil => exact .inl ⟨hparent, hsegments⟩
  | cons c kept =>
    obtain ⟨before, last, hcut, hlast, hcutParts, _⟩ := cutLast_slash (c :: kept)
    obtain ⟨above, htrim', habove, _⟩ := trim_slash path.toList.length before
    have hnamed := hends (List.cons_ne_nil _ _)
    rw [hcut] at hnamed hparent
    have hparts : parts last = [last] := by
      apply parts_of_notMem hlast
      · rintro rfl
        exact hnamed.1 rfl
      · rintro rfl
        exact hnamed.2 rfl
    rw [hcutParts, hparts, List.map_append] at hsegments
    right
    refine ⟨_, hparent.trans (if_neg (by simp)), ?_, ?_, ?_⟩
    · rw [htrim', isAbsolute, String.toList_ofList]
      rfl
    · rw [hsegments]
      exact List.append_ne_nil_of_right_ne_nil _ (List.cons_ne_nil _ _)
    · rw [segments_eq, htrim', String.toList_ofList, habove, hsegments]
      exact List.dropLast_concat.symm

theorem foldl_onward_points (names : List String) (l : Location) :
    (names.filter (· ≠ "")).foldl onward l =
      (names.filter fun s => s ≠ "" && s ≠ ".").foldl onward l := by
  induction names generalizing l with
  | nil => rfl
  | cons name names ih =>
    by_cases hempty : name = ""
    · simpa [hempty] using ih l
    by_cases hpoint : name = "."
    · simpa [hpoint, onward] using ih l
    · simpa [hempty, hpoint] using ih (onward l name)

theorem place_eq (path : String) : place path = (segments path).foldl onward [] :=
  foldl_onward_points _ _

theorem ne_point_of_mem_segments {name : String} (h : name ∈ segments path) :
    name ≠ "" ∧ name ≠ "." := by
  simpa using (List.mem_filter.1 h).2

theorem foldl_onward_inward {names : List String} (h : ∀ name ∈ names, name ≠ "." ∧ name ≠ "..")
    (l : Location) :
    names.foldl onward l = names.reverse ++ l := by
  induction names generalizing l with
  | nil => rfl
  | cons name names ih =>
    rw [List.forall_mem_cons] at h
    rw [List.foldl_cons, onward, if_neg h.1.1, if_neg h.1.2, ih h.2, List.reverse_cons,
      List.append_assoc]
    rfl

theorem place_join (h : isAbsolute path = false) (hup : ".." ∉ segments path) :
    place (join base path) = (segments path).reverse ++ place base := by
  rw [place_eq, place_eq, segments_join h, List.foldl_append]
  apply foldl_onward_inward
  intro name hname
  exact ⟨(ne_point_of_mem_segments hname).2, fun heq => hup (heq ▸ hname)⟩

/-- The place of a path, or of a path that has only the first of its segments. -/
def Ancestral (path : String) (l : Location) : Prop :=
  ∃ k, l = ((segments path).take k).foldl onward []

theorem ancestral_place (path : String) : Ancestral path (place path) :=
  ⟨(segments path).length, by rw [List.take_length, place_eq]⟩

theorem Ancestral.of_parent {l : Location}
    (hsegments : segments parent = (segments path).dropLast) (h : Ancestral parent l) :
    Ancestral path l := by
  obtain ⟨k, rfl⟩ := h
  rw [hsegments, List.dropLast_eq_take, List.take_take]
  exact ⟨_, rfl⟩

theorem ancestral_iff {l : Location} (hup : ".." ∉ segments path) :
    Ancestral path l ↔ l <:+ place path := by
  have hpoints : ∀ name ∈ segments path, name ≠ "." ∧ name ≠ ".." := fun name hname =>
    ⟨(ne_point_of_mem_segments hname).2, fun heq => hup (heq ▸ hname)⟩
  have hplace : place path = (segments path).reverse := by
    rw [place_eq, foldl_onward_inward hpoints, List.append_nil]
  have htake (k : Nat) :
      ((segments path).take k).foldl onward [] = ((segments path).take k).reverse := by
    rw [foldl_onward_inward fun name hname => hpoints name (List.mem_of_mem_take hname),
      List.append_nil]
  rw [hplace, ← List.reverse_prefix, List.reverse_reverse]
  constructor
  · rintro ⟨k, rfl⟩
    rw [htake, List.reverse_reverse]
    exact List.take_prefix k _
  · intro h
    refine ⟨l.reverse.length, ?_⟩
    rw [htake, ← List.prefix_iff_eq_take.1 h, List.reverse_reverse]

theorem Ancestral.join {l : Location} (h : isAbsolute path = false) (hup : ".." ∉ segments path)
    (hl : Ancestral (join base path) l) : Ancestral base l ∨ place base <:+ l := by
  obtain ⟨k, rfl⟩ := hl
  rw [segments_join h, List.take_append]
  by_cases hk : k ≤ (segments base).length
  · left
    rw [Nat.sub_eq_zero_of_le hk, List.take_zero, List.append_nil]
    exact ⟨k, rfl⟩
  · right
    rw [List.take_of_length_le (by omega), List.foldl_append, ← place_eq, foldl_onward_inward]
    · exact List.suffix_append _ _
    · intro name hname
      have hmem := List.mem_of_mem_take hname
      exact ⟨(ne_point_of_mem_segments hmem).2, fun heq => hup (heq ▸ hmem)⟩

end FilePath

end DataPipeline

import DataPipeline.Proofs.Document.Proper

namespace DataPipeline

namespace Fields

variable {fields sorted : Fields} {names : List String} {value? : String → Option Json}

theorem ofList_eq (hperm : List.Perm fields sorted) (h : Ascending sorted) :
    ofList fields = sorted := by
  have hnodup : (fields.map (·.1)).Nodup := (hperm.map _).nodup_iff.2 h.nodup
  have hascending : Ascending (ofList fields) := Ascending.merge List.Pairwise.nil
  apply ext hascending h
  intro key
  have hmerged : (ofList fields).get? key = (get? fields key).or none := get?_merge hnodup
  rw [hmerged, Option.or_none]
  cases hget : get? sorted key with
  | none =>
    rw [get?_eq_none] at hget ⊢
    rwa [(hperm.map _).mem_iff]
  | some v => rwa [get?_eq_some hnodup, hperm.mem_iff, ← get?_eq_some h.nodup]

/-- The fields of the given names that have a value. -/
def select (names : List String) (value? : String → Option Json) : Fields :=
  names.flatMap fun name => ((value? name).map (name, ·)).toList

theorem select_cons (name : String) : select (name :: names) value? =
    ((value? name).map (name, ·)).toList ++ select names value? :=
  List.flatMap_cons

theorem select_perm {names' : List String} (h : List.Perm names names') :
    List.Perm (select names value?) (select names' value?) :=
  h.flatMap_right _

theorem mem_select {f : String × Json} :
    f ∈ select names value? ↔ f.1 ∈ names ∧ value? f.1 = some f.2 := by
  rw [select, List.mem_flatMap]
  constructor
  · rintro ⟨name, hname, hf⟩
    obtain ⟨v, hv, rfl⟩ := Option.map_eq_some_iff.1 (Option.mem_toList.1 hf)
    exact ⟨hname, hv⟩
  · rintro ⟨hname, hv⟩
    exact ⟨f.1, hname, Option.mem_toList.2 (Option.map_eq_some_iff.2 ⟨f.2, hv, rfl⟩)⟩

theorem ascending_select (h : names.Pairwise (· < ·)) : Ascending (select names value?) := by
  induction names with
  | nil => exact List.Pairwise.nil
  | cons name names ih =>
    rw [List.pairwise_cons] at h
    rw [select_cons]
    cases value? name with
    | none => exact ih h.2
    | some v => exact ascending_cons.2 ⟨fun f hf => h.1 f.1 (mem_select.1 hf).1, ih h.2⟩

end Fields

namespace Json

variable {fields : Fields} {items : List Json}

theorem depth_le_depthFields {f : String × Json} (h : f ∈ fields) :
    f.2.depth ≤ depthFields fields := by
  induction fields with
  | nil => cases h
  | cons first fields ih =>
    rw [depthFields]
    rcases List.mem_cons.1 h with rfl | h
    · exact Nat.le_max_left _ _
    · exact Nat.le_trans (ih h) (Nat.le_max_right _ _)

theorem depth_le_depthItems {v : Json} (h : v ∈ items) : v.depth ≤ depthItems items := by
  induction items with
  | nil => cases h
  | cons first items ih =>
    rw [depthItems]
    rcases List.mem_cons.1 h with rfl | h
    · exact Nat.le_max_left _ _
    · exact Nat.le_trans (ih h) (Nat.le_max_right _ _)

theorem properFields_iff : properFields fields = true ↔ ∀ f ∈ fields, f.2.proper = true := by
  induction fields with
  | nil => exact iff_of_true rfl nofun
  | cons f fields ih => rw [properFields, Bool.and_eq_true, ih, List.forall_mem_cons]

theorem properItems_iff : properItems items = true ↔ ∀ v ∈ items, v.proper = true := by
  induction items with
  | nil => exact iff_of_true rfl nofun
  | cons v items ih => rw [properItems, Bool.and_eq_true, ih, List.forall_mem_cons]

end Json

namespace Document

variable {α : Type} {r : Reading} {v : Json}

theorem readOption_of_proper (hdepth : v.depth ≤ r.depth) (hproper : v.proper = true)
    (hv : v ≠ .null) :
    Reading.readOption Reading.readJson r (.ofJson v) = .ok (some v) := by
  have hread : Reading.readJson r (.ofJson v) = .ok v :=
    readJsonWithin_of_proper v hdepth hproper
  have hgiven : Reading.readOption Reading.readJson r (.ofJson v) =
      some <$> Reading.readJson r (.ofJson v) := by
    cases v with
    | null => exact absurd rfl hv
    | number n => cases n <;> rfl
    | _ => rfl
  rw [hgiven, hread]
  rfl

theorem readOption_of_object {read : Reading → Doc → Read α} {a : α}
    (hv : ∃ fields, v = .object fields) (h : read r (.ofJson v) = .ok a) :
    Reading.readOption read r (.ofJson v) = .ok (some a) := by
  obtain ⟨fields, rfl⟩ := hv
  change some <$> read r (.ofJson (.object fields)) = _
  rw [h]
  rfl

theorem readItems_map {read : Reading → Doc → Read α} {write : α → Json} {as : List α} {n : Nat}
    (h : ∀ a ∈ as, ∀ n, read (r.step (.index n)) (.ofJson (write a)) = .ok a) :
    Reading.readItems read r n (Doc.ofItems (as.map write)) = .ok as := by
  induction as generalizing n with
  | nil => rfl
  | cons a as ih =>
    rw [List.forall_mem_cons] at h
    rw [List.map_cons, Doc.ofItems, Reading.readItems, h.1 n, ih h.2]
    rfl

theorem readList_map {read : Reading → Doc → Read α} {write : α → Json} {as : List α}
    (hdepth : (Json.array (as.map write)).depth ≤ r.depth)
    (h : ∀ a ∈ as,
      ∀ r' : Reading, (write a).depth ≤ r'.depth → read r' (.ofJson (write a)) = .ok a) :
    r.readList read (.ofJson (.array (as.map write))) = .ok as := by
  obtain ⟨format, anchors, depth, trail, home⟩ := r
  cases depth with
  | zero => cases hdepth
  | succ depth =>
    let inner : Reading := ⟨format, anchors, depth, trail, default⟩
    have hitems : Reading.readItems read inner 0 (Doc.ofItems (as.map write)) = .ok as := by
      apply readItems_map
      intro a ha n
      have hitem := Json.depth_le_depthItems (List.mem_map_of_mem (f := write) ha)
      exact h a ha _ (Nat.le_trans hitem (Nat.le_of_succ_le_succ hdepth))
    change (Reading.readItems read inner 0 (Doc.ofItems (as.map write)) >>= fun as =>
      Except.ok as) = _
    rw [hitems]
    rfl

namespace Shape

variable {shape : Shape α} {value? : String → Option Json} {part : List String → α}
  {names seen : List String}

/-- What the fields of a structure are read as: `part names` is what has been read while the
named fields are still to come, and a field that is not written changes nothing. -/
structure Parts (shape : Shape α) (value? : String → Option Json) (part : List String → α)
    (r : Reading) :
    Prop where
  put : ∀ {name rest v}, name ∈ shape.fields → name ∉ rest → value? name = some v →
    shape.put (part (name :: rest)) name (r.step (.key name)) (.ofJson v) = .ok (part rest)
  skip : ∀ {name rest}, name ∈ shape.fields → name ∉ rest → value? name = none →
    part (name :: rest) = part rest

theorem Parts.readEntries (h : shape.Parts value? part r)
    (hfields : ∀ name ∈ names, name ∈ shape.fields) (hnodup : names.Nodup)
    (hfresh : ∀ name ∈ names, name ∉ seen) :
    ∃ seen', shape.readEntries r (part names) seen (Doc.ofFields (Fields.select names value?)) =
      .ok (part [], seen') := by
  induction names generalizing seen with
  | nil => exact ⟨seen, rfl⟩
  | cons name names ih =>
    rw [List.nodup_cons] at hnodup
    rw [List.forall_mem_cons] at hfields hfresh
    rw [Fields.select_cons]
    cases hvalue : value? name with
    | none =>
      rw [h.skip hfields.1 hnodup.1 hvalue]
      exact ih hfields.2 hnodup.2 hfresh.2
    | some v =>
      have hrest : ∀ other ∈ names, other ∉ name :: seen := by
        intro other hother hmem
        rcases List.mem_cons.1 hmem with rfl | hmem
        · exact hnodup.1 hother
        · exact hfresh.2 other hother hmem
      obtain ⟨seen', hothers⟩ := ih hfields.2 hnodup.2 hrest
      refine ⟨seen', ?_⟩
      rw [Option.map_some, Option.toList_some, List.singleton_append, readEntries_ofFields,
        if_pos hfields.1, if_neg hfresh.1, h.put hfields.1 hnodup.1 hvalue]
      exact hothers

theorem Parts.read {depth : Nat} (hdepth : r.depth = depth + 1)
    (h : shape.Parts value? part { r with depth, home := default })
    (hstart : part names = shape.start)
    (hoptional : ∀ name ∈ shape.fields, shape.optional name = true)
    (hfields : ∀ name ∈ names, name ∈ shape.fields) (hnodup : names.Nodup) :
    shape.read r (.ofJson (.object (Fields.select names value?))) = .ok (part []) := by
  obtain ⟨format, anchors, _, trail, home⟩ := r
  cases hdepth
  obtain ⟨seen, hread⟩ := h.readEntries hfields hnodup (fun _ _ => List.not_mem_nil)
  have hmissing : shape.missing? seen = none := by
    rw [missing?, List.find?_eq_none]
    intro name hname
    simp [hoptional name hname]
  rw [hstart] at hread
  change (shape.readEntries ⟨format, anchors, depth, trail, default⟩ shape.start []
    (Doc.ofFields (Fields.select names value?)) >>= _) = _
  rw [hread]
  simp [bind, Except.bind, Reading.finish, hmissing]

end Shape

end Document

end DataPipeline

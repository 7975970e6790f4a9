import DataPipeline.Proofs.Document.Values
import Mathlib.Data.List.Perm.Basic

namespace DataPipeline

namespace Fields

variable {fields fields' defaults supplied : Fields} {key k : String} {v : Json}

theorem get?_insert :
    (insert key v fields).get? k = if k = key then some v else fields.get? k := by
  induction fields with
  | nil =>
    by_cases hk : k = key
    · simp [insert, get?, hk]
    · simp [insert, get?, hk, Ne.symm hk]
  | cons f rest ih =>
    obtain ⟨first, w⟩ := f
    rw [insert]
    by_cases hk : k = key
    · subst hk
      rw [if_pos rfl] at ih ⊢
      split
      · simp [get?]
      · split
        · simp [get?]
        next hne =>
          rw [← ih]
          simp [get?, Ne.symm hne]
    · rw [if_neg hk] at ih ⊢
      split
      · simp [get?, Ne.symm hk]
      · split
        next heq => simp [get?, Ne.symm hk, ← heq]
        · by_cases hfirst : first = k
          · simp [get?, hfirst]
          · have hrest := ih
            simp only [get?] at hrest
            simp [get?, hfirst, hrest]

theorem isSome_get?_merge (supplied : Fields) (h : (defaults.get? k).isSome) :
    ((merge defaults supplied).get? k).isSome := by
  induction supplied generalizing defaults with
  | nil => exact h
  | cons f supplied ih =>
    apply ih
    rw [get?_insert]
    split
    · rfl
    · exact h

theorem get?_merge (h : (supplied.map (·.1)).Nodup) :
    (merge defaults supplied).get? k = (supplied.get? k).or (defaults.get? k) := by
  induction supplied generalizing defaults with
  | nil => rfl
  | cons f supplied ih =>
    rw [List.map_cons, List.nodup_cons] at h
    have hmerge : (merge (insert f.1 f.2 defaults) supplied).get? k =
        (Fields.get? supplied k).or ((insert f.1 f.2 defaults).get? k) := ih h.2
    rw [get?_insert] at hmerge
    change (merge (insert f.1 f.2 defaults) supplied).get? k = _
    rw [hmerge]
    by_cases hk : k = f.1
    · have hnone : Fields.get? supplied k = none := get?_eq_none.2 (hk ▸ h.1)
      rw [hnone, if_pos hk]
      simp [get?, hk]
    · rw [if_neg hk]
      simp [get?, Ne.symm hk]

theorem ext (h : Ascending fields) (h' : Ascending fields')
    (hget : ∀ key, fields.get? key = fields'.get? key) : fields = fields' := by
  have hperm : List.Perm fields fields' := by
    rw [List.perm_ext_iff_of_nodup (List.Nodup.of_map _ h.nodup) (List.Nodup.of_map _ h'.nodup)]
    intro f
    rw [← get?_eq_some h.nodup, ← get?_eq_some h'.nodup, hget]
  apply hperm.eq_of_pairwise _ (List.pairwise_map.1 h) (List.pairwise_map.1 h')
  intro f g _ _ hlt hgt
  exact absurd (String.lt_trans hlt hgt) (String.lt_irrefl _)

theorem merge_nil (h : Ascending supplied) : merge [] supplied = supplied := by
  have hmerged : Ascending (merge [] supplied) := Ascending.merge List.Pairwise.nil
  apply ext hmerged h
  intro key
  rw [get?_merge h.nodup]
  exact Option.or_none

theorem merge_merge (h : Ascending defaults) :
    merge defaults (merge defaults supplied) = merge defaults supplied := by
  have hmerged : Ascending (merge defaults supplied) := h.merge
  apply ext h.merge hmerged
  intro key
  rw [get?_merge hmerged.nodup]
  cases hget : (merge defaults supplied).get? key with
  | some v => rfl
  | none =>
    cases hdefault : defaults.get? key with
    | none => rfl
    | some v =>
      have hkept := isSome_get?_merge supplied (Option.isSome_of_eq_some hdefault)
      rw [hget] at hkept
      cases hkept

end Fields

namespace Json

mutual

/-- A value as a JSON map holds it. -/
def proper : Json → Bool
  | .number (.int n) => Number.fits n
  | .number (.double x) => x.isFinite
  | .array items => properItems items
  | .object fields => decide (Fields.Ascending fields) && properFields fields
  | .null | .bool _ | .string _ => true

def properItems : List Json → Bool
  | [] => true
  | v :: rest => v.proper && properItems rest

def properFields : List (String × Json) → Bool
  | [] => true
  | (_, v) :: rest => v.proper && properFields rest

end

variable {fields defaults supplied : Fields} {key : String} {v : Json}

theorem proper_object :
    (object fields).proper = true ↔ fields.Ascending ∧ properFields fields = true := by
  rw [proper, Bool.and_eq_true, decide_eq_true_iff]

theorem properFields_insert (hv : v.proper = true) (h : properFields fields = true) :
    properFields (Fields.insert key v fields) = true := by
  induction fields with
  | nil => simp [Fields.insert, properFields, hv]
  | cons f fields ih =>
    obtain ⟨k, w⟩ := f
    rw [properFields, Bool.and_eq_true] at h
    rw [Fields.insert]
    split
    · simp [properFields, hv, h]
    · split <;> simp [properFields, hv, h, ih h.2]

theorem properFields_merge (hd : properFields defaults = true)
    (hs : properFields supplied = true) :
    properFields (Fields.merge defaults supplied) = true := by
  induction supplied generalizing defaults with
  | nil => exact hd
  | cons f supplied ih =>
    rw [properFields, Bool.and_eq_true] at hs
    exact ih (properFields_insert hs.1 hd) hs.2

theorem proper_merge (hd : (object defaults).proper = true)
    (hs : (object supplied).proper = true) :
    (object (Fields.merge defaults supplied)).proper = true := by
  rw [proper_object] at hd hs ⊢
  exact ⟨hd.1.merge, properFields_merge hd.2 hs.2⟩

end Json

namespace Document

variable {r : Reading} {v : Json} {depth : Nat}

section Read

theorem refuse_ne_ok {α : Type} {expected : String} {d : Doc} {a : α} :
    r.refuse expected d ≠ .ok a := by
  intro h
  cases d with
  | scalar s span =>
    obtain ⟨_, _, h⟩ := except_bind_ok.1 h
    cases h
  | _ => cases h

theorem proper_of_scalarJson {s : Scalar} {span : Span} (h : r.scalarJson s span = .ok v) :
    v.proper = true := by
  obtain ⟨found, _, h⟩ := except_bind_ok.1 h
  split at h
  · cases h
    rfl
  · cases h
    rfl
  · cases h
    rfl
  next n _ =>
    cases hn : Number.fits n with
    | true =>
      rw [hn] at h
      cases h
      exact hn
    | false =>
      rw [hn] at h
      cases h
  next x _ _ =>
    cases hx : x.isFinite with
    | true =>
      rw [hx] at h
      cases h
      exact hx
    | false =>
      rw [hx] at h
      cases h
      rfl
  · cases h
    rfl
  · cases h

theorem proper_of_readItems {read : Reading → Doc → Read Json} {n : Nat} {items : List Doc}
    {vs : List Json} (hread : ∀ {r d v}, read r d = .ok v → v.proper = true)
    (h : Reading.readItems read r n items = .ok vs) : Json.properItems vs = true := by
  induction items generalizing n vs with
  | nil =>
    cases h
    rfl
  | cons d items ih =>
    obtain ⟨v, hv, h⟩ := except_bind_ok.1 h
    obtain ⟨others, hothers, h⟩ := except_bind_ok.1 h
    cases h
    rw [Json.properItems, hread hv, ih hothers]
    rfl

theorem proper_of_readFields {read : Reading → Doc → Read Json} {expected : String}
    {acc fields : Fields} {entries : List Entry}
    (hread : ∀ {r d v}, read r d = .ok v → v.proper = true)
    (hacc : (Json.object acc).proper = true)
    (h : Reading.readFields read r expected acc entries = .ok fields) :
    (Json.object fields).proper = true := by
  induction entries generalizing expected acc with
  | nil =>
    cases h
    exact hacc
  | cons e entries ih =>
    obtain ⟨key, mark, value⟩ := e
    obtain ⟨name, _, h⟩ := except_bind_ok.1 h
    obtain ⟨v, hv, h⟩ := except_bind_ok.1 h
    rw [Json.proper_object] at hacc
    apply ih _ h
    rw [Json.proper_object]
    exact ⟨hacc.1.insert, Json.properFields_insert (hread hv) hacc.2⟩

/-- Whatever value is read is proper. -/
theorem proper_of_readJsonWithin {d : Doc} (h : Reading.readJsonWithin depth r d = .ok v) :
    v.proper = true := by
  induction depth generalizing r d v with
  | zero =>
    rw [Reading.readJsonWithin] at h
    split at h
    · split at h
      · cases h
      · exact proper_of_scalarJson h
    · split at h <;> cases h
    · split at h <;> cases h
    · exact absurd h refuse_ne_ok
  | succ depth ih =>
    rw [Reading.readJsonWithin] at h
    split at h
    · split at h
      · cases h
      · exact proper_of_scalarJson h
    · split at h
      · cases h
      · obtain ⟨vs, hvs, h⟩ := except_bind_ok.1 h
        obtain ⟨_, _, h⟩ := except_bind_ok.1 h
        cases h
        exact proper_of_readItems ih hvs
    · split at h
      · cases h
      · obtain ⟨fields, hfields, h⟩ := except_bind_ok.1 h
        obtain ⟨_, _, h⟩ := except_bind_ok.1 h
        cases h
        exact proper_of_readFields ih rfl hfields
    · exact absurd h refuse_ne_ok

theorem proper_of_readMap {d : Doc} {fields : Fields} (h : r.readMap d = .ok fields) :
    (Json.object fields).proper = true := by
  unfold Reading.readMap at h
  split at h
  · obtain ⟨inner, _, h⟩ := except_bind_ok.1 h
    obtain ⟨read, hread, h⟩ := except_bind_ok.1 h
    obtain ⟨_, _, h⟩ := except_bind_ok.1 h
    cases h
    exact proper_of_readFields (fun h => proper_of_readJsonWithin h) rfl hread
  · split at h
    · cases h
      rfl
    · exact absurd h refuse_ne_ok
  · exact absurd h refuse_ne_ok

/-- What holds of a document and of every document that is read for a part of it. -/
structure Hereditary (D : Doc → Prop) : Prop where
  items : ∀ {items ending custom span}, D (.sequence items ending custom span) →
    ∀ d ∈ items, D d
  values : ∀ {entries ending custom span}, D (.mapping entries ending custom span) →
    ∀ {key place value}, .mk key place value ∈ entries → D value
  target : ∀ {anchor d}, D (.alias anchor) → D d

theorem Hereditary.always : Hereditary fun _ => True where
  items _ _ _ := trivial
  values _ _ _ _ _ := trivial
  target _ := trivial

theorem Hereditary.of_target {D : Doc → Prop} (hD : Hereditary D) :
    ∀ {d : Doc}, D d → D (r.target d).2
  | .alias _, hd => hD.target hd
  | .scalar .., hd | .sequence .., hd | .mapping .., hd | .broken .., hd => hd

section Parts

variable {α : Type} {read : Reading → Doc → Read α} {D : Doc → Prop} {d : Doc} {a : α}

theorem some_map_ok {x : Read α} (h : some <$> x = .ok (some a)) : x = .ok a := by
  cases x with
  | ok b =>
    cases h
    rfl
  | error e => cases h

theorem of_readOption (hD : Hereditary D) (hd : D d)
    (h : Reading.readOption read r d = .ok (some a)) :
    ∃ r d, D d ∧ read r d = .ok a := by
  have htarget := hD.of_target (r := r) hd
  unfold Reading.readOption at h
  split at h
  next heq =>
    rw [heq] at htarget
    obtain ⟨absent, _, h⟩ := except_bind_ok.1 h
    cases absent with
    | true => cases h
    | false => exact ⟨_, _, htarget, some_map_ok h⟩
  next heq =>
    rw [heq] at htarget
    exact ⟨_, _, htarget, some_map_ok h⟩

theorem of_readItems {n : Nat} {items : List Doc} {as : List α}
    (h : Reading.readItems read r n items = .ok as) :
    ∀ a ∈ as, ∃ r, ∃ d ∈ items, read r d = .ok a := by
  induction items generalizing n as with
  | nil =>
    cases h
    nofun
  | cons d items ih =>
    obtain ⟨first, hfirst, h⟩ := except_bind_ok.1 h
    obtain ⟨others, hothers, h⟩ := except_bind_ok.1 h
    cases h
    intro a ha
    rcases List.mem_cons.1 ha with rfl | ha
    · exact ⟨_, d, List.mem_cons_self, hfirst⟩
    · obtain ⟨r, d', hd', hread⟩ := ih hothers a ha
      exact ⟨r, d', List.mem_cons_of_mem _ hd', hread⟩

theorem of_readList {as : List α} (hD : Hereditary D) (hd : D d)
    (h : r.readList read d = .ok as) :
    ∀ a ∈ as, ∃ r d, D d ∧ read r d = .ok a := by
  have htarget := hD.of_target (r := r) hd
  unfold Reading.readList at h
  split at h
  next heq =>
    rw [heq] at htarget
    obtain ⟨inner, _, h⟩ := except_bind_ok.1 h
    obtain ⟨read', hread', h⟩ := except_bind_ok.1 h
    obtain ⟨_, _, h⟩ := except_bind_ok.1 h
    cases h
    intro a ha
    obtain ⟨r, d, hd, hread⟩ := of_readItems hread' a ha
    exact ⟨r, d, hD.items htarget d hd, hread⟩
  · split at h
    · cases h
      nofun
    · exact absurd h refuse_ne_ok
  · exact absurd h refuse_ne_ok

end Parts

namespace Shape

variable {α : Type} {shape : Shape α} {P : α → Prop} {D : Doc → Prop}

section Invariant

variable (hput : ∀ {a a' name r d}, D d → P a → shape.put a name r d = .ok a' → P a')
include hput

theorem readEntries_invariant {a a' : α} {seen seen' : List String} {entries : List Entry}
    (hentries : ∀ {key place value}, .mk key place value ∈ entries → D value) (ha : P a)
    (h : shape.readEntries r a seen entries = .ok (a', seen')) : P a' := by
  induction entries generalizing a seen with
  | nil =>
    cases h
    exact ha
  | cons e entries ih =>
    obtain ⟨key, place, value⟩ := e
    have hothers {key place value} (hmem : .mk key place value ∈ entries) : D value :=
      hentries (List.mem_cons_of_mem _ hmem)
    obtain ⟨name, _, h⟩ := except_bind_ok.1 h
    dsimp only at h
    split at h
    · split at h
      · cases h
      · obtain ⟨b, hb, h⟩ := except_bind_ok.1 h
        exact ih hothers (hput (hentries List.mem_cons_self) ha hb) h
    · obtain ⟨_, _, h⟩ := except_bind_ok.1 h
      exact ih hothers ha h

theorem readPositions_invariant {a a' : α} {names : List String} {items rest : List Doc}
    {ending : Ending} {stop : Mark} (hitems : ∀ d ∈ items, D d) (ha : P a)
    (h : shape.readPositions r ending stop a names items = .ok (a', rest)) : P a' := by
  induction names generalizing a items with
  | nil =>
    rw [readPositions] at h
    cases h
    exact ha
  | cons name names ih =>
    cases items with
    | nil =>
      rw [readPositions] at h
      obtain ⟨_, _, h⟩ := except_bind_ok.1 h
      split at h
      · exact ih hitems ha h
      · cases h
    | cons d items =>
      rw [readPositions] at h
      obtain ⟨b, hb, h⟩ := except_bind_ok.1 h
      rw [List.forall_mem_cons] at hitems
      exact ih hitems.2 (hput hitems.1 ha hb) h

/-- What every field keeps holds of whatever is read. -/
theorem read_invariant {a : α} {d : Doc} (hD : Hereditary D) (hd : D d) (hstart : P shape.start)
    (h : shape.read r d = .ok a) : P a := by
  have htarget := hD.of_target (r := r) hd
  unfold read at h
  split at h
  next heq =>
    rw [heq] at htarget
    obtain ⟨inner, _, h⟩ := except_bind_ok.1 h
    obtain ⟨⟨b, seen⟩, hread, h⟩ := except_bind_ok.1 h
    obtain ⟨_, _, h⟩ := except_bind_ok.1 h
    split at h
    · cases h
    · cases h
      exact readEntries_invariant hput (hD.values htarget) hstart hread
  next heq =>
    rw [heq] at htarget
    split at h
    · exact absurd h refuse_ne_ok
    · obtain ⟨inner, _, h⟩ := except_bind_ok.1 h
      obtain ⟨⟨b, rest⟩, hread, h⟩ := except_bind_ok.1 h
      obtain ⟨_, _, h⟩ := except_bind_ok.1 h
      cases h
      exact readPositions_invariant hput (hD.items htarget) hstart hread
  · split at h
    · split at h
      · cases h
      · cases h
        exact hstart
    · exact absurd h refuse_ne_ok
  · exact absurd h refuse_ne_ok

end Invariant

end Shape

end Read

mutual

/-- A proper value that is not too deep is read as itself. -/
theorem readJsonWithin_of_proper : ∀ (v : Json) {depth : Nat} {r : Reading}, v.depth ≤ depth →
    v.proper = true → Reading.readJsonWithin depth r (.ofJson v) = .ok v
  | .null, depth, r, _, _ | .bool _, depth, r, _, _ | .string _, depth, r, _, _ => by
    rw [Reading.readJsonWithin]
    rfl
  | .number (.int n), depth, r, _, h => by
    rw [Reading.readJsonWithin]
    change (if Number.fits n then Except.ok (Json.number (.int n))
      else r.fail .numberTooWide default) = _
    exact if_pos h
  | .number (.double x), depth, r, _, h => by
    rw [Reading.readJsonWithin]
    change Except.ok (if x.isFinite then Json.number (.double x) else .null) = _
    exact congrArg Except.ok (if_pos h)
  | .array items, 0, r, h, _ => nomatch h
  | .array items, depth + 1, r, h, hproper => by
    have hitems :=
      readItems_of_proper items (r := r) (n := 0) (Nat.le_of_succ_le_succ h) hproper
    rw [Reading.readJsonWithin]
    simp only [Doc.ofJson, Reading.target, Bool.false_eq_true, ↓reduceIte, hitems]
    rfl
  | .object fields, 0, r, h, _ => nomatch h
  | .object fields, depth + 1, r, h, hproper => by
    obtain ⟨hascending, hvalues⟩ := Json.proper_object.1 hproper
    have hfields := readFields_of_proper fields (r := r) "a string key" []
      (Nat.le_of_succ_le_succ h) hvalues
    rw [Fields.merge_nil hascending] at hfields
    rw [Reading.readJsonWithin]
    simp only [Doc.ofJson, Reading.target, Bool.false_eq_true, ↓reduceIte, hfields]
    rfl

theorem readItems_of_proper : ∀ (items : List Json) {depth : Nat} {r : Reading} {n : Nat},
    Json.depthItems items ≤ depth → Json.properItems items = true →
    Reading.readItems (Reading.readJsonWithin depth) r n (Doc.ofItems items) = .ok items
  | [], depth, r, n, _, _ => rfl
  | v :: rest, depth, r, n, h, hproper => by
    obtain ⟨hv, hrest⟩ := Nat.max_le.1 h
    obtain ⟨hproperv, hproperrest⟩ := Bool.and_eq_true_iff.1 hproper
    rw [Doc.ofItems, Reading.readItems, readJsonWithin_of_proper v hv hproperv,
      readItems_of_proper rest hrest hproperrest]
    rfl

theorem readFields_of_proper : ∀ (fields : List (String × Json)) {depth : Nat} {r : Reading}
    (expected : String) (acc : Fields), Json.depthFields fields ≤ depth →
    Json.properFields fields = true →
    Reading.readFields (Reading.readJsonWithin depth) r expected acc (Doc.ofFields fields) =
      .ok (Fields.merge acc fields)
  | [], depth, r, _, _, _, _ => rfl
  | (key, v) :: rest, depth, r, expected, acc, h, hproper => by
    obtain ⟨hv, hrest⟩ := Nat.max_le.1 h
    obtain ⟨hproperv, hproperrest⟩ := Bool.and_eq_true_iff.1 hproper
    have hread : Reading.readJsonWithin depth (r.step (.key key)) (.ofJson v) = .ok v :=
      readJsonWithin_of_proper v hv hproperv
    have hothers :=
      readFields_of_proper rest (r := r) "a string" (Fields.insert key v acc) hrest
        hproperrest
    rw [Doc.ofFields, Reading.readFields, readText_string]
    change (Reading.readJsonWithin depth (r.step (.key key)) (.ofJson v) >>= fun v =>
      Reading.readFields (Reading.readJsonWithin depth) r "a string" (Fields.insert key v acc)
        (Doc.ofFields rest)) = _
    rw [hread]
    exact hothers

end

theorem readFields_readJson {entries : List Entry} {expected : String} {acc : Fields} :
    Reading.readFields Reading.readJson r expected acc entries =
      Reading.readFields (Reading.readJsonWithin r.depth) r expected acc entries := by
  induction entries generalizing expected acc with
  | nil => rfl
  | cons e entries ih =>
    obtain ⟨key, mark, value⟩ := e
    rw [Reading.readFields, Reading.readFields]
    simp only [ih]
    rfl

theorem readMap_of_proper {fields : Fields} (hdepth : Json.depthFields fields < r.depth)
    (h : (Json.object fields).proper = true) :
    r.readMap (.ofJson (.object fields)) = .ok fields := by
  obtain ⟨format, anchors, depth, trail, home⟩ := r
  cases depth with
  | zero => cases hdepth
  | succ depth =>
    obtain ⟨hascending, hvalues⟩ := Json.proper_object.1 h
    let inner : Reading := ⟨format, anchors, depth, trail, default⟩
    have hfields := readFields_of_proper fields (r := inner) "a string" []
      (Nat.le_of_lt_succ hdepth) hvalues
    rw [Fields.merge_nil hascending] at hfields
    change (Reading.readFields Reading.readJson inner "a string" [] (Doc.ofFields fields) >>=
      fun fields => Except.ok fields) = _
    rw [readFields_readJson, hfields]
    rfl

end Document

end DataPipeline

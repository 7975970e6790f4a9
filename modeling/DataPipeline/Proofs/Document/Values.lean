import DataPipeline.Plugin.Config
import DataPipeline.Proofs.Schema.Structure
import Mathlib.Data.List.Nodup

namespace DataPipeline

namespace Fields

variable {fields : Fields} {key : String} {v : Json} {f : String × Json}

/-- The keys of an object stand in ascending order. -/
def Ascending (fields : Fields) : Prop := (fields.map (·.1)).Pairwise (· < ·)

instance : Decidable fields.Ascending :=
  inferInstanceAs (Decidable ((fields.map (·.1)).Pairwise (· < ·)))

theorem ascending_cons :
    Ascending (f :: fields) ↔ (∀ g ∈ fields, f.1 < g.1) ∧ Ascending fields := by
  rw [Ascending, List.map_cons, List.pairwise_cons, List.forall_mem_map, Ascending]

theorem Ascending.nodup (h : Ascending fields) : (fields.map (·.1)).Nodup := by
  apply List.Pairwise.imp _ h
  rintro k _ hlt rfl
  exact String.lt_irrefl k hlt

theorem mem_insert (h : f ∈ insert key v fields) : f.1 = key ∨ f ∈ fields := by
  induction fields with
  | nil =>
    cases List.mem_singleton.1 h
    exact .inl rfl
  | cons first rest ih =>
    rw [insert] at h
    split at h
    · rcases List.mem_cons.1 h with rfl | h
      · exact .inl rfl
      · exact .inr h
    · split at h
      · rcases List.mem_cons.1 h with rfl | h
        · exact .inl rfl
        · exact .inr (List.mem_cons_of_mem _ h)
      · rcases List.mem_cons.1 h with rfl | h
        · exact .inr List.mem_cons_self
        · exact (ih h).imp_right (List.mem_cons_of_mem _)

theorem Ascending.insert (h : Ascending fields) : Ascending (insert key v fields) := by
  induction fields with
  | nil => exact List.pairwise_singleton _ _
  | cons first rest ih =>
    have hfirst := ascending_cons.1 h
    rw [Fields.insert]
    split
    next hlt =>
      rw [ascending_cons]
      refine ⟨fun f hf => ?_, h⟩
      rcases List.mem_cons.1 hf with rfl | hf
      · exact hlt
      · exact String.lt_trans hlt (hfirst.1 f hf)
    next hlt =>
      split
      next heq =>
        subst heq
        exact ascending_cons.2 hfirst
      next hne =>
        rw [ascending_cons]
        refine ⟨fun f hf => ?_, ih hfirst.2⟩
        rcases mem_insert hf with rfl | hf
        · by_contra hnot
          exact hne (String.le_antisymm (String.not_lt.1 hnot) (String.not_lt.1 hlt))
        · exact hfirst.1 f hf

theorem Ascending.merge {supplied : Fields} (h : Ascending fields) :
    Ascending (merge fields supplied) := by
  induction supplied generalizing fields with
  | nil => exact h
  | cons f supplied ih => exact ih h.insert

theorem get?_eq_some (h : (fields.map (·.1)).Nodup) :
    fields.get? key = some v ↔ (key, v) ∈ fields := by
  constructor
  · intro hget
    obtain ⟨f, hf, rfl⟩ := Option.map_eq_some_iff.1 hget
    have hkey : f.1 = key := by simpa using List.find?_some hf
    subst hkey
    exact List.mem_of_find?_eq_some hf
  · intro hmem
    cases hfind : fields.find? (·.1 = key) with
    | none =>
      have hne := List.find?_eq_none.1 hfind (key, v) hmem
      simp at hne
    | some f =>
      have hkey : f.1 = key := by simpa using List.find?_some hfind
      have hsame := List.inj_on_of_nodup_map h (List.mem_of_find?_eq_some hfind) hmem hkey
      rw [get?, hfind, hsame]
      rfl

theorem get?_eq_none : fields.get? key = none ↔ key ∉ fields.map (·.1) := by
  rw [get?, Option.map_eq_none_iff, List.find?_eq_none, List.mem_map]
  constructor
  · rintro h ⟨f, hf, rfl⟩
    simpa using h f hf
  · intro h f hf hkey
    exact h ⟨f, hf, by simpa using hkey⟩

end Fields

namespace Json

mutual

/-- All whole numbers of a value are of 64 bits, as those of every value that is read from a
text. -/
def fits : Json → Bool
  | .number (.int n) => Number.fits n
  | .array items => fitsItems items
  | .object fields => fitsFields fields
  | .null | .bool _ | .number (.double _) | .string _ => true

def fitsItems : List Json → Bool
  | [] => true
  | v :: rest => v.fits && fitsItems rest

def fitsFields : List (String × Json) → Bool
  | [] => true
  | (_, v) :: rest => v.fits && fitsFields rest

end

end Json

namespace Document

mutual

theorem skipped_ofJson : ∀ v : Json, (Doc.ofJson v).skipped = none
  | .null | .bool _ | .number (.int _) | .number (.double _) | .string _ => rfl
  | .array items => by
    rw [Doc.ofJson, Doc.skipped, skipped_ofItems items]
    rfl
  | .object fields => by
    rw [Doc.ofJson, Doc.skipped, skipped_ofFields fields]
    rfl

theorem skipped_ofItems : ∀ items : List Json, Doc.skippedItems (Doc.ofItems items) = none
  | [] => rfl
  | v :: rest => by
    rw [Doc.ofItems, Doc.skippedItems, skipped_ofJson v, skipped_ofItems rest]
    rfl

theorem skipped_ofFields : ∀ fields : List (String × Json),
    Doc.skippedEntries (Doc.ofFields fields) = none
  | [] => rfl
  | (key, v) :: rest => by
    rw [Doc.ofFields, Doc.skippedEntries, skipped_ofJson v, skipped_ofFields rest]
    rfl

end

theorem exists_ok_bind {α β ε : Type} {x : Except ε α} {f : α → Except ε β} :
    (∃ b, (x >>= f) = .ok b) ↔ ∃ a, x = .ok a ∧ ∃ b, f a = .ok b := by
  cases x <;> simp [bind, Except.bind]

variable {r : Reading} {v : Json}

theorem readText_string (r : Reading) (expected s : String) (span : Span) :
    Reading.readText expected r (.scalar (.typed (.string s)) span) = .ok s := rfl

theorem readText_ofJson {expected s : String} :
    Reading.readText expected r (.ofJson v) = .ok s ↔ v = .string s := by
  constructor
  · intro h
    cases v with
    | null => cases h
    | bool => cases h
    | number n => cases n <;> cases h
    | string t =>
      cases h
      rfl
    | array => cases h
    | object => cases h
  · rintro rfl
    rfl

theorem readNat_ofJson {limit n : Nat} {expected : String} :
    Reading.readNat limit expected r (.ofJson v) = .ok n ↔ v = .nat n ∧ n < limit := by
  constructor
  · intro h
    cases v with
    | null => cases h
    | bool => cases h
    | number m =>
      cases m with
      | double => cases h
      | int m =>
        change (if 0 ≤ m ∧ m < limit then Except.ok m.toNat
          else r.fail (.wrongValue (.int m) expected) default) = .ok n at h
        split at h
        next hm =>
          cases h
          have hcast := Int.toNat_of_nonneg hm.1
          refine ⟨by rw [Json.nat, hcast], ?_⟩
          omega
        · cases h
    | string => cases h
    | array => cases h
    | object => cases h
  · rintro ⟨rfl, hlimit⟩
    simp [Reading.readNat, Doc.ofJson, Reading.target, Scalar.typed, Reading.located, bind,
      Except.bind, hlimit]

mutual

/-- A value that is not too deep can be read as one if its whole numbers are of 64 bits. -/
theorem readJsonWithin_ofJson : ∀ (v : Json) {depth : Nat} {r : Reading}, v.depth ≤ depth →
    ((∃ v', Reading.readJsonWithin depth r (.ofJson v) = .ok v') ↔ v.fits = true)
  | .null, depth, r, _ | .bool _, depth, r, _ | .string _, depth, r, _
  | .number (.double _), depth, r, _ => by
    rw [Reading.readJsonWithin]
    exact ⟨fun _ => rfl, fun _ => ⟨_, rfl⟩⟩
  | .number (.int n), depth, r, _ => by
    rw [Reading.readJsonWithin]
    change (∃ v', (if Number.fits n then Except.ok (Json.number (.int n))
      else r.fail .numberTooWide default) = .ok v') ↔ Number.fits n = true
    cases Number.fits n <;> simp [Reading.fail]
  | .array items, 0, r, h => nomatch h
  | .array items, depth + 1, r, h => by
    rw [Json.fits, ← readItems_ofItems items (r := r) (n := 0) (Nat.le_of_succ_le_succ h),
      Reading.readJsonWithin]
    simp only [Doc.ofJson, Reading.target, Bool.false_eq_true, ↓reduceIte, Reading.finish,
      exists_ok_bind]
    simp
  | .object fields, 0, r, h => nomatch h
  | .object fields, depth + 1, r, h => by
    rw [Json.fits, ← readFields_ofFields fields (r := r) "a string key" []
      (Nat.le_of_succ_le_succ h), Reading.readJsonWithin]
    simp only [Doc.ofJson, Reading.target, Bool.false_eq_true, ↓reduceIte, Reading.finish,
      exists_ok_bind]
    simp

theorem readItems_ofItems : ∀ (items : List Json) {depth : Nat} {r : Reading} {n : Nat},
    Json.depthItems items ≤ depth →
    ((∃ vs, Reading.readItems (Reading.readJsonWithin depth) r n (Doc.ofItems items) = .ok vs) ↔
      Json.fitsItems items = true)
  | [], depth, r, n, _ => ⟨fun _ => rfl, fun _ => ⟨_, rfl⟩⟩
  | v :: rest, depth, r, n, h => by
    obtain ⟨hv, hrest⟩ := Nat.max_le.1 h
    rw [Json.fitsItems, Bool.and_eq_true, ← readJsonWithin_ofJson v (r := r.step (.index n)) hv,
      ← readItems_ofItems rest (r := r) (n := n + 1) hrest, Doc.ofItems, Reading.readItems]
    simp only [exists_ok_bind]
    simp

theorem readFields_ofFields : ∀ (fields : List (String × Json)) {depth : Nat} {r : Reading}
    (expected : String) (acc : Fields), Json.depthFields fields ≤ depth →
    ((∃ fs, Reading.readFields (Reading.readJsonWithin depth) r expected acc
      (Doc.ofFields fields) = .ok fs) ↔ Json.fitsFields fields = true)
  | [], depth, r, _, _, _ => ⟨fun _ => rfl, fun _ => ⟨_, rfl⟩⟩
  | (key, v) :: rest, depth, r, expected, acc, h => by
    obtain ⟨hv, hrest⟩ := Nat.max_le.1 h
    rw [Json.fitsFields, Bool.and_eq_true, Doc.ofFields, Reading.readFields, readText_string]
    simp only [exists_ok_bind, Except.ok.injEq, exists_eq_left']
    constructor
    · rintro ⟨v', hread, hothers⟩
      exact ⟨(readJsonWithin_ofJson v hv).1 ⟨v', hread⟩,
        (readFields_ofFields rest _ _ hrest).1 hothers⟩
    · rintro ⟨hfits, hothers⟩
      obtain ⟨v', hread⟩ := (readJsonWithin_ofJson v hv).2 hfits
      exact ⟨v', hread, (readFields_ofFields rest _ _ hrest).2 hothers⟩

end

theorem readOptionText_ofJson {expected : String} {text? : Option String} :
    Reading.readOption (Reading.readText expected) r (.ofJson v) = .ok text? ↔
      v = (text?.map Json.string).getD .null := by
  constructor
  · intro h
    cases v with
    | null =>
      cases h
      rfl
    | bool => cases h
    | number n => cases n <;> cases h
    | string t =>
      cases h
      rfl
    | array => cases h
    | object => cases h
  · rintro rfl
    cases text? <;> rfl

theorem readItems_readJson {items : List Doc} {n : Nat} :
    Reading.readItems Reading.readJson r n items =
      Reading.readItems (Reading.readJsonWithin r.depth) r n items := by
  induction items generalizing n with
  | nil => rfl
  | cons d items ih =>
    rw [Reading.readItems, Reading.readItems, ih]
    rfl

theorem readList_ofItems {items : List Json} (h : Json.depthItems items + 1 < r.depth) :
    (∃ vs, r.readList Reading.readJson (.ofJson (.array items)) = .ok vs) ↔
      Json.fitsItems items = true := by
  obtain ⟨format, anchors, depth, trail, home⟩ := r
  cases depth with
  | zero => cases h
  | succ depth =>
    have hdepth : Json.depthItems items ≤ depth := by
      change Json.depthItems items + 1 < depth + 1 at h
      omega
    let inner : Reading := ⟨format, anchors, depth, trail, default⟩
    change (∃ vs, (Reading.readItems Reading.readJson inner 0 (Doc.ofItems items) >>= fun as =>
      Except.ok as) = .ok vs) ↔ _
    rw [exists_ok_bind, readItems_readJson,
      ← readItems_ofItems items (r := inner) (n := 0) hdepth]
    simp [inner]

theorem readList_ofJson (h : v.depth < r.depth) :
    (∃ vs, r.readList Reading.readJson (.ofJson v) = .ok vs) ↔
      ∃ items, v = .array items ∧ Json.fitsItems items = true := by
  constructor
  · rintro ⟨vs, hread⟩
    cases v with
    | null => cases hread
    | bool => cases hread
    | number n => cases n <;> cases hread
    | string => cases hread
    | object => cases hread
    | array items => exact ⟨items, rfl, (readList_ofItems h).1 ⟨vs, hread⟩⟩
  · rintro ⟨items, rfl, hfits⟩
    exact (readList_ofItems h).2 hfits

namespace Shape

variable {α : Type} {shape : Shape α} {config : Fields} {r : Reading} {a a' : α}
  {seen seen' : List String} {key name : String}

theorem readEntries_ofFields : shape.readEntries r a seen (Doc.ofFields ((key, v) :: config)) =
    if key ∈ shape.fields then
      if key ∈ seen then r.fail (.repeatedField key) default
      else do
        let a ← shape.put a key (r.step (.key key)) (.ofJson v)
        shape.readEntries r a (key :: seen) (Doc.ofFields config)
    else shape.readEntries r a seen (Doc.ofFields config) := by
  have hskip (inner : Reading) : inner.skip (.ofJson v) = .ok () := by
    rw [Reading.skip, skipped_ofJson]
  rw [Doc.ofFields, readEntries, readText_string]
  simp only [hskip]
  rfl

/-- What the fields of a shape can be: `Tells name v a` if `v` is what the field tells of `a`. A
field can be read if it tells something, and reading it leaves alone what the others have
told. -/
structure Law (shape : Shape α) (Tells : String → Json → α → Prop) : Prop where
  reads : ∀ {a : α} {name r v}, name ∈ shape.fields → v.depth < r.depth →
    ((∃ a', shape.put a name r (.ofJson v) = .ok a') ↔ ∃ b, Tells name v b)
  tells : ∀ {a a' : α} {name r v}, name ∈ shape.fields → v.depth < r.depth →
    shape.put a name r (.ofJson v) = .ok a' → Tells name v a'
  keeps : ∀ {a a' : α} {name other r d v}, name ∈ shape.fields → other ∈ shape.fields →
    other ≠ name → shape.put a name r d = .ok a' → Tells other v a → Tells other v a'

namespace Law

variable {Tells : String → Json → α → Prop}

theorem of_readEntries (law : shape.Law Tells) (hdepth : Json.depthFields config < r.depth)
    (h : shape.readEntries r a seen (Doc.ofFields config) = .ok (a', seen')) :
    (∀ name, name ∈ seen' ↔ name ∈ seen ∨ name ∈ shape.fields ∧ name ∈ config.map (·.1)) ∧
      (∀ f ∈ config, f.1 ∈ shape.fields → Tells f.1 f.2 a') ∧
      ∀ other v, other ∈ shape.fields → other ∈ seen → Tells other v a → Tells other v a' := by
  induction config generalizing a seen with
  | nil =>
    cases h
    exact ⟨fun name => by simp, nofun, fun _ _ _ _ htells => htells⟩
  | cons f config ih =>
    obtain ⟨key, v⟩ := f
    obtain ⟨hv, hrest⟩ := Nat.max_lt.1 hdepth
    rw [readEntries_ofFields] at h
    split at h
    next hkey =>
      split at h
      · cases h
      next hfresh =>
        obtain ⟨b, hb, h⟩ := except_bind_ok.1 h
        obtain ⟨hseen, hconfig, hkept⟩ := ih hrest h
        refine ⟨fun name => ?_, fun f hf hname => ?_, fun other w hother hmem htells => ?_⟩
        · rw [hseen name, List.mem_cons, List.map_cons, List.mem_cons]
          constructor
          · rintro ((rfl | hmem) | hmem)
            · exact .inr ⟨hkey, .inl rfl⟩
            · exact .inl hmem
            · exact .inr ⟨hmem.1, .inr hmem.2⟩
          · rintro (hmem | ⟨hname, rfl | hmem⟩)
            · exact .inl (.inr hmem)
            · exact .inl (.inl rfl)
            · exact .inr ⟨hname, hmem⟩
        · rcases List.mem_cons.1 hf with rfl | hf
          · exact hkept key v hkey List.mem_cons_self
              (law.tells hkey (r := r.step (.key key)) hv hb)
          · exact hconfig f hf hname
        · have hne : other ≠ key := fun heq => hfresh (heq ▸ hmem)
          exact hkept other w hother (List.mem_cons_of_mem _ hmem)
            (law.keeps hkey hother hne hb htells)
    next hkey =>
      obtain ⟨hseen, hconfig, hkept⟩ := ih hrest h
      refine ⟨fun name => ?_, fun f hf hname => ?_, hkept⟩
      · rw [hseen name, List.map_cons, List.mem_cons]
        constructor
        · rintro (hmem | hmem)
          · exact .inl hmem
          · exact .inr ⟨hmem.1, .inr hmem.2⟩
        · rintro (hmem | ⟨hname, rfl | hmem⟩)
          · exact .inl hmem
          · exact absurd hname hkey
          · exact .inr ⟨hname, hmem⟩
      · rcases List.mem_cons.1 hf with rfl | hf
        · exact absurd hname hkey
        · exact hconfig f hf hname

theorem readEntries_ok (law : shape.Law Tells) (a : α) (seen : List String)
    (hdepth : Json.depthFields config < r.depth)
    (hnodup : (config.map (·.1)).Nodup) (hfresh : ∀ f ∈ config, f.1 ∉ seen)
    (htells : ∀ f ∈ config, f.1 ∈ shape.fields → ∃ b, Tells f.1 f.2 b) :
    ∃ result, shape.readEntries r a seen (Doc.ofFields config) = .ok result := by
  induction config generalizing a seen with
  | nil => exact ⟨_, rfl⟩
  | cons f config ih =>
    obtain ⟨key, v⟩ := f
    obtain ⟨hv, hrest⟩ := Nat.max_lt.1 hdepth
    rw [List.map_cons, List.nodup_cons] at hnodup
    rw [List.forall_mem_cons] at htells hfresh
    rw [readEntries_ofFields]
    split
    next hkey =>
      obtain ⟨b, hb⟩ := (law.reads (a := a) (r := r.step (.key key)) hkey hv).2 (htells.1 hkey)
      rw [if_neg hfresh.1, hb]
      apply ih _ _ hrest hnodup.2 _ htells.2
      intro f hf hmem
      rcases List.mem_cons.1 hmem with heq | hmem
      · exact hnodup.1 (List.mem_map.2 ⟨f, hf, heq⟩)
      · exact hfresh.2 f hf hmem
    next => exact ih _ _ hrest hnodup.2 hfresh.2 htells.2

theorem of_ofConfig (law : shape.Law Tells) (hnodup : (config.map (·.1)).Nodup)
    (h : ofConfig shape config = .ok a) (hname : name ∈ shape.fields) :
    match config.get? name with
    | some v => Tells name v a
    | none => shape.optional name = true := by
  obtain ⟨inner, hinner, h⟩ := except_bind_ok.1 (mapError_ok.1 h)
  obtain ⟨⟨b, seen⟩, hread, h⟩ := except_bind_ok.1 h
  obtain ⟨_, _, h⟩ := except_bind_ok.1 h
  have hdepth : Json.depthFields config < inner.depth := by
    cases hinner
    exact Nat.lt_succ_self _
  obtain ⟨hseen, hconfig, _⟩ := law.of_readEntries hdepth hread
  split at h
  · cases h
  next hmissing =>
    cases h
    cases hget : config.get? name with
    | some v => exact hconfig _ ((Fields.get?_eq_some hnodup).1 hget) hname
    | none =>
      have hunseen : name ∉ seen := by
        rw [hseen]
        have hnot := Fields.get?_eq_none.1 hget
        simp only [List.not_mem_nil, false_or, not_and]
        exact fun _ => hnot
      have hoptional := List.find?_eq_none.1 hmissing name hname
      simpa [hunseen] using hoptional

/-- Settings can be read if each of their fields tells something, and if none is missing. -/
theorem ofConfig_ok (law : shape.Law Tells) (hnodup : (config.map (·.1)).Nodup)
    (h : ∀ name ∈ shape.fields,
      match config.get? name with
      | some v => ∃ b, Tells name v b
      | none => shape.optional name = true) : ∃ a, ofConfig shape config = .ok a := by
  let r : Reading :=
    { format := .value, anchors := fun _ => none, depth := Json.depthFields config + 1 }
  have htells : ∀ f ∈ config, f.1 ∈ shape.fields → ∃ b, Tells f.1 f.2 b := by
    intro f hf hname
    have hname := h f.1 hname
    rwa [(Fields.get?_eq_some hnodup).2 hf] at hname
  obtain ⟨⟨a, seen⟩, hread⟩ := law.readEntries_ok shape.start [] (r := r)
    (Nat.lt_succ_self _) hnodup (fun _ _ => List.not_mem_nil) htells
  have hmissing : shape.missing? seen = none := by
    rw [missing?, List.find?_eq_none]
    intro name hname hnot
    rw [Bool.and_eq_true, Bool.not_eq_true', Bool.not_eq_true', List.contains_eq_mem,
      decide_eq_false_iff_not,
        (law.of_readEntries (r := r) (Nat.lt_succ_self _) hread).1] at hnot
    have hname' := h name hname
    cases hget : config.get? name with
    | some v =>
      have hmem := List.mem_map_of_mem (f := (·.1)) ((Fields.get?_eq_some hnodup).1 hget)
      exact hnot.2 (.inr ⟨hname, hmem⟩)
    | none =>
      rw [hget] at hname'
      exact absurd (hname'.symm.trans hnot.1) nofun
  refine ⟨a, mapError_ok.2 ?_⟩
  change (shape.readEntries r shape.start [] (Doc.ofFields config) >>= _) = Except.ok a
  rw [hread]
  simp [bind, Except.bind, Reading.finish, hmissing]

end Law

end Shape

end Document

end DataPipeline

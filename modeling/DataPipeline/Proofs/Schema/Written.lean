import DataPipeline.Build.Basic
import DataPipeline.Check.Basic
import DataPipeline.Lock.Basic
import DataPipeline.Proofs.Document.Faithful
import DataPipeline.Proofs.Document.Fields
import DataPipeline.Proofs.Schema.Spelled

namespace DataPipeline

open Document

/-- A value that an option keeps. -/
def Json.Given (v : Json) : Prop := v.proper = true ∧ v ≠ .null

namespace PluginRef

/-- The settings of the reference are proper. -/
def Proper (p : PluginRef) : Prop := (Json.object (p.config.getD [])).proper = true

variable {p : PluginRef} {r : Reading}

theorem read_toJson (hp : p.Proper) (hdepth : p.toJson.depth ≤ r.depth) :
    read r (.ofJson p.toJson) = .ok p := by
  obtain ⟨name, _ | config⟩ := p
  · obtain ⟨format, anchors, depth, trail, home⟩ := r
    cases depth with
    | zero => cases hdepth
    | succ depth => rfl
  · have hsettings : Json.depthFields config + 1 < r.depth := by
      rw [Schema.toJson_reference, Json.depth, Json.depthFields, Json.depth] at hdepth
      omega
    exact Schema.read_reference hsettings hp

theorem readOption_toJson (hp : p.Proper) (hdepth : p.toJson.depth ≤ r.depth) :
    Reading.readOption read r (.ofJson p.toJson) = .ok (some p) :=
  readOption_of_object ⟨_, rfl⟩ (read_toJson hp hdepth)

theorem proper_toJson (hp : p.Proper) : p.toJson.proper = true := by
  obtain ⟨name, _ | config⟩ := p
  · rfl
  · have hsettings : (Json.object config).proper = true := hp
    have hascending : ["config", "name"].Pairwise (· < ·) := by decide
    rw [Schema.toJson_reference, Json.proper_object, Json.properFields, hsettings]
    exact ⟨hascending, rfl⟩

end PluginRef

namespace Schema

variable {s : Schema}

/-- A schema as it is read: only values are kept, and at every depth. -/
inductive Settled : Schema → Prop
  | node {s : Schema} (config : ∀ v, s.config = some v → v.Given)
    (stage : ∀ v, s.stage = some v → v.Given)
    (generator : ∀ p, s.generator = some p → p.Proper)
    (datajet : ∀ p, s.datajet = some p → p.Proper)
    (library : ∀ entry ∈ s.library, entry.Settled)
    (children : ∀ c ∈ s.children, c.Settled)
    (child : ∀ c, s.child = some c → c.Settled) : Settled s

section Read

variable {r : Reading} {d : Doc}

theorem given_of_read {v? : Option Json} (hd : d.Faithful)
    (h : Reading.readOption Reading.readJson r d = .ok v?) : ∀ v, v? = some v → v.Given := by
  rintro v rfl
  obtain ⟨_, _, _, hread⟩ := of_readOption Hereditary.always trivial h
  exact ⟨proper_of_readJsonWithin hread, readOption_ne_null hd h⟩

theorem proper_of_read {p? : Option PluginRef}
    (h : Reading.readOption PluginRef.read r d = .ok p?) :
    ∀ p, p? = some p → p.Proper := by
  rintro p rfl
  obtain ⟨_, _, _, hread⟩ := of_readOption Hereditary.always trivial h
  exact proper_of_reference hread

/-- What is read of a faithful document is settled. -/
theorem settled_of_readWithin {n : Nat} (hd : d.Faithful) (h : readWithin n r d = .ok s) :
    s.Settled := by
  induction n generalizing r d s with
  | zero => cases h
  | succ n ih =>
    apply Shape.read_invariant _ Doc.Faithful.hereditary hd
      (.node nofun nofun nofun nofun nofun nofun nofun) h
    intro s s' name r d hd hs hput
    cases hs with
    | node config stage generator datajet library children child =>
      unfold shape at hput
      dsimp only at hput
      -- One case for each field: what it does not read stays as it was.
      split at hput
      · obtain ⟨_, _, hput⟩ := except_bind_ok.1 hput
        cases hput
        exact .node config stage generator datajet library children child
      · obtain ⟨_, _, hput⟩ := except_bind_ok.1 hput
        cases hput
        exact .node config stage generator datajet library children child
      · obtain ⟨entries, hentries, hput⟩ := except_bind_ok.1 hput
        cases hput
        refine .node config stage generator datajet (fun entry hentry => ?_) children child
        obtain ⟨_, _, hd, hread⟩ := of_readList Doc.Faithful.hereditary hd hentries entry hentry
        exact ih hd hread
      · obtain ⟨v?, hv, hput⟩ := except_bind_ok.1 hput
        cases hput
        exact .node (given_of_read hd hv) stage generator datajet library children child
      · obtain ⟨nodes, hnodes, hput⟩ := except_bind_ok.1 hput
        cases hput
        refine .node config stage generator datajet library (fun c hc => ?_) child
        obtain ⟨_, _, hd, hread⟩ := of_readList Doc.Faithful.hereditary hd hnodes c hc
        exact ih hd hread
      · obtain ⟨c?, hc, hput⟩ := except_bind_ok.1 hput
        cases hput
        refine .node config stage generator datajet library children ?_
        rintro c rfl
        obtain ⟨_, _, hd, hread⟩ := of_readOption Doc.Faithful.hereditary hd hc
        exact ih hd hread
      · obtain ⟨p?, hp, hput⟩ := except_bind_ok.1 hput
        cases hput
        exact .node config stage (proper_of_read hp) datajet library children child
      · obtain ⟨p?, hp, hput⟩ := except_bind_ok.1 hput
        cases hput
        exact .node config stage generator (proper_of_read hp) library children child
      · obtain ⟨v?, hv, hput⟩ := except_bind_ok.1 hput
        cases hput
        exact .node config (given_of_read hd hv) generator datajet library children child

theorem settled_of_ofJson {v : Json} (hv : v.proper = true) (h : ofJson v = .ok s) :
    s.Settled :=
  settled_of_readWithin (Doc.faithful_ofJson hv) h

theorem settled_of_ofJsonText {text : String} (h : ofJsonText text = .ok s) : s.Settled := by
  obtain ⟨s', hread, h⟩ := except_bind_ok.1 h
  have hs := settled_of_readWithin (Doc.faithful_ofJsonText text) hread
  split at h
  · cases h
    exact hs
  · cases h

end Read

section Write

/-- The names of a schema's fields in the order they are written in. -/
def names : List String :=
  ["child", "children", "component", "config", "datajet", "generator", "library",
    "referenceId", "stage"]

theorem fields_perm (read : Reading → Doc → Read Schema) :
    List.Perm (shape read).fields names := by
  have hperm : List.Perm (shape (readWithin 0)).fields names := by decide
  exact hperm

/-- A list as it is written, none if it is empty. -/
def listJson : List Schema → Option Json
  | [] => none
  | s :: rest => some (.array ((s :: rest).map toJson))

/-- What a field is written as, none if it is left out. -/
def written (s : Schema) : String → Option Json
  | "component" => s.component.map .string
  | "referenceId" => s.referenceId.map .string
  | "library" => listJson s.library
  | "config" => s.config
  | "children" => listJson s.children
  | "child" => s.child.map toJson
  | "generator" => s.generator.map PluginRef.toJson
  | "datajet" => s.datajet.map PluginRef.toJson
  | "stage" => s.stage
  | _ => none

theorem toJsonList_eq (l : List Schema) : toJsonList l = l.map toJson := by
  induction l with
  | nil => rfl
  | cons s l ih => rw [toJsonList, ih, List.map_cons]

theorem toJson_eq (s : Schema) : s.toJson = .object (Fields.select names s.written) := by
  have hwritten : s.toJson = .obj (Fields.select (shape (readWithin 0)).fields s.written) := by
    obtain ⟨component, referenceId, library, config, children, child, generator,
      datajet, stage⟩ := s
    cases library <;> cases children <;> cases child <;>
      simp [toJson, toJsonList_eq, toJsonChild, Fields.select, shape, written, listJson,
        Function.comp_def]
  have hsorted : names.Pairwise (· < ·) := by decide
  rw [hwritten, Json.obj,
    Fields.ofList_eq (Fields.select_perm (fields_perm _)) (Fields.ascending_select hsorted)]

variable {name : String} {rest : List String} {v : Json} {r : Reading}
  {read : Reading → Doc → Read Schema}

theorem one_le_depth_toJson (s : Schema) : 1 ≤ s.toJson.depth := by
  rw [toJson_eq]
  exact Nat.succ_le_succ (Nat.zero_le _)

theorem depth_written (hname : name ∈ names) (h : s.written name = some v) :
    v.depth < s.toJson.depth := by
  have hmem : (name, v) ∈ Fields.select names s.written := Fields.mem_select.2 ⟨hname, h⟩
  rw [toJson_eq]
  exact Nat.lt_succ_of_le (Json.depth_le_depthFields hmem)

theorem listJson_eq_some {l : List Schema} :
    listJson l = some v → v = .array (l.map toJson) := by
  cases l with
  | nil => nofun
  | cons s l =>
    rintro ⟨⟩
    rfl

theorem listJson_eq_none {l : List Schema} : listJson l = none → l = [] := by
  cases l with
  | nil => exact fun _ => rfl
  | cons s l => nofun

/-- What has been read of a schema while the named fields are still to come. -/
def without (s : Schema) (names : List String) : Schema where
  component := if "component" ∈ names then none else s.component
  referenceId := if "referenceId" ∈ names then none else s.referenceId
  library := if "library" ∈ names then [] else s.library
  config := if "config" ∈ names then none else s.config
  children := if "children" ∈ names then [] else s.children
  child := if "child" ∈ names then none else s.child
  generator := if "generator" ∈ names then none else s.generator
  datajet := if "datajet" ∈ names then none else s.datajet
  stage := if "stage" ∈ names then none else s.stage

theorem without_nil (s : Schema) : s.without [] = s := by
  cases s
  simp [without]

theorem without_names (s : Schema) : s.without names = {} := by
  simp [without, names]

theorem without_cons_of_none (hrest : name ∉ rest) (h : s.written name = none) :
    s.without (name :: rest) = s.without rest := by
  unfold written at h
  split at h
  · simp [without, hrest, Option.map_eq_none_iff.1 h]
  · simp [without, hrest, Option.map_eq_none_iff.1 h]
  · simp [without, hrest, listJson_eq_none h]
  · simp [without, hrest, h]
  · simp [without, hrest, listJson_eq_none h]
  · simp [without, hrest, Option.map_eq_none_iff.1 h]
  · simp [without, hrest, Option.map_eq_none_iff.1 h]
  · simp [without, hrest, Option.map_eq_none_iff.1 h]
  · simp [without, hrest, h]
  · simp_all [without, eq_comm]

/-- The schemas that a schema holds. -/
def held (s : Schema) : List Schema := s.library ++ s.children ++ s.child.toList

/-- A field that is written is read into what has been read. -/
theorem put_without (hs : s.Settled) (hrest : name ∉ rest) (h : s.written name = some v)
    (hdepth : v.depth ≤ r.depth)
    (hread : ∀ s' ∈ s.held, ∀ r' : Reading, s'.toJson.depth ≤ v.depth →
      s'.toJson.depth ≤ r'.depth → read r' (.ofJson s'.toJson) = .ok s') :
    (shape read).put (s.without (name :: rest)) name r (.ofJson v) = .ok (s.without rest) := by
  have hlist {l : List Schema} (hl : l ⊆ s.held) (hv : v = .array (l.map toJson)) :
      r.readList read (.ofJson v) = .ok l := by
    subst hv
    apply readList_map hdepth
    intro s' hs' r' hr'
    have hitem := Json.depth_le_depthItems (List.mem_map_of_mem (f := toJson) hs')
    exact hread s' (hl hs') r' (Nat.le_succ_of_le hitem) hr'
  cases hs with
  | node config stage generator datajet library children child =>
    unfold written at h
    unfold shape
    dsimp only
    -- One case for each field, in the order of `written`, and the names that are no field's.
    split at h
    · obtain ⟨c, hc, rfl⟩ := Option.map_eq_some_iff.1 h
      change Except.ok _ = _
      simp [without, hrest, hc]
    · obtain ⟨c, hc, rfl⟩ := Option.map_eq_some_iff.1 h
      change Except.ok _ = _
      simp [without, hrest, hc]
    · have hlibrary : s.library ⊆ s.held := by simp [held]
      rw [hlist hlibrary (listJson_eq_some h)]
      change Except.ok _ = _
      simp [without, hrest]
    · have hgiven := config v h
      rw [readOption_of_proper hdepth hgiven.1 hgiven.2]
      change Except.ok _ = _
      simp [without, hrest, h]
    · have hchildren : s.children ⊆ s.held := by simp [held]
      rw [hlist hchildren (listJson_eq_some h)]
      change Except.ok _ = _
      simp [without, hrest]
    · obtain ⟨c, hc, rfl⟩ := Option.map_eq_some_iff.1 h
      have hheld : c ∈ s.held := by simp [held, hc]
      rw [readOption_of_object ⟨_, toJson_eq c⟩ (hread c hheld r (Nat.le_refl _) hdepth)]
      change Except.ok _ = _
      simp [without, hrest, hc]
    · obtain ⟨p, hp, rfl⟩ := Option.map_eq_some_iff.1 h
      rw [PluginRef.readOption_toJson (generator p hp) hdepth]
      change Except.ok _ = _
      simp [without, hrest, hp]
    · obtain ⟨p, hp, rfl⟩ := Option.map_eq_some_iff.1 h
      rw [PluginRef.readOption_toJson (datajet p hp) hdepth]
      change Except.ok _ = _
      simp [without, hrest, hp]
    · have hgiven := stage v h
      rw [readOption_of_proper hdepth hgiven.1 hgiven.2]
      change Except.ok _ = _
      simp [without, hrest, h]
    · cases h

/-- A settled schema is read as it was written, by a reader who may go deep enough. -/
theorem readWithin_toJson (hs : s.Settled) {n : Nat} (hn : s.toJson.depth ≤ n)
    (hr : s.toJson.depth ≤ r.depth) : readWithin n r (.ofJson s.toJson) = .ok s := by
  induction hs generalizing n r with
  | @node s config stage generator datajet library children child ihl ihc ihw =>
    have hsettled : s.Settled := .node config stage generator datajet library children child
    have hpositive := s.one_le_depth_toJson
    cases n with
    | zero => omega
    | succ n =>
      obtain ⟨depth, hdepth⟩ : ∃ depth, r.depth = depth + 1 := ⟨r.depth - 1, by omega⟩
      have hnames (name : String) : name ∈ (shape (readWithin n)).fields ↔ name ∈ names :=
        (fields_perm _).mem_iff
      have hparts : (shape (readWithin n)).Parts s.written s.without { r with
          depth, home := default } := by
        refine ⟨fun hname hrest h => ?_, fun hname hrest h => without_cons_of_none hrest h⟩
        have hless := depth_written ((hnames _).1 hname) h
        apply put_without hsettled hrest h
        · change _ ≤ depth
          omega
        intro s' hs' r' hv hr'
        have hn' : s'.toJson.depth ≤ n := by omega
        simp only [held, List.mem_append, Option.mem_toList] at hs'
        rcases hs' with (hs' | hs') | hs'
        · exact ihl s' hs' hn' hr'
        · exact ihc s' hs' hn' hr'
        · exact ihw s' hs' hn' hr'
      have hread := hparts.read hdepth s.without_names (fun _ _ => rfl)
        (fun name => (hnames name).2) (by decide)
      rw [without_nil] at hread
      rw [toJson_eq]
      exact hread

/-- What is written of a settled schema is a value that a JSON map can hold. -/
theorem proper_toJson (hs : s.Settled) : s.toJson.proper = true := by
  have hlist {l : List Schema} {v : Json} (hl : ∀ s' ∈ l, s'.toJson.proper = true)
      (hv : listJson l = some v) : v.proper = true := by
    rw [listJson_eq_some hv]
    exact Json.properItems_iff.2 (List.forall_mem_map.2 hl)
  induction hs with
  | @node s config stage generator datajet library children child ihl ihc ihw =>
    rw [toJson_eq, Json.proper_object, Json.properFields_iff]
    refine ⟨Fields.ascending_select (by decide), fun f hf => ?_⟩
    obtain ⟨name, v⟩ := f
    have h : s.written name = some v := (Fields.mem_select.1 hf).2
    change v.proper = true
    unfold written at h
    split at h
    · obtain ⟨c, _, rfl⟩ := Option.map_eq_some_iff.1 h
      rfl
    · obtain ⟨c, _, rfl⟩ := Option.map_eq_some_iff.1 h
      rfl
    · exact hlist ihl h
    · exact (config v h).1
    · exact hlist ihc h
    · obtain ⟨c, hc, rfl⟩ := Option.map_eq_some_iff.1 h
      exact ihw c hc
    · obtain ⟨p, hp, rfl⟩ := Option.map_eq_some_iff.1 h
      exact PluginRef.proper_toJson (generator p hp)
    · obtain ⟨p, hp, rfl⟩ := Option.map_eq_some_iff.1 h
      exact PluginRef.proper_toJson (datajet p hp)
    · exact (stage v h).1
    · cases h

end Write

/-- A schema that is read from a value or a text is written as a value that is read as the same
schema. So whatever is read of what is written resolves, is checked, locked and built as that
schema is, and is written as the same value. -/
theorem ofJson_toJson {s : Schema}
    (h : (∃ v, v.proper = true ∧ ofJson v = .ok s) ∨ ∃ text, ofJsonText text = .ok s) :
    s.toJson.proper = true ∧ ofJson s.toJson = .ok s ∧
      ∀ s', ofJson s.toJson = .ok s' →
        s'.toJson = s.toJson ∧ (∀ path, s'.resolve path = s.resolve path) ∧
          ∀ registry, checkSchema registry s' = checkSchema registry s ∧
            lockSchema registry s' = lockSchema registry s ∧
            ∀ context, buildPipeline registry s' context =
              buildPipeline registry s context := by
  have hs : s.Settled := by
    rcases h with ⟨v, hv, h⟩ | ⟨text, h⟩
    · exact settled_of_ofJson hv h
    · exact settled_of_ofJsonText h
  have hread : ofJson s.toJson = .ok s :=
    readWithin_toJson hs (Nat.le_add_right _ 2) (Nat.le_add_right _ 1)
  refine ⟨proper_toJson hs, hread, fun s' h' => ?_⟩
  cases hread.symm.trans h'
  exact ⟨rfl, fun _ => rfl, fun _ => ⟨rfl, rfl, fun _ => rfl⟩⟩

/-- A synchronizer by position, with nulls, an unknown key and schemas inside. -/
def positional : Json :=
  .array [.string "synchronizer", .null,
    .array [.object [("component", .string "generator"), ("config", .null),
      ("generator", .array [.string "increment", .null]), ("note", .int 1)]],
    .object [("maxConcurrency", .null)],
    .array [.array [.null, .string "a"]],
    .object [("library", .array [])]]

/-- What is read of it. -/
def ofPositional : Schema where
  component := some "synchronizer"
  library := [{ component := some "generator", generator := some ⟨"increment", none⟩ }]
  config := some (.object [("maxConcurrency", .null)])
  children := [{ referenceId := some "a" }]
  child := some {}

theorem ofJson_toJson_positional :
    (positional.proper = true ∧ ofJson positional = .ok ofPositional) ∧
      ofJson ofPositional.toJson = .ok ofPositional :=
  have hread : positional.proper = true ∧ ofJson positional = .ok ofPositional :=
    ⟨by decide, rfl⟩
  ⟨hread, (ofJson_toJson (.inl ⟨positional, hread⟩)).2.1⟩

end Schema

end DataPipeline

import DataPipeline.Proofs.Plugin.Builtin
import Mathlib.Algebra.Group.Nat.Defs

namespace DataPipeline

open Document

namespace Document.Shape.Law

variable {α : Type} {shape : Shape α}

theorem single {Tells : Json → α → Prop} {field : String} (hfields : shape.fields = [field])
    (hput : ∀ {a r v b}, shape.put a field r (.ofJson v) = .ok b ↔ Tells v b) :
    shape.Law fun _ => Tells where
  reads hname _ := by
    rw [hfields, List.mem_singleton] at hname
    subst hname
    exact exists_congr fun b => hput
  tells hname _ h := by
    rw [hfields, List.mem_singleton] at hname
    subst hname
    exact hput.1 h
  keeps hname hother hne := by
    rw [hfields, List.mem_singleton] at hname hother
    exact absurd (hother.trans hname.symm) hne

variable {Tells : String → Json → α → Prop} {config : Fields} {a : α} {field : String}

theorem told (law : shape.Law Tells) (hnodup : (config.map (·.1)).Nodup)
    (h : ofConfig shape config = .ok a) (hfield : field ∈ shape.fields)
    (hrequired : shape.optional field = false) :
    ∃ v, config.get? field = some v ∧ Tells field v a := by
  have htold := law.of_ofConfig hnodup h hfield
  split at htold
  next v hv => exact ⟨v, hv, htold⟩
  next => cases hrequired.symm.trans htold

theorem given {Tells : Json → α → Prop} {v : Json} {b : α} (law : shape.Law fun _ => Tells)
    (hnodup : (config.map (·.1)).Nodup) (hfields : shape.fields = [field])
    (hget : config.get? field = some v) (htells : Tells v b) :
    ∃ a, ofConfig shape config = .ok a ∧ Tells v a := by
  have hread : ∃ a, ofConfig shape config = .ok a := by
    apply law.ofConfig_ok hnodup
    intro name hname
    rw [hfields, List.mem_singleton] at hname
    subst hname
    rw [hget]
    exact ⟨b, htells⟩
  obtain ⟨a, ha⟩ := hread
  have htold := law.of_ofConfig hnodup ha (by rw [hfields]; exact List.mem_cons_self)
  rw [hget] at htold
  exact ⟨a, ha, htold⟩

end Document.Shape.Law

theorem timesShape_law :
    timesShape.Law fun _ v times => v = .nat times ∧ times < Word.limit 32 :=
  .single rfl readNat_ofJson

theorem pathShape_law : pathShape.Law fun _ v path => v = .string path :=
  .single rfl readText_ofJson

theorem referenceShape_law : referenceShape.Law fun _ v id => v = .string id :=
  .single rfl readText_ofJson

theorem labelShape_law :
    labelShape.Law fun _ v label => v = (label.map Json.string).getD .null :=
  .single rfl readOptionText_ofJson

theorem exists_ok_map {α β ε : Type} {x : Except ε α} {f : α → β} :
    (∃ b, (x >>= fun a => .ok (f a)) = .ok b) ↔ ∃ a, x = .ok a := by
  cases x <;> simp [bind, Except.bind]

/-- What the fields of a counting generator tell of it. -/
def IncrementConfig.Tells (name : String) (v : Json) (c : IncrementConfig) : Prop :=
  match name with
  | "batchSize" => v = .nat c.batchSize ∧ c.batchSize < Word.limit 64
  | "batchCount" => v = .nat c.batchCount ∧ c.batchCount < Word.limit 64
  | _ => v = .string c.key

theorem IncrementConfig.law : IncrementConfig.shape.Law IncrementConfig.Tells where
  reads := by
    intro a name r v hname _
    simp only [shape, List.mem_cons, List.not_mem_nil, or_false] at hname
    rcases hname with rfl | rfl | rfl
    · refine exists_ok_map.trans ⟨fun ⟨size, h⟩ => ?_, fun ⟨c, h⟩ => ⟨_, readNat_ofJson.2 h⟩⟩
      exact ⟨⟨size, 0, ""⟩, readNat_ofJson.1 h⟩
    · refine exists_ok_map.trans ⟨fun ⟨count, h⟩ => ?_, fun ⟨c, h⟩ => ⟨_, readNat_ofJson.2 h⟩⟩
      exact ⟨⟨0, count, ""⟩, readNat_ofJson.1 h⟩
    · refine exists_ok_map.trans ⟨fun ⟨key, h⟩ => ?_, fun ⟨c, h⟩ => ⟨_, readText_ofJson.2 h⟩⟩
      exact ⟨⟨0, 0, key⟩, readText_ofJson.1 h⟩
  tells := by
    intro a a' name r v hname _ h
    simp only [shape, List.mem_cons, List.not_mem_nil, or_false] at hname
    rcases hname with rfl | rfl | rfl
    · obtain ⟨size, hsize, h⟩ := except_bind_ok.1 h
      cases h
      exact readNat_ofJson.1 hsize
    · obtain ⟨count, hcount, h⟩ := except_bind_ok.1 h
      cases h
      exact readNat_ofJson.1 hcount
    · obtain ⟨key, hkey, h⟩ := except_bind_ok.1 h
      cases h
      exact readText_ofJson.1 hkey
  keeps := by
    intro a a' name other r d v hname hother hne h htells
    simp only [shape, List.mem_cons, List.not_mem_nil, or_false] at hname hother
    rcases hname with rfl | rfl | rfl <;> obtain ⟨_, _, h⟩ := except_bind_ok.1 h <;> cases h <;>
      rcases hother with rfl | rfl | rfl <;> first | exact absurd rfl hne | exact htells

/-- What the fields of a generator of given records tell of it. What the records are does not
matter here. -/
def StaticConfig.Tells (name : String) (v : Json) (c : StaticConfig) : Prop :=
  match name with
  | "records" => ∃ items, v = .array items ∧ Json.fitsItems items = true
  | _ => v = .nat c.times ∧ c.times < Word.limit 64

theorem StaticConfig.law : StaticConfig.shape.Law StaticConfig.Tells where
  reads := by
    intro a name r v hname hdepth
    simp only [shape, List.mem_cons, List.not_mem_nil, or_false] at hname
    rcases hname with rfl | rfl
    · refine exists_ok_map.trans ((readList_ofJson hdepth).trans ?_)
      exact ⟨fun h => ⟨a, h⟩, fun ⟨_, h⟩ => h⟩
    · refine exists_ok_map.trans ⟨fun ⟨times, h⟩ => ?_, fun ⟨c, h⟩ => ⟨_, readNat_ofJson.2 h⟩⟩
      exact ⟨⟨[], times⟩, readNat_ofJson.1 h⟩
  tells := by
    intro a a' name r v hname hdepth h
    simp only [shape, List.mem_cons, List.not_mem_nil, or_false] at hname
    rcases hname with rfl | rfl
    · obtain ⟨records, hrecords, _⟩ := except_bind_ok.1 h
      exact (readList_ofJson hdepth).1 ⟨records, hrecords⟩
    · obtain ⟨times, htimes, h⟩ := except_bind_ok.1 h
      cases h
      exact readNat_ofJson.1 htimes
  keeps := by
    intro a a' name other r d v hname hother hne h htells
    simp only [shape, List.mem_cons, List.not_mem_nil, or_false] at hname hother
    rcases hname with rfl | rfl <;> obtain ⟨_, _, h⟩ := except_bind_ok.1 h <;> cases h <;>
      rcases hother with rfl | rfl <;> first | exact absurd rfl hne | exact htells

/-- Settings that suit the built-in plugin of a kind and name, where `Published` are the ids of
library entries that publish a generator. The numbers in records are of 64 bits, as all that are
read from a text. -/
def Configured (Published : String → Prop) (config : Fields) (kind : PluginKind)
    (name : String) :
    Prop :=
  match kind, name with
  | .generator, "increment" =>
    (∃ size, config.get? "batchSize" = some (.nat size) ∧ 1 ≤ size ∧ size < 2 ^ 64) ∧
      (∃ count, config.get? "batchCount" = some (.nat count) ∧ count < 2 ^ 64) ∧
      ∃ key, config.get? "key" = some (.string key)
  | .generator, "static" =>
    (∃ items, config.get? "records" = some (.array items) ∧ Json.fitsItems items = true) ∧
      ∃ times, config.get? "repeat" = some (.nat times) ∧ times < 2 ^ 64
  | .generator, "library" => ∃ id, config.get? "referenceId" = some (.string id) ∧ Published id
  | .datajet, "stdout" =>
    ∀ v, config.get? "label" = some v → v = .null ∨ ∃ label, v = .string label
  | .datajet, "file" =>
    ∃ path, config.get? "path" = some (.string path) ∧ path.toList.head? ≠ some '/' ∧
      ".." ∉ FilePath.split path ∧ ∃ segment ∈ FilePath.split path, segment ≠ "" ∧ segment ≠ "."
  | .wrapper, "repeat" =>
    ∃ times, config.get? "times" = some (.nat times) ∧ 1 ≤ times ∧ times < 2 ^ 32
  | .datajet, "discard" | .wrapper, "passthrough" => True
  | _, _ => False

section Factories

variable {config : Fields} (context : BuildContext) {Published : String → Prop}

theorem nat_injective {n m : Nat} (h : Json.nat n = Json.nat m) : n = m := by
  cases h
  rfl

theorem incrementFactory_accepts (hnodup : (config.map (·.1)).Nodup) :
    (∃ g, incrementFactory config context = .ok g) ↔
      Configured Published config .generator "increment" := by
  constructor
  · rintro ⟨g, h⟩
    obtain ⟨c, hc, h⟩ := except_bind_ok.1 h
    split at h
    · cases h
    next hpos =>
      obtain ⟨size, hsize, rfl, hbits⟩ :=
        IncrementConfig.law.told hnodup hc (by decide : "batchSize" ∈ _) rfl
      obtain ⟨count, hcount, rfl, hcbits⟩ :=
        IncrementConfig.law.told hnodup hc (by decide : "batchCount" ∈ _) rfl
      obtain ⟨key, hkey, rfl⟩ := IncrementConfig.law.told hnodup hc (by decide : "key" ∈ _) rfl
      exact ⟨⟨_, hsize, Nat.pos_of_ne_zero hpos, hbits⟩, ⟨_, hcount, hcbits⟩, _, hkey⟩
  · rintro ⟨⟨size, hsize, hpos, hbits⟩, ⟨count, hcount, hcbits⟩, key, hkey⟩
    have hread : ∃ c, ofConfig IncrementConfig.shape config = .ok c := by
      apply IncrementConfig.law.ofConfig_ok hnodup
      intro name hname
      simp only [IncrementConfig.shape, List.mem_cons, List.not_mem_nil, or_false] at hname
      rcases hname with rfl | rfl | rfl
      · rw [hsize]
        exact ⟨⟨size, 0, ""⟩, rfl, hbits⟩
      · rw [hcount]
        exact ⟨⟨0, count, ""⟩, rfl, hcbits⟩
      · rw [hkey]
        exact ⟨⟨0, 0, key⟩, rfl⟩
    obtain ⟨c, hc⟩ := hread
    obtain ⟨v, hv, htells⟩ :=
      IncrementConfig.law.told hnodup hc (by decide : "batchSize" ∈ _) rfl
    have hc' : size = c.batchSize :=
      nat_injective ((Option.some.inj (hsize.symm.trans hv)).trans htells.1)
    refine ⟨incrementGenerator c, ?_⟩
    rw [incrementFactory, hc]
    change (if c.batchSize = 0 then _ else _) = _
    rw [if_neg (by omega)]

theorem staticFactory_accepts (hnodup : (config.map (·.1)).Nodup) :
    (∃ g, staticFactory config context = .ok g) ↔
    Configured Published config .generator "static" := by
  refine exists_ok_map.trans ?_
  constructor
  · rintro ⟨c, hc⟩
    obtain ⟨_, hrecords, items, rfl, hfits⟩ :=
      StaticConfig.law.told hnodup hc (by decide : "records" ∈ _) rfl
    obtain ⟨_, htimes, rfl, hbits⟩ :=
      StaticConfig.law.told hnodup hc (by decide : "repeat" ∈ _) rfl
    exact ⟨⟨items, hrecords, hfits⟩, _, htimes, hbits⟩
  · rintro ⟨⟨items, hitems, hfits⟩, times, htimes, hbits⟩
    apply StaticConfig.law.ofConfig_ok hnodup
    intro name hname
    simp only [StaticConfig.shape, List.mem_cons, List.not_mem_nil, or_false] at hname
    rcases hname with rfl | rfl
    · rw [hitems]
      exact ⟨{}, items, rfl, hfits⟩
    · rw [htimes]
      exact ⟨⟨[], times⟩, rfl, hbits⟩

theorem libraryFactory_accepts (hnodup : (config.map (·.1)).Nodup)
    (hpublished : ∀ id, Published id ↔
      ∃ n g, context.library.get? id = some n ∧ n.generator? = some g) :
    (∃ g, libraryFactory config context = .ok g) ↔
      Configured Published config .generator "library" := by
  constructor
  · rintro ⟨g, h⟩
    obtain ⟨id, n, g', hid, hn, hg', _⟩ := libraryFactory_ok h
    exact ⟨id, hid, (hpublished id).2 ⟨n, g', hn, hg'⟩⟩
  · rintro ⟨id, hid, hpub⟩
    obtain ⟨n, g', hn, hg'⟩ := (hpublished id).1 hpub
    obtain ⟨id', hread, heq⟩ := referenceShape_law.given hnodup rfl hid rfl
    cases heq
    exact ⟨_, libraryFactory_ok_iff.2 ⟨id, n, g', hread, hn, hg', rfl⟩⟩

theorem stdoutFactory_accepts (hnodup : (config.map (·.1)).Nodup) :
    (∃ d, stdoutFactory config context = .ok d) ↔
    Configured Published config .datajet "stdout" := by
  refine exists_ok_map.trans ⟨fun ⟨label, h⟩ v hv => ?_, fun h => ?_⟩
  · have htold := labelShape_law.of_ofConfig hnodup h (by decide : "label" ∈ _)
    rw [hv] at htold
    subst htold
    cases label with
    | none => exact .inl rfl
    | some label => exact .inr ⟨label, rfl⟩
  · apply labelShape_law.ofConfig_ok hnodup
    intro name hname
    cases List.mem_singleton.1 hname
    cases hget : config.get? "label" with
    | none => exact rfl
    | some v =>
      rcases h v hget with rfl | ⟨label, rfl⟩
      · exact ⟨none, rfl⟩
      · exact ⟨some label, rfl⟩

/-- A path names a file below a directory if it is relative, never leads upward and has a
segment that names something. -/
theorem pathDefect_eq_none {path : String} : pathDefect path = none ↔
    path.toList.head? ≠ some '/' ∧ ".." ∉ FilePath.split path ∧
      ∃ segment ∈ FilePath.split path, segment ≠ "" ∧ segment ≠ "." := by
  have hup : ".." ∈ FilePath.segments path ↔ ".." ∈ FilePath.split path := by
    simp [FilePath.segments]
  have hsome : FilePath.segments path ≠ [] ↔
      ∃ segment ∈ FilePath.split path, segment ≠ "" ∧ segment ≠ "." := by
    simp [FilePath.segments, List.filter_eq_nil_iff]
  have habsolute : FilePath.isAbsolute path = true ↔ path.toList.head? = some '/' := beq_iff_eq
  rw [← hsome, ← hup, Ne, ← habsolute, pathDefect]
  by_cases ha : FilePath.isAbsolute path = true
  · simp [ha]
  by_cases hu : ".." ∈ FilePath.segments path
  · simp [ha, hu]
  rw [if_neg ha, if_neg (by simpa using hu)]
  cases hlast : (FilePath.segments path).getLast? with
  | none =>
    have hnil := List.getLast?_eq_none_iff.1 hlast
    simp [FilePath.fileName?, hnil]
  | some last =>
    have hmem := List.mem_of_getLast? hlast
    have hne : last ≠ ".." := fun heq => hu (heq ▸ hmem)
    have hcons : FilePath.segments path ≠ [] := List.ne_nil_of_mem hmem
    simp [FilePath.fileName?, hlast, hne, ha, hu, hcons]

theorem fileFactory_accepts (hnodup : (config.map (·.1)).Nodup) :
    (∃ d, fileFactory config context = .ok d) ↔
    Configured Published config .datajet "file" := by
  constructor
  · rintro ⟨d, h⟩
    obtain ⟨path, hpath, h⟩ := except_bind_ok.1 h
    obtain ⟨_, hget, rfl⟩ := pathShape_law.told hnodup hpath (by decide : "path" ∈ _) rfl
    split at h
    · cases h
    next hdefect => exact ⟨path, hget, pathDefect_eq_none.1 hdefect⟩
  · rintro ⟨path, hget, hdefect⟩
    obtain ⟨path', hread, heq⟩ := pathShape_law.given hnodup rfl hget rfl
    cases heq
    apply Exists.intro (fileDatajet (FilePath.join context.workspaceRoot path))
    apply except_bind_ok.2 ⟨path, hread, _⟩
    simp only [pathDefect_eq_none.2 hdefect]

theorem repeatFactory_accepts (hnodup : (config.map (·.1)).Nodup) :
    (∃ w, repeatFactory config context = .ok w) ↔
    Configured Published config .wrapper "repeat" := by
  constructor
  · rintro ⟨w, h⟩
    obtain ⟨times, htimes, h⟩ := except_bind_ok.1 h
    obtain ⟨_, hget, rfl, hbits⟩ :=
      timesShape_law.told hnodup htimes (by decide : "times" ∈ _) rfl
    split at h
    · cases h
    next hpos => exact ⟨times, hget, Nat.pos_of_ne_zero hpos, hbits⟩
  · rintro ⟨times, hget, hpos, hbits⟩
    obtain ⟨times', hread, heq, _⟩ :=
      timesShape_law.given hnodup rfl hget (b := times) ⟨rfl, hbits⟩
    cases nat_injective heq
    refine ⟨repeatWrapper times, ?_⟩
    rw [repeatFactory, hread]
    change (if times = 0 then _ else _) = _
    rw [if_neg (by omega)]

end Factories

theorem Templates.create_accepts {α : Type} {t : Templates α} {ref : PluginRef}
    {context : BuildContext} (Accepts : Fields → String → Prop)
    (h : ∀ template ∈ t.templates, ∀ supplied,
      (∃ a, template.factory (template.mergedConfig supplied) context = .ok a) ↔
        Accepts (template.mergedConfig supplied) template.name) :
    (∃ a, (t.create ref context).result = .ok a) ↔
      ∃ config, t.mergedConfig ref = .ok config ∧ Accepts config ref.name := by
  constructor
  · rintro ⟨a, ha⟩
    obtain ⟨template, hget, hfactory⟩ := create_ok.1 ha
    obtain ⟨hmem, hname⟩ := get_mem hget
    refine ⟨_, mergedConfig_ok.2 ⟨template, hget, rfl⟩, ?_⟩
    rw [← hname]
    exact (h template hmem ref.config).1 ⟨a, hfactory⟩
  · rintro ⟨config, hconfig, haccepts⟩
    obtain ⟨template, hget, rfl⟩ := mergedConfig_ok.1 hconfig
    obtain ⟨hmem, hname⟩ := get_mem hget
    rw [← hname] at haccepts
    obtain ⟨a, ha⟩ := (h template hmem ref.config).2 haccepts
    exact ⟨a, create_ok.2 ⟨template, hget, ha⟩⟩

namespace Registry

/-- A registry makes an instance of a plugin in a context. -/
def CanMake (r : Registry) (kind : PluginKind) (ref : PluginRef)
    (context : BuildContext) : Prop :=
  match kind with
  | .generator => ∃ g, (r.generators.create ref context).result = .ok g
  | .wrapper => ∃ w, (r.wrappers.create ref context).result = .ok w
  | .datajet => ∃ d, (r.datajets.create ref context).result = .ok d

variable {context : BuildContext} {Published : String → Prop}

/-- The built-in registry makes a plugin if it is registered, and if its merged settings suit
it. -/
theorem builtin_canMake (kind : PluginKind) (ref : PluginRef)
    (hpublished : ∀ id, Published id ↔
      ∃ n g, context.library.get? id = some n ∧ n.generator? = some g) :
    builtin.CanMake kind ref context ↔
      ∃ config, builtin.mergedConfig kind ref = .ok config ∧
        Configured Published config kind ref.name := by
  have hnodup {defaults : Fields} {supplied : Option Fields} (h : defaults.Ascending) :
      ((Fields.merge defaults (supplied.getD [])).map (·.1)).Nodup := h.merge.nodup
  cases kind with
  | generator =>
    apply Templates.create_accepts fun config => Configured Published config .generator
    intro template hmem supplied
    simp only [Registry.builtin, List.mem_cons, List.not_mem_nil, or_false] at hmem
    rcases hmem with rfl | rfl | rfl
    · exact incrementFactory_accepts context (hnodup (by decide))
    · exact staticFactory_accepts context (hnodup (by decide))
    · exact libraryFactory_accepts context (hnodup .nil) hpublished
  | wrapper =>
    apply Templates.create_accepts fun config => Configured Published config .wrapper
    intro template hmem supplied
    simp only [Registry.builtin, List.mem_cons, List.not_mem_nil, or_false] at hmem
    rcases hmem with rfl | rfl
    · exact ⟨fun _ => trivial, fun _ => ⟨_, rfl⟩⟩
    · exact repeatFactory_accepts context (hnodup (by decide))
  | datajet =>
    apply Templates.create_accepts fun config => Configured Published config .datajet
    intro template hmem supplied
    simp only [Registry.builtin, List.mem_cons, List.not_mem_nil, or_false] at hmem
    rcases hmem with rfl | rfl | rfl
    · exact stdoutFactory_accepts context (hnodup .nil)
    · exact fileFactory_accepts context (hnodup (by decide))
    · exact ⟨fun _ => trivial, fun _ => ⟨_, rfl⟩⟩

end Registry

end DataPipeline

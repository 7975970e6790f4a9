import DataPipeline.Proofs.Disk.Made
import DataPipeline.Proofs.Node.Reports
import DataPipeline.Proofs.Node.Tenants
import DataPipeline.Proofs.Node.Views
import DataPipeline.Proofs.Plugin.Accepted
import DataPipeline.Proofs.Run.Annotated
import DataPipeline.Proofs.Run.Interleaving

namespace DataPipeline

open Activity

/-- A built-in sink of a pipeline with a workspace: the file that it writes, if any, is named by
a path that was accepted. -/
inductive Datajet.Within (root : String) : Datajet → Prop where
  | stdout (label : Option String) : Within root (stdoutDatajet label)
  | discard : Within root discardDatajet
  | file {path : String} (h : pathDefect path = none) :
      Within root (fileDatajet (FilePath.join root path))

/-- What is done to files. -/
def Op.OnFiles : Op → Prop
  | .makeDirectories _ | .openFile _ | .append .. => True
  | .offer .. | .print _ | .note _ | .count .. => False

/-- A generator that leaves files alone. -/
structure Generator.LeavesFiles (g : Generator) : Prop where
  validate : ∀ ctx, (g.validate ctx).Only fun op => ¬op.OnFiles
  pull : ∀ ctx i, ((g.batches ctx).pull i).Only fun op => ¬op.OnFiles

theorem Generator.Silent.only {g : Generator} (h : g.Silent) (P : Op → Prop)
    (ctx : RunContext) :
    (g.validate ctx).Only P ∧ ∀ i, ((g.batches ctx).pull i).Only P := by
  obtain ⟨⟨v, hv⟩, hitems⟩ := h ctx
  refine ⟨by rw [hv]; trivial, fun i => ?_⟩
  obtain ⟨item, hitem⟩ := hitems i
  rw [hitem]
  trivial

theorem Generator.Silent.leavesFiles {g : Generator} (h : g.Silent) : g.LeavesFiles where
  validate ctx := (h.only _ ctx).1
  pull ctx := (h.only _ ctx).2

namespace Build

variable {registry : Registry} {s : Schema} {context : BuildContext} {path : NodePath}
  {ref : PluginRef} {n : Node}

theorem create_within {d : Datajet}
    (h : (Registry.builtin.datajets.create ref context).result = .ok d) :
    d.Within context.workspaceRoot := by
  obtain ⟨template, ht, h⟩ := Templates.create_ok.1 h
  have hmem := (Templates.get_mem ht).1
  simp only [Registry.builtin, List.mem_cons, List.not_mem_nil, or_false] at hmem
  rcases hmem with rfl | rfl | rfl
  · obtain ⟨label, _, h⟩ := except_bind_ok.1 h
    cases h
    exact .stdout label
  · obtain ⟨path, _, h⟩ := except_bind_ok.1 h
    split at h
    · cases h
    next hdefect =>
      cases h
      exact .file hdefect
  · cases h
    exact .discard

/-- The built-in sinks of a pipeline share its workspace. -/
theorem within_of_ok (hd : registry.datajets = Registry.builtin.datajets)
    (h : (node registry s context path).result = .ok n) :
    ∀ stage ∈ n.stages, stage.datajet.Within context.workspaceRoot := by
  induction s using Schema.induction generalizing context path n with
  | node s ihl ihc ihw =>
    obtain ⟨entries, _, hmade⟩ := made_of_ok h
    cases hmade with
    | stage _ _ _ hsink =>
      rw [Node.stages, List.forall_mem_singleton]
      rw [hd] at hsink
      have hwithin := create_within hsink
      exact hwithin
    | synchronizer _ _ hnodes =>
      intro stage hstage
      obtain ⟨c, hc, hstage⟩ := Node.mem_stages_synchronizer.1 hstage
      obtain ⟨i, child, hi, hn⟩ := child_of_mem_nodes hnodes hc
      exact ihc child (List.mem_of_getElem? hi) hn stage hstage
    | wrap _ hc _ hn =>
      have hchild := ihw _ hc hn
      exact hchild
    | generator => nofun

end Build

theorem within_built {registry : Registry} (hd : registry.datajets = Registry.builtin.datajets)
    {schema : Schema} {context : BuildContext} {n : Node}
    (hn : (buildPipeline registry schema context).result = .ok n) :
    ∀ s ∈ n.stages, s.datajet.Within context.workspaceRoot := by
  have hwithin := Build.within_of_ok hd hn
  exact hwithin

theorem leavesFiles_built {schema : Schema} {context : BuildContext} {n : Node}
    (hl : context.library.entries = [])
    (hn : (buildPipeline Registry.builtin schema context).result = .ok n) :
    ∀ s ∈ n.stages, s.generator.LeavesFiles :=
  fun s hs => ((plain_built hl hn).silent s hs).leavesFiles

/-- A wrapper that leaves files alone: all that it does to them is what its child does, or a
node in it. -/
def Wrapper.LeavesFiles (w : Wrapper) : Prop :=
  ∀ (P : Op → Prop) (child : NodeView), (∀ op, ¬op.OnFiles → P op) →
    (∀ part : NodeView, part.PartOf child →
      ∀ settings ctx, (part.execute settings ctx).Only P) →
    ∀ settings ctx, (w.execute child settings ctx).Only P

theorem only_repeatFrom {P : Op → Prop} {child : Execution}
    (h : ∀ settings ctx, (child settings ctx).Only P) (settings : RunSettings)
    (ctx : RunContext) (times i : Nat) : (repeatFrom child settings ctx times i).Only P := by
  induction times generalizing i with
  | zero => trivial
  | succ times ih =>
    apply (h settings _).bind
    intro o
    exact (ih (i + 1)).bind fun _ => trivial

theorem leavesFiles_builtin {w : Wrapper} (h : Registry.builtin.wrappers.Makes w) :
    w.LeavesFiles := by
  intro P child _ hchild settings ctx
  rcases makes_builtin_wrapper h with rfl | ⟨times, _, rfl⟩
  · exact hchild child (.refl child) settings ctx
  · exact (only_repeatFrom (hchild child (.refl child)) settings ctx times 0).bind
      fun _ => trivial

theorem Activity.Interleaves.only {α : Type} {P : Op → Prop} {results : List α}
    {ps : List (Activity α)} {q : Activity (List α)} (h : Interleaves results ps q)
    (hps : ∀ p ∈ ps, p.Only P) : q.Only P := by
  induction h with
  | ended results => trivial
  | first a h ih => exact ih fun p hp => hps p (List.mem_cons_of_mem _ hp)
  | sleep ms h ih =>
    apply ih
    simp only [List.forall_mem_append, List.forall_mem_cons] at hps ⊢
    exact hps
  | act h ih =>
    simp only [List.forall_mem_append, List.forall_mem_cons] at hps ih
    exact ⟨hps.2.1.1, fun answer => ih answer ⟨hps.1, hps.2.1.2 answer, hps.2.2⟩⟩
  | wait ms h ih => exact ih hps
  | stall h => trivial

namespace Stage

variable {s : Stage} {ctx : RunContext} {name : String} {P : Op → Prop}

/-- All that a stage does is what its plugins do, to offer and to count. -/
structure Permits (s : Stage) (P : Op → Prop) : Prop where
  generator : ∀ ctx, (s.generator.validate ctx).Only P
  pull : ∀ ctx i, ((s.generator.batches ctx).pull i).Only P
  datajet : ∀ ctx, (s.datajet.validate ctx).Only P
  transmit : ∀ earlier batch ctx, (s.datajet.transmit earlier batch ctx).Only P
  offer : ∀ batch, P (.offer s.path.text batch)
  count : ∀ name o, P (.count s.path.text name o)

theorem Permits.deliver (h : s.Permits P) (number : Nat) (item : Except Chain Batch) :
    (s.deliver name ctx number item).Only P := by
  cases item with
  | error c => trivial
  | ok batch =>
    refine ⟨h.offer batch, fun earlier => ?_⟩
    apply (h.transmit earlier batch ctx).bind
    intro result
    cases result with
    | error c => trivial
    | ok _ => exact ⟨h.count _ _, fun _ => trivial⟩

theorem Permits.drainFrom (h : s.Permits P) (n i : Nat) :
    (s.drainFrom name ctx (s.generator.batches ctx) n i).Only P := by
  induction n generalizing i with
  | zero => trivial
  | succ n ih =>
    apply (h.pull ctx i).bind
    intro item
    apply (h.deliver (i + 1) item).bind
    intro error?
    cases error? with
    | none => exact ih (i + 1)
    | some error =>
      dsimp only
      split
      · exact (ih (i + 1)).bind fun _ => trivial
      · trivial

theorem Permits.execute (h : s.Permits P) (settings : RunSettings) (ctx : RunContext) :
    (s.execute settings ctx).Only P := by
  apply ((h.generator ctx).within _).bind
  intro first
  apply ((h.datajet ctx).within _).bind
  intro second
  dsimp only
  split
  · exact ⟨h.count _ _, fun _ => trivial⟩
  · apply ((h.drainFrom _ 0).within _).bind
    intro errors
    exact ⟨h.count _ _, fun _ => trivial⟩

end Stage

/-- A place strictly inside a directory. -/
def Location.Inside (dir l : Location) : Prop := dir <:+ l ∧ l ≠ dir

/-- A directory that is made for a file below a workspace: on the way to the workspace, or in
it. -/
def FilePath.Leads (root : String) (l : Location) : Prop := Ancestral root l ∨ place root <:+ l

/-- An action that leaves all files alone that are not below a workspace. -/
def Op.StaysIn (root : String) : Op → Prop
  | .openFile path | .append path _ =>
    ∀ (d : Disk) l b, d.target path = .ok (l, b) → (FilePath.place root).Inside l
  | .makeDirectories path => ∀ d : Disk, Disk.Raises (FilePath.Leads root) d (d.makeAll path).2
  | .offer .. | .print _ | .note _ | .count .. => True

theorem Op.staysIn_of_not_onFiles {root : String} {op : Op} (h : ¬op.OnFiles) :
    op.StaysIn root := by
  cases op with
  | offer | print | note | count => trivial
  | makeDirectories | openFile | append => exact absurd trivial h

section Contained

variable {root path : String} {s : Stage} {settings : RunSettings} {d d' d'' : Disk}

theorem pathDefect_segments (h : pathDefect path = none) : FilePath.isAbsolute path = false ∧
    FilePath.segments path ≠ [] ∧ ".." ∉ FilePath.segments path := by
  obtain ⟨habsolute, hup, name, hname, hne⟩ := pathDefect_eq_none.1 h
  refine ⟨?_, List.ne_nil_of_mem (List.mem_filter.2 ⟨hname, by simpa using hne⟩), ?_⟩
  · rw [FilePath.isAbsolute, beq_eq_false_iff_ne]
    exact habsolute
  · exact fun hmem => hup (List.mem_of_mem_filter hmem)

theorem inside_of_pathDefect (h : pathDefect path = none) :
    (FilePath.place root).Inside (FilePath.place (FilePath.join root path)) := by
  obtain ⟨habsolute, hne, hup⟩ := pathDefect_segments h
  rw [FilePath.place_join habsolute hup]
  refine ⟨List.suffix_append _ _, ?_⟩
  intro heq
  have hnil := List.append_left_eq_self.1 heq
  exact hne (List.reverse_eq_nil_iff.1 hnil)

theorem Datajet.Within.only {d : Datajet} (hroot : FilePath.isAbsolute root = true)
    (h : d.Within root) (ctx : RunContext) : (d.validate ctx).Only (Op.StaysIn root) ∧
      ∀ earlier batch, (d.transmit earlier batch ctx).Only (Op.StaysIn root) := by
  cases h with
  | stdout label => exact ⟨trivial, fun _ _ => ⟨trivial, fun _ => trivial⟩⟩
  | discard => exact ⟨trivial, fun _ _ => trivial⟩
  | @file path hdefect =>
    obtain ⟨habsolute, _, hup⟩ := pathDefect_segments hdefect
    have habove {parent : String}
        (hparent : FilePath.parent? (FilePath.join root path) = some parent) :
        Op.StaysIn root (.makeDirectories parent) := by
      intro disk
      have hjoin := FilePath.isAbsolute_join hroot habsolute
      rcases FilePath.parent?_of_isAbsolute hjoin with ⟨hnone, _⟩
        | ⟨_, hsome, hparents, _, hsegments⟩
      · rw [hnone] at hparent
        cases hparent
      rw [hsome] at hparent
      cases hparent
      apply (Disk.raises_ancestral hparents).mono
      intro l hl
      exact (hl.of_parent hsegments).join habsolute hup
    rw [fileDatajet]
    constructor
    · dsimp only
      split
      · trivial
      next parent hparent => exact ⟨habove hparent, fun answer => by cases answer <;> trivial⟩
    · intro earlier batch
      have hinside (disk : Disk) (l : Location) (b : ByteArray)
          (htarget : disk.target (FilePath.join root path) = .ok (l, b)) :
          (FilePath.place root).Inside l := by
        rw [← Disk.place_of_target htarget]
        exact inside_of_pathDefect hdefect
      refine ⟨hinside, fun opened => ?_⟩
      cases opened with
      | error e => trivial
      | ok _ => exact ⟨hinside, fun written => by cases written <;> trivial⟩

theorem staysIn_of_within (hroot : FilePath.isAbsolute root = true)
    (hg : s.generator.LeavesFiles) (hd : s.datajet.Within root) :
    s.Permits (Op.StaysIn root) where
  generator ctx := (hg.validate ctx).mono fun _ => Op.staysIn_of_not_onFiles
  pull ctx i := (hg.pull ctx i).mono fun _ => Op.staysIn_of_not_onFiles
  datajet ctx := (hd.only hroot ctx).1
  transmit earlier batch ctx := (hd.only hroot ctx).2 earlier batch
  offer _ := trivial
  count _ _ := trivial

/-- A disk has changed in a workspace only: where it has, there is a file strictly below the
workspace, or a new directory on the way to it or in it. -/
def Disk.ChangesIn (root : String) (d d' : Disk) : Prop := ∀ l, d'.get? l ≠ d.get? l →
  (∃ b, d'.get? l = some (.file b)) ∧ (FilePath.place root).Inside l ∨
    d.get? l = none ∧ d'.get? l = some .directory ∧ FilePath.Leads root l

theorem Disk.ChangesIn.trans (h : d.ChangesIn root d') (h' : d'.ChangesIn root d'') :
    d.ChangesIn root d'' := by
  intro l hl
  by_cases hlater : d''.get? l = d'.get? l
  · rw [hlater] at hl ⊢
    exact h l hl
  · rcases h' l hlater with hfile | ⟨hnone, hmade, hleads⟩
    · exact .inl hfile
    · right
      by_cases hearlier : d'.get? l = d.get? l
      · exact ⟨hearlier ▸ hnone, hmade, hleads⟩
      · rcases h l hearlier with ⟨⟨b, hfile⟩, _⟩ | ⟨_, hthere, _⟩
        · rw [hfile] at hnone
          cases hnone
        · rw [hthere] at hnone
          cases hnone

/-- An action changes nothing outside of a workspace if it stays there. -/
theorem changesIn_perform {op : Op} (h : op.StaysIn root) (w : World) :
    w.disk.ChangesIn root (w.perform op).2.disk := by
  intro l hl
  cases op with
  | offer | print | note | count => exact absurd rfl hl
  | makeDirectories path =>
    rcases h w.disk l with heq | hmade
    · exact absurd heq hl
    · exact .inr hmade
  | openFile | append =>
    rw [World.perform, World.append] at hl ⊢
    cases happend : w.disk.append _ _ with
    | error e =>
      rw [happend] at hl
      exact absurd rfl hl
    | ok d =>
      rw [happend] at hl
      have hget := Disk.get?_append happend l
      obtain ⟨_, _, htarget, _⟩ := Disk.append_ok.1 happend
      split at hget
      next hplace =>
        left
        refine ⟨⟨_, hget⟩, ?_⟩
        rw [← hplace, Disk.place_of_target htarget]
        exact h _ _ _ htarget
      · exact absurd hget hl

theorem changesIn_run {α : Type} {p : Activity α} {w w' : World} {a : α}
    (h : p.Only (Op.StaysIn root)) (hrun : p.run w = some (a, w')) :
    w.disk.ChangesIn root w'.disk := by
  induction p generalizing w with
  | done a =>
    cases hrun
    exact fun l hl => absurd rfl hl
  | act op next ih => exact (changesIn_perform h.1 w).trans (ih _ (h.2 _) hrun)
  | sleep ms next ih => exact @ih { w with now := w.now + ms } h hrun
  | stall => cases hrun

/-- Where each stage does only what is permitted, so does every node of a tree whose wrappers
leave files alone. -/
theorem Node.BuiltAt.only {P : Op → Prop} {registry : Registry} {place : NodePath} {n m : Node}
    (hn : n.BuiltAt registry place) (hw : ∀ w, registry.wrappers.Makes w → w.LeavesFiles)
    (hP : ∀ op, ¬op.OnFiles → P op) (hs : ∀ s ∈ n.stages, s.Permits P) (hm : m.PartOf n)
    (settings : RunSettings) (ctx : RunContext) : (m.execute settings ctx).Only P := by
  induction hn generalizing m settings ctx with
  | stage =>
    cases hm with
    | refl => exact (hs _ List.mem_cons_self).execute settings ctx
    | inside hc _ => cases hc
  | @synchronizer place children fan hlimit hchildren ih =>
    have hpart (c : Node) (hc : c ∈ children) (m : Node) (hm : m.PartOf c) :
        (m.execute settings ctx).Only P := by
      obtain ⟨i, hi⟩ := List.mem_iff_getElem?.1 hc
      exact ih i c hi
        (fun s hmem => hs s (mem_stages_synchronizer.2 ⟨c, hc, hmem⟩)) hm settings ctx
    cases hm with
    | refl =>
      rw [execute_synchronizer]
      have hchild : ∀ p ∈ children.map (·.execute settings ctx), p.Only P :=
        List.forall_mem_map.2 fun c hc => hpart c hc c (.refl c)
      exact ((interleaves_fanOut hlimit).only hchild).bind fun _ => trivial
    | inside hc hm => exact hpart _ hc m hm
  | @wrap place w child hmade hchild ih =>
    have hpart (m : Node) (hm : m.PartOf child) := ih hs hm
    cases hm with
    | refl =>
      apply hw w hmade P child.view hP
      intro part hpartOf
      obtain ⟨m, hm, rfl⟩ := partOf_of_view hpartOf rfl
      exact hpart m hm
    | inside hc hm =>
      cases List.mem_singleton.1 hc
      exact hpart m hm settings ctx
  | generator =>
    cases hm with
    | refl => trivial
    | inside hc _ => cases hc

/-- The settings of a file sink with a path. -/
def fileConfig (path : String) : Fields := [("path", .string path)]

theorem fileFactory_ok {context : BuildContext} {sink : Datajet} :
    fileFactory (fileConfig path) context = .ok sink ↔
      pathDefect path = none ∧
      sink = fileDatajet (FilePath.join context.workspaceRoot path) := by
  have hconfig : ofConfig pathShape (fileConfig path) = .ok path := rfl
  rw [fileFactory, hconfig]
  simp only [Bind.bind, Except.bind]
  cases pathDefect path with
  | some message => simp [refuse]
  | none => simp [eq_comm]

end Contained

/-- The file sink cannot leave the workspace. It accepts a path just if it does not start with a
slash, none of its segments leads upward and one names something; the segments of the file are
then those of the workspace and after them those of the path. So no run of a pipeline with
built-in sinks, whose other plugins leave files alone, writes a file that is not strictly below
the workspace, or makes a directory that is neither below it nor on the way to it. -/
theorem execute_contained (root : String) (hroot : FilePath.isAbsolute root = true) :
    (∀ path context sink, context.workspaceRoot = root →
      (fileFactory (fileConfig path) context = .ok sink ↔
      (path.toList.head? ≠ some '/' ∧ ".." ∉ FilePath.split path ∧
        ∃ segment ∈ FilePath.split path, segment ≠ "" ∧ segment ≠ ".") ∧
      sink = fileDatajet (FilePath.join root path))) ∧
    (∀ path, pathDefect path = none →
      FilePath.segments (FilePath.join root path) =
        FilePath.segments root ++ FilePath.segments path ∧
      FilePath.place (FilePath.join root path) =
        (FilePath.segments path).reverse ++ FilePath.place root ∧
      FilePath.segments path ≠ [] ∧ (FilePath.segments path).Sublist (FilePath.split path) ∧
      ".." ∉ FilePath.segments path) ∧
    (".." ∉ FilePath.segments root →
      ∀ l, FilePath.Ancestral root l ↔ l <:+ FilePath.place root) ∧
    ∀ registry : Registry, registry.datajets = Registry.builtin.datajets →
      (∀ w, registry.wrappers.Makes w → w.LeavesFiles) →
      ∀ schema context n, context.workspaceRoot = root →
      (buildPipeline registry schema context).result = .ok n →
      (∀ s ∈ n.stages, s.generator.LeavesFiles) →
      ∀ settings ctx w, (∀ e ∈ (n.execute settings ctx).history w, e.op.StaysIn root) ∧
        ∀ o w', (n.execute settings ctx).run w = some (o, w') →
          w.disk.ChangesIn root w'.disk := by
  refine ⟨?_, ?_, fun hup l => FilePath.ancestral_iff hup, ?_⟩
  · rintro path context sink rfl
    rw [fileFactory_ok, pathDefect_eq_none]
  · intro path hdefect
    obtain ⟨habsolute, hne, hup⟩ := pathDefect_segments hdefect
    exact ⟨FilePath.segments_join habsolute, FilePath.place_join habsolute hup, hne,
      List.filter_sublist, hup⟩
  · rintro registry hd hw schema context n rfl hn hg settings ctx w
    have hwithin := within_built hd hn
    have honly := (buildPipeline_builtAt hn).only hw (fun _ => Op.staysIn_of_not_onFiles)
      (fun s hs => staysIn_of_within hroot (hg s hs) (hwithin s hs)) (.refl n) settings ctx
    obtain ⟨_, hpasses, _⟩ := passes_history (n.execute settings ctx) w
    exact ⟨honly.passes hpasses, fun o w' hrun => changesIn_run honly hrun⟩

/-- A stage that writes a file in a directory that is yet to be made. -/
def storedStage : Schema where
  generator := some ⟨"static", some [("records", .array [.null])]⟩
  datajet := some ⟨"file", some (fileConfig "./out//a.jsonl")⟩

theorem execute_contained_storedStage : FilePath.isAbsolute "/w/" = true ∧
    pathDefect "./out//a.jsonl" = none ∧
    FilePath.place (FilePath.join "/w/" "./out//a.jsonl") = ["a.jsonl", "out", "w"] ∧
    ∃ n o w', (buildPipeline Registry.builtin storedStage (.mk "/" "/w/" {} none none)).result =
      .ok n ∧
      (∀ s ∈ n.stages, s.generator.LeavesFiles) ∧ (n.execute {} {}).run {} = some (o, w') ∧
      o.isSuccess = true ∧ ({} : Disk).ChangesIn "/w/" w'.disk := by
  have hroot : FilePath.isAbsolute "/w/" = true := rfl
  have hdefect : pathDefect "./out//a.jsonl" = none := by decide +kernel
  obtain ⟨_, hpaths, _, hruns⟩ := execute_contained "/w/" hroot
  refine ⟨hroot, hdefect, ?_, ?_⟩
  · rw [(hpaths _ hdefect).2.1]
    decide +kernel
  · have hbuild : ∃ n,
        (buildPipeline Registry.builtin storedStage (.mk "/" "/w/" {} none none)).result =
          .ok n :=
      ⟨_, rfl⟩
    obtain ⟨n, hn⟩ := hbuild
    have hg := leavesFiles_built rfl hn
    obtain ⟨_, hends⟩ :=
      hruns Registry.builtin rfl
        (fun _ => leavesFiles_builtin) storedStage _ n rfl hn hg {} {} {}
    cases hn
    exact ⟨_, _, _, rfl, hg, rfl, rfl, hends _ _ rfl⟩

end DataPipeline

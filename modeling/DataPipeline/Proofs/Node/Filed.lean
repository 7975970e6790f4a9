import DataPipeline.Proofs.Node.Passages
import DataPipeline.Proofs.Node.Transmits

namespace DataPipeline

open Activity

/-- A wrapper that runs its child or nodes in it any number of times, one after another or side
by side, and does besides only what is aside. -/
def Wrapper.Relays (w : Wrapper) : Prop :=
  ∀ (child : NodeView) (settings : RunSettings) (ctx : RunContext) (x : Passage Outcome),
    x.Of (w.execute child settings ctx) →
      ∃ own, ∃ ys : List (Passage Outcome), (∀ e ∈ own, e.op.Aside) ∧
      (∀ y ∈ ys, ∃ part : NodeView, part.PartOf child ∧
        ∃ settings' ctx', y.Of (part.execute settings' ctx')) ∧
      Shuffle (own :: ys.map (·.events)) x.events

theorem relays_builtin {w : Wrapper} (h : Registry.builtin.wrappers.Makes w) : w.Relays := by
  intro child settings ctx x hx
  rcases makes_builtin_wrapper h with rfl | ⟨times, _, rfl⟩
  · exact ⟨[], [x], nofun, List.forall_mem_singleton.2 ⟨child, .refl child, settings, ctx, hx⟩,
      (Shuffle.single _).cons_nil⟩
  · obtain ⟨r, hrounds, _⟩ := passes_map hx
    obtain ⟨ys, hys, hevents, _⟩ := passes_repeatFrom hrounds
    refine ⟨[], ys, nofun, fun y hy => ⟨child, .refl child, settings, hys y hy⟩, ?_⟩
    rw [hevents]
    exact (Shuffle.of_flatten _).cons_nil

/-- What a run of a stage does, and the batches that its sink takes in the course of it. -/
structure StageWork where
  stage : Stage
  events : List Event
  taken : List Batch

/-- The batches that go to a file, with the path of it. -/
def StageWork.stored (x : StageWork) : List (String × Batch) :=
  x.stage.datajet.file?.elim [] fun path => x.taken.map (path, ·)

/-- The work is that of a run of one of some stages. -/
structure StageWork.Of (stages : List Stage) (x : StageWork) : Prop where
  stage : x.stage ∈ stages
  run : ∃ settings ctx, ∃ y : Passage Outcome, y.Of (x.stage.execute settings ctx) ∧
    y.events = x.events
  transmits : x.stage.Transmits x.events x.taken

/-- What is done is the work of some stages, which take turns, and what is aside. -/
structure Performs (stages : List Stage) (es : List Event) (works : List StageWork) : Prop where
  runs : ∀ x ∈ works, x.Of stages
  events : ∃ rest : List (List Event), (∀ part ∈ rest, ∀ e ∈ part, e.op.Aside) ∧
    Shuffle (rest ++ works.map (·.events)) es

section

variable {stages stages' : List Stage} {es : List Event} {parts : List (List Event)}
  {works : List StageWork}

theorem performs_aside (h : ∀ e ∈ es, e.op.Aside) : Performs stages es [] where
  runs := nofun
  events := ⟨[es], List.forall_mem_singleton.2 h, .single es⟩

theorem Performs.mono (h : Performs stages es works) (hsub : ∀ s ∈ stages, s ∈ stages') :
    Performs stages' es works where
  runs x hx := ⟨hsub _ (h.runs x hx).stage, (h.runs x hx).run, (h.runs x hx).transmits⟩
  events := h.events

/-- What takes turns, each of it the work of stages, is all together work of these. -/
theorem performs_shuffle (hparts : ∀ part ∈ parts, ∃ works, Performs stages part works)
    (h : Shuffle parts es) :
    ∃ works, Performs stages es works := by
  have hgroups : ∃ groups rest, ∃ works : List StageWork,
      List.Forall₂ (fun part group => Shuffle group part) parts groups ∧
      groups.flatten.Perm (rest ++ works.map StageWork.events) ∧
      (∀ part ∈ rest, ∀ e ∈ part, e.op.Aside) ∧ ∀ x ∈ works, x.Of stages := by
    clear h
    induction parts with
    | nil => exact ⟨[], [], [], .nil, .nil, nofun, nofun⟩
    | cons part parts ih =>
      rw [List.forall_mem_cons] at hparts
      obtain ⟨⟨works, hworks, rest, hrest, hpart⟩, hparts⟩ := hparts
      obtain ⟨groups, rest', works', hgroups, hperm, hrest', hworks'⟩ := ih hparts
      refine ⟨_, rest ++ rest', works ++ works', .cons hpart hgroups, ?_,
        List.forall_mem_append.2 ⟨hrest, hrest'⟩, List.forall_mem_append.2 ⟨hworks, hworks'⟩⟩
      rw [List.flatten_cons, List.map_append, List.append_assoc, List.append_assoc]
      apply List.Perm.append_left
      apply (hperm.append_left _).trans
      rw [← List.append_assoc, ← List.append_assoc]
      exact List.perm_append_comm.append_right _
  obtain ⟨groups, rest, works, hgroups, hperm, hrest, hworks⟩ := hgroups
  exact ⟨works, hworks, rest, hrest, (h.flatten hgroups).of_perm hperm⟩

/-- Whatever course a tree or a part of it takes, it is the work of its stages. -/
theorem performs_execute {registry : Registry} {place : NodePath} {n m : Node}
    (hn : n.BuiltAt registry place) (hw : ∀ w, registry.wrappers.Makes w → w.Relays)
    (hs : ∀ s ∈ n.stages, s.generator.Aside ∧ s.datajet.Prompt) (hm : m.PartOf n)
    {settings : RunSettings} {ctx : RunContext} {x : Passage Outcome}
    (hx : x.Of (m.execute settings ctx)) :
    ∃ works, Performs n.stages x.events works := by
  induction hn generalizing m settings ctx x with
  | @stage place g d own =>
    cases hm with
    | inside hc _ => cases hc
    | refl =>
      obtain ⟨hg, hd⟩ := hs _ List.mem_cons_self
      obtain ⟨taken, htransmits⟩ := (Stage.orderly_execute hg hd settings ctx).passes hd hx
      refine ⟨[⟨⟨place, g, d, own⟩, x.events, taken⟩], ?_, [], List.forall_mem_nil _, .single _⟩
      rw [List.forall_mem_singleton]
      exact ⟨List.mem_cons_self, ⟨settings, ctx, x, hx, rfl⟩, htransmits⟩
  | @synchronizer place children fan hlimit hchildren ih =>
    have hpart {c : Node} (hc : c ∈ children) {m : Node} (hm : m.PartOf c) {y : Passage Outcome}
        (hy : y.Of (m.execute settings ctx)) :
        ∃ works, Performs (Node.synchronizer children fan).stages y.events works := by
      obtain ⟨i, hi⟩ := List.mem_iff_getElem?.1 hc
      have hsub : ∀ s ∈ c.stages, s ∈ (Node.synchronizer children fan).stages :=
        fun s hmem => Node.mem_stages_synchronizer.2 ⟨c, hc, hmem⟩
      obtain ⟨works, hworks⟩ := ih i c hi (fun s hmem => hs s (hsub s hmem)) hm hy
      exact ⟨works, hworks.mono hsub⟩
    cases hm with
    | inside hc hm => exact hpart hc hm hx
    | refl =>
      rw [Passage.Of, Node.execute_synchronizer] at hx
      obtain ⟨r, hfan, _⟩ := passes_map hx
      obtain ⟨ys, hys, hshuffle, _⟩ := passes_fanOut hlimit hfan
      rw [List.forall₂_map_left_iff] at hys
      refine performs_shuffle (List.forall_mem_map.2 fun y hy => ?_) hshuffle
      obtain ⟨before, after, rfl⟩ := List.append_of_mem hy
      obtain ⟨before', c, after', rfl, _, ⟨_, hc⟩, _⟩ := forall₂_append_cons hys.flip
      rcases hc with hpassed | ⟨_, hnone⟩
      · exact hpart (List.mem_append_right _ List.mem_cons_self) (.refl c) hpassed
      · rw [hnone]
        exact ⟨[], performs_aside (List.forall_mem_nil _)⟩
  | @wrap place w child hmade hchild ih =>
    cases hm with
    | inside hc hm =>
      cases List.mem_singleton.1 hc
      exact ih hs hm hx
    | refl =>
      obtain ⟨own, ys, hown, hys, hshuffle⟩ := hw w hmade child.view settings ctx x hx
      refine performs_shuffle
        (List.forall_mem_cons.2 ⟨⟨[], performs_aside hown⟩, List.forall_mem_map.2 ?_⟩) hshuffle
      intro y hy
      obtain ⟨part, hpart, settings', ctx', hy⟩ := hys y hy
      obtain ⟨m, hm, rfl⟩ := Node.partOf_of_view hpart rfl
      exact ih hs hm hy
  | generator =>
    cases hm with
    | inside hc _ => cases hc
    | refl =>
      obtain ⟨start, result, events, finish⟩ := x
      cases hx
      exact ⟨[], performs_aside (List.forall_mem_nil _)⟩

end

/-- The records that go to the file at a place. -/
def recordsAt (l : Location) (stored : List (String × Batch)) : Batch :=
  (stored.filter (FilePath.place ·.1 = l)).flatMap (·.2)

theorem join_appendedAt {es : List Event} {stored : List (String × Batch)}
    (h : es.filterMap Event.appended? = stored.map fun x => (x.1, jsonLines x.2))
    (l : Location) :
    String.join (appendedAt l es) = jsonLines (recordsAt l stored) := by
  rw [appendedAt, h, List.filter_map, List.map_map, recordsAt]
  change String.join ((stored.filter (FilePath.place ·.1 = l)).map fun x => jsonLines x.2) = _
  induction stored.filter (FilePath.place ·.1 = l) with
  | nil => rfl
  | cons x rest ih =>
    rw [List.flatMap_cons, jsonLines_append, ← ih, List.map_cons, String.join_cons]

section

variable {root : String} {stages : List Stage} {es : List Event}
  {works : List StageWork} {s : Stage} {stored : List (String × Batch)}

theorem Performs.stores (hd : ∀ s ∈ stages, s.datajet.Within root)
    (h : Performs stages es works) :
    ∃ stored, Shuffle (works.map StageWork.stored) stored ∧
      es.filterMap Event.appended? = stored.map fun x => (x.1, jsonLines x.2) := by
  obtain ⟨rest, hrest, hshuffle⟩ := h.events
  have hnone : List.Forall₂
      (fun part (ds : List (String × Batch)) =>
        part.filterMap Event.appended? = ds.map fun x => (x.1, jsonLines x.2))
      rest (rest.map fun _ => []) := by
    rw [List.forall₂_map_right_iff, List.forall₂_same]
    exact fun part hpart =>
      List.filterMap_eq_nil_iff.2 fun e he => (hrest part hpart e he).appended?
  have hworks : List.Forall₂
      (fun part ds => part.filterMap Event.appended? = ds.map fun x => (x.1, jsonLines x.2))
      (works.map StageWork.events) (works.map StageWork.stored) := by
    rw [List.forall₂_map_left_iff, List.forall₂_map_right_iff, List.forall₂_same]
    intro x hx
    rw [(h.runs x hx).transmits.appended (hd _ (h.runs x hx).stage), StageWork.stored]
    cases x.stage.datajet.file? with
    | none => rfl
    | some path =>
      rw [Option.elim_some, Option.elim_some, List.map_map]
      rfl
  obtain ⟨stored, hstored, happended⟩ := hshuffle.filterMap (List.rel_append hnone hworks)
  refine ⟨stored, hstored.of_nil_append ?_, happended⟩
  rw [List.forall_mem_map]
  exact fun _ _ => rfl

theorem Performs.records (hd : ∀ s ∈ stages, s.datajet.Within root)
    (h : Performs stages es works) (place : String) :
    (es.map (Event.records place)).sum =
      (works.map fun x =>
        if x.stage.path.text = place then (x.taken.map List.length).sum else 0).sum := by
  obtain ⟨rest, hrest, hshuffle⟩ := h.events
  have hnone : ((rest.map fun part => (part.map (Event.records place)).sum)).sum = 0 :=
    List.sum_eq_zero (List.forall_mem_map.2 fun part hpart =>
      List.sum_eq_zero (List.forall_mem_map.2 fun e he =>
        (hrest part hpart e he).records place))
  rw [hshuffle.sum_map, List.map_append, List.sum_append, hnone, Nat.zero_add, List.map_map]
  congr 1
  apply List.map_congr_left
  intro x hx
  exact (h.runs x hx).transmits.records (hd _ (h.runs x hx).stage) place

theorem length_recordsAt (h : Shuffle (works.map StageWork.stored) stored) (l : Location) :
    (recordsAt l stored).length = (works.map fun x =>
      if x.stage.datajet.file?.map FilePath.place = some l then (x.taken.map List.length).sum
        else 0).sum := by
  have hweight (ds : List (String × Batch)) : (recordsAt l ds).length =
      (ds.map fun x => if FilePath.place x.1 = l then x.2.length else 0).sum := by
    induction ds with
    | nil => rfl
    | cons x ds ih =>
      rw [List.map_cons, List.sum_cons, ← ih, recordsAt, recordsAt, List.filter_cons]
      by_cases hx : FilePath.place x.1 = l <;> simp [hx]
  rw [hweight, h.sum_map, List.map_map]
  congr 1
  apply List.map_congr_left
  intro x _
  rw [Function.comp_apply, StageWork.stored]
  cases x.stage.datajet.file? with
  | none => rfl
  | some path =>
    rw [Option.elim_some, List.map_map]
    by_cases hpath : FilePath.place path = l <;> simp [hpath, Function.comp_def]

/-- Of several stages at places of their own, only the stage itself is at the place of a
stage. -/
theorem sum_filter_at (hnodup : (stages.map (·.path.text)).Nodup) (hs : s ∈ stages)
    (P : Stage → Bool) (k : Nat) :
    ((stages.filter P).map fun s' => if s.path.text = s'.path.text then k else 0).sum =
      if P s then k else 0 := by
  induction stages with
  | nil => cases hs
  | cons first rest ih =>
    rw [List.map_cons, List.nodup_cons] at hnodup
    rw [List.filter_cons]
    rcases List.mem_cons.1 hs with rfl | hs
    · have hrest :
          ((rest.filter P).map fun s' => if s.path.text = s'.path.text then k else 0).sum =
            0 := by
        apply List.sum_eq_zero
        rw [List.forall_mem_map]
        intro s' hs'
        apply if_neg
        intro heq
        exact hnodup.1 (heq ▸ List.mem_map_of_mem (List.mem_filter.1 hs').1)
      by_cases hP : P s = true
      · rw [if_pos hP, List.map_cons, List.sum_cons, hrest, if_pos rfl, if_pos hP, Nat.add_zero]
      · rw [if_neg hP, hrest, if_neg hP]
    · have hne : s.path.text ≠ first.path.text :=
        fun heq => hnodup.1 (heq ▸ List.mem_map_of_mem hs)
      have hrest := ih hnodup.2 hs
      split
      · rw [List.map_cons, List.sum_cons, if_neg hne, Nat.zero_add, hrest]
      · exact hrest

theorem sum_works (hnodup : (stages.map (·.path.text)).Nodup)
    (hworks : ∀ x ∈ works, x.stage ∈ stages) (P : Stage → Bool) (weight : StageWork → Nat) :
    ((stages.filter P).map fun s =>
        (works.map fun x => if x.stage.path.text = s.path.text then weight x else 0).sum).sum =
      (works.map fun x => if P x.stage then weight x else 0).sum := by
  induction works with
  | nil => simp
  | cons x works ih =>
    rw [List.forall_mem_cons] at hworks
    simp only [List.map_cons, List.sum_cons]
    rw [List.sum_map_add, ih hworks.2, sum_filter_at hnodup hworks.1]

end

theorem tally_run {α : Type} {p : Activity α} {w w' : World} {a : α}
    (hrun : p.run w = some (a, w')) (place : String) : w'.tally place (·.records) =
      w.tally place (·.records) + ((p.history w).map (Event.records place)).sum := by
  rw [World.tally_run hrun StageMetrics.records_add fun _ => rfl, sum_counted]

/-- The stages whose sinks write the file at a place. -/
def Node.writers (n : Node) (l : Location) : List Stage :=
  n.stages.filter fun s => s.datajet.file?.map FilePath.place = some l

/-- A stage that writes a file, and is run twice. -/
def storedTwice : Schema where
  component := some "wrap"
  config := some (.object [("wrapper", .object [("name", .string "repeat"),
    ("config", .object [("times", .nat 2)])])])
  child := some
    { generator :=
        some ⟨"static", some [("records", .array [.array [.nat 1, .string "a"], .bool true])]⟩
      datajet := some ⟨"file", some (fileConfig "./out//a.jsonl")⟩ }

end DataPipeline

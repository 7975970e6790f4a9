import DataPipeline.Proofs.Document.Proper
import DataPipeline.Proofs.Node.Configured
import DataPipeline.Proofs.Node.Logged
import DataPipeline.Proofs.Node.Passages
import DataPipeline.Proofs.Node.Settles
import DataPipeline.Proofs.Run.Counters
import DataPipeline.Proofs.Run.Rounds
import DataPipeline.Proofs.Run.Schedule

namespace DataPipeline

open Activity

theorem Fields.insert_insert {key : String} {v v' : Json} {fields : Fields} :
    insert key v (insert key v' fields) = insert key v fields := by
  induction fields with
  | nil => simp [insert]
  | cons f rest ih =>
    obtain ⟨k, u⟩ := f
    simp only [insert]
    split
    next => simp [insert]
    next hlt =>
      split
      next => simp [insert]
      next hne => simp [insert, hlt, hne, ih]

/-- The context of a node under repeats in some of their iterations, that of the outermost
first. -/
def RunContext.iterated (ctx : RunContext) (indices : List Nat) : RunContext :=
  match indices.getLast? with
  | some i => ctx.withVariable "iteration" (.nat i)
  | none => ctx

namespace RunContext

variable (ctx : RunContext) (indices : List Nat) (i : Nat)

theorem iterated_cons :
    ctx.iterated (i :: indices) = (ctx.withVariable "iteration" (.nat i)).iterated indices := by
  cases indices using List.reverseRecOn with
  | nil => rfl
  | append_singleton indices j =>
    rw [iterated, iterated, List.getLast?_concat, ← List.cons_append, List.getLast?_concat]
    simp only [withVariable, Fields.insert_insert]

theorem runId_iterated : (ctx.iterated indices).runId = ctx.runId := by
  rw [iterated]
  split
  · rfl
  · rfl

theorem get?_iterated (key : String) : (ctx.iterated (indices ++ [i])).bindings.get? key =
    if key = "iteration" then some (.nat i) else ctx.bindings.get? key := by
  rw [iterated, List.getLast?_concat]
  exact Fields.get?_insert

end RunContext

/-- A stage whose plugins see a context of their own, whatever they are given. -/
def Stage.seeing (s : Stage) (ctx : RunContext) : Stage :=
  { s with
    generator := { s.generator with
      validate := fun _ => s.generator.validate ctx
      batches := fun _ => s.generator.batches ctx }
    datajet := { s.datajet with
      validate := fun _ => s.datajet.validate ctx
      transmit := fun earlier batch _ => s.datajet.transmit earlier batch ctx } }

theorem Stage.drainFrom_seeing (s : Stage) (ctx other : RunContext) (name : String)
    (stream : BatchStream) (n i : Nat) :
    (s.seeing ctx).drainFrom name other stream n i = s.drainFrom name ctx stream n i := by
  induction n generalizing i with
  | zero => rfl
  | succ n ih =>
    rw [drainFrom, drainFrom]
    simp only [ih]
    rfl

theorem Stage.execute_seeing (s : Stage) (settings : RunSettings) (ctx other : RunContext) :
    (s.seeing ctx).execute settings other = s.execute settings ctx := by
  have hdrain (name : String) : (s.seeing ctx).drain name other = s.drain name ctx :=
    drainFrom_seeing ..
  simp only [execute, Node.descriptor, hdrain]
  rfl

namespace Node

/-- A passage of a tree is made of rounds of its nodes, told for each place. In them a node is
executed as it is in the context of the iteration, the stages of the tree do all that is done,
in turns, and the outcome tells for each round of a place what came of it. -/
structure Unrolls (n : Node) (settings : RunSettings) (ctx : RunContext) (x : Passage Outcome)
    (course : List Descent → List (Round Outcome)) : Prop where
  rounds : ∀ p ∈ n.places,
    Sequential (fun indices => p.node.execute settings (ctx.iterated indices))
      (rounds p.times) x (course p.steps)
  events : Shuffle
    ((n.places.filter (·.isStage)).map fun p => (course p.steps).flatMap (·.passage.events))
    x.events
  results : ∀ o, x.result = some o → ∀ p ∈ n.places, ∀ r ∈ course p.steps,
    outcome? p.steps r.indices o = r.passage.result

variable {n c : Node} {children : List Node} {settings : RunSettings} {ctx : RunContext}
  {x : Passage Outcome} {xs : List (Passage Outcome)} {p : Place} {d : Descent}
  {course : List Descent → List (Round Outcome)}

theorem unrolls_idle (h : x.Idle) : n.Unrolls settings ctx x fun _ => [] where
  rounds p _ := .idle h.1 _
  events := by
    rw [h.2]
    exact .nil (by simp)
  results o ho := by
    rw [h.1] at ho
    cases ho

/-- What is repeated from an iteration on is made of its rounds in each iteration, one iteration
after another. -/
theorem rounds_repeatFrom
    (hc : ∀ ctx x, x.Of (c.execute settings ctx) → ∃ course, c.Unrolls settings ctx x course)
    {times i : Nat} {y : Passage (List Outcome)}
    (h : y.Of (repeatFrom c.execute settings ctx times i)) :
    ∃ course : List Descent → List (Round Outcome),
      (∀ p ∈ c.places,
        Sequential (fun indices => p.node.execute settings (ctx.iterated indices))
          ((List.range' i times).flatMap fun j => (Activity.rounds p.times).map (j :: ·)) y
          (course p.steps)) ∧
      Shuffle
        ((c.places.filter (·.isStage)).map fun p => (course p.steps).flatMap (·.passage.events))
        y.events ∧
      ∀ os, y.result = some os →
        ∀ p ∈ c.places, ∀ r ∈ course p.steps, ∃ j indices, r.indices = (i + j) :: indices ∧
        os[j]?.bind (outcome? p.steps indices) = r.passage.result := by
  induction times generalizing i y with
  | zero =>
    obtain ⟨start, result, events, finish⟩ := y
    cases h
    exact ⟨fun _ => [], fun p _ => .nil _, .nil (by simp), by simp⟩
  | succ times ih =>
    obtain ⟨start, result, events, finish⟩ := y
    have hfirst {x : Passage Outcome} {p : Place} {course : List Descent → List (Round Outcome)}
        (hx : c.Unrolls settings (ctx.withVariable "iteration" (.nat i)) x course)
        (hp : p ∈ c.places) :
        Sequential (fun indices => p.node.execute settings (ctx.iterated indices))
          ((Activity.rounds p.times).map (i :: ·)) x ((course p.steps).map (.inside i)) := by
      apply Sequential.indexed
      simp only [RunContext.iterated_cons]
      exact hx.rounds p hp
    have hevents {course : List Descent → List (Round Outcome)} (steps : List Descent) :
        ((course steps).map (Round.inside i)).flatMap (·.passage.events) =
          (course steps).flatMap (·.passage.events) := by
      rw [List.flatMap_map]
      rfl
    rw [Passage.Of, repeatFrom] at h
    rcases passes_bind h with ⟨o, es₁, t₁, es₂, ho, hrest, rfl⟩ | ⟨rfl, hstall⟩
    · obtain ⟨os?, hos, hmap⟩ := passes_map hrest
      obtain ⟨course, hx⟩ := hc _ ⟨start, some o, es₁, t₁⟩ ho
      obtain ⟨later, hy, hshuffle, hresults⟩ := @ih (i + 1) ⟨t₁, os?, es₂, finish⟩ hos
      have hends : result ≠ none → os? ≠ none := by
        rintro hne rfl
        exact hne hmap
      refine ⟨fun steps => (course steps).map (.inside i) ++ later steps, ?_, ?_, ?_⟩
      · intro p hp
        rw [List.range'_succ, List.flatMap_cons]
        apply (hfirst hx hp).append (hy p hp) (Option.some_ne_none o) (Nat.le_refl t₁)
        · exact ⟨Nat.le_refl start, fun _ => ⟨Option.some_ne_none o, hos.le⟩⟩
        · exact ⟨ho.le, fun hne => ⟨hends hne, Nat.le_refl _⟩⟩
      · simp only [List.flatMap_append, hevents]
        exact hx.events.map_append hshuffle
      · rintro os rfl p hp r hr
        obtain ⟨rest, rfl, rfl⟩ := Option.map_eq_some_iff.1 hmap.symm
        rcases List.mem_append.1 hr with hr | hr
        · obtain ⟨inner, hinner, rfl⟩ := List.mem_map.1 hr
          exact ⟨0, inner.indices, rfl, hx.results o rfl p hp inner hinner⟩
        · obtain ⟨j, indices, hindices, hresult⟩ := hresults rest rfl p hp r hr
          refine ⟨j + 1, indices, ?_, hresult⟩
          rw [hindices, Nat.add_right_comm, Nat.add_assoc]
    · obtain ⟨course, hx⟩ := hc _ ⟨start, none, events, finish⟩ hstall
      refine ⟨fun steps => (course steps).map (.inside i), ?_, ?_, ?_⟩
      · intro p hp
        rw [List.range'_succ, List.flatMap_cons]
        exact ((hfirst hx hp).stalled rfl _).within
          ⟨Nat.le_refl start, fun hne => absurd rfl hne⟩
      · simp only [hevents]
        exact hx.events
      · intro os hos
        cases hos

/-- The rounds of an inner node and of those inside it: its own one, and others that are told
for each step. -/
def courseOf (x : Passage Outcome) (inner : Descent → List Descent → List (Round Outcome)) :
    List Descent → List (Round Outcome)
  | [] => [⟨[], x⟩]
  | d :: steps => inner d steps

/-- The rounds inside several children, given those inside each. -/
def coursesOf (courses : Nat → List Descent → List (Round Outcome)) :
    Descent → List Descent → List (Round Outcome)
  | .child i, steps => courses i steps
  | .through, _ | .round _, _ => []

theorem exists_of_forall₂ {α β γ : Type} [Nonempty γ] {R : α → β → γ → Prop}
    {l : List α} {l' : List β} (h : List.Forall₂ (fun a b => ∃ c, R a b c) l l') :
    ∃ f : Nat → γ, ∀ (i : Nat) a b, l[i]? = some a → l'[i]? = some b → R a b (f i) := by
  induction h with
  | nil =>
    obtain ⟨c⟩ := ‹Nonempty γ›
    refine ⟨fun _ => c, fun i a b ha => ?_⟩
    cases ha
  | cons hab h ih =>
    obtain ⟨c, hc⟩ := hab
    obtain ⟨f, hf⟩ := ih
    refine ⟨fun i => i.casesOn c f, ?_⟩
    intro i a b ha hb
    cases i with
    | zero =>
      cases ha
      cases hb
      exact hc
    | succ i => exact hf i a b ha hb

theorem shuffle_placesOf {courses : Nat → List Descent → List (Round Outcome)} {es : List Event}
    (hlength : xs.length = children.length)
    (hcourses : ∀ (i : Nat) c y, children[i]? = some c → xs[i]? = some y →
      c.Unrolls settings ctx y (courses i))
    (hes : Shuffle (xs.map (·.events)) es)
    (hcourse : ∀ i steps, course (.child i :: steps) = courses i steps) :
    Shuffle
      (((placesOf children 0).filter (·.isStage)).map fun p =>
        (course p.steps).flatMap (·.passage.events))
      es := by
  rw [map_stages_placesOf]
  apply hes.flatten
  rw [List.forall₂_map_left_iff, List.forall₂_map_right_iff]
  apply forall₂_of_getElem?
  · rw [List.length_zipIdx, hlength]
  · intro i y c hy hc
    rw [List.getElem?_zipIdx, Nat.zero_add] at hc
    obtain ⟨c, hchild, rfl⟩ := Option.map_eq_some_iff.1 hc
    simp only [Place.under, hcourse]
    exact (hcourses i c y hchild hy).events

theorem inside_of_completes {k : Nat} {d : Descriptor} {os? : Option (List Outcome)}
    (hmap : x.result = os?.map (Outcome.aggregate d))
    (hcompletes : ∀ os, os? = some os → Completes x.start k os x.finish xs)
    {y : Passage Outcome} (hy : y ∈ xs) (hstart : x.start ≤ y.start) : y.Inside x := by
  refine ⟨hstart, fun hx => ?_⟩
  obtain ⟨os, rfl⟩ : ∃ os, os? = some os := by
    rw [hmap] at hx
    exact Option.ne_none_iff_exists'.1 fun hnone => hx (by rw [hnone]; rfl)
  obtain ⟨hresults, _, hfinish⟩ := hcompletes os rfl
  constructor
  · have hmem : y.result ∈ os.map some := by
      rw [hresults]
      exact List.mem_map_of_mem hy
    intro hnone
    rw [hnone] at hmem
    simp at hmem
  · rw [hfinish]
    exact le_latest_of_mem (List.mem_map_of_mem hy)

theorem unrolls_around {inner : List Place} (hplaces : n.places = ⟨n, []⟩ :: inner)
    (hkind : Place.isStage ⟨n, []⟩ = false) (h : x.Of (n.execute settings ctx))
    (hself : course [] = [⟨[], x⟩])
    (hrounds : ∀ p ∈ inner,
      Sequential (fun indices => p.node.execute settings (ctx.iterated indices))
        (rounds p.times) x (course p.steps))
    (hevents : Shuffle
      ((inner.filter (·.isStage)).map fun p => (course p.steps).flatMap (·.passage.events))
      x.events)
    (hresults : ∀ o, x.result = some o → ∀ p ∈ inner, ∀ r ∈ course p.steps,
      outcome? p.steps r.indices o = r.passage.result) : n.Unrolls settings ctx x course := by
  constructor
  case rounds =>
    rw [hplaces, List.forall_mem_cons, hself]
    exact ⟨.single h, hrounds⟩
  case events =>
    rw [hplaces, filter_isStage_inner hkind]
    exact hevents
  case results =>
    intro o ho
    rw [hplaces, List.forall_mem_cons, hself, List.forall_mem_singleton]
    exact ⟨ho.symm, hresults o ho⟩

theorem unrolls_stage {s : Stage} (h : x.Of ((stage s).execute settings ctx)) :
    (stage s).Unrolls settings ctx x (courseOf x fun _ _ => []) where
  rounds := List.forall_mem_singleton.2 (.single h)
  events := by
    have hone : ([⟨stage s, []⟩] : List Place).filter (·.isStage) = [⟨stage s, []⟩] := rfl
    rw [places, hone, List.map_singleton, courseOf, List.flatMap_singleton]
    exact .single _
  results o ho := List.forall_mem_singleton.2 (List.forall_mem_singleton.2 ho.symm)

/-- Side by side each child has the rounds that it has on its own. -/
theorem unrolls_synchronizer {fan : FanOutSettings} (hlimit : fan.maxConcurrency ≠ some 0)
    (hchildren : ∀ c ∈ children, ∀ y : Passage Outcome, y.Of (c.execute settings ctx) →
      ∃ course, c.Unrolls settings ctx y course)
    (h : x.Of ((synchronizer children fan).execute settings ctx)) :
    ∃ course, (synchronizer children fan).Unrolls settings ctx x course := by
  have hself := h
  rw [Passage.Of, execute_synchronizer] at h
  obtain ⟨os?, hfan, hmap⟩ := passes_map h
  obtain ⟨xs, hxs, hshuffle, hcompletes⟩ := passes_fanOut hlimit hfan
  rw [List.forall₂_map_left_iff] at hxs
  have hexists :
      List.Forall₂ (fun c y => ∃ course, Unrolls c settings ctx y course) children xs := by
    apply ((List.forall₂_and_left _ _).2 ⟨fun _ hc => hc, hxs⟩).imp
    intro c y hy
    rcases hy.2.2 with hpassed | hidle
    · exact hchildren c hy.1 y hpassed
    · exact ⟨_, unrolls_idle hidle⟩
  obtain ⟨courses, hcourses⟩ := exists_of_forall₂ hexists
  have hchild {i : Nat} {c : Node} (hc : children[i]? = some c) :
      ∃ y, xs[i]? = some y ∧ y.Inside x ∧ c.Unrolls settings ctx y (courses i) := by
    obtain ⟨y, hy, hstart, _⟩ := forall₂_getElem? hxs hc
    exact ⟨y, hy, inside_of_completes hmap hcompletes (List.mem_of_getElem? hy) hstart,
      hcourses i c y hc hy⟩
  refine ⟨courseOf x (coursesOf courses), unrolls_around rfl rfl hself rfl ?_ ?_ ?_⟩
  · intro p hp
    obtain ⟨i, c, q, hc, hq, rfl⟩ := mem_placesOf.1 hp
    rw [Nat.zero_add]
    obtain ⟨y, _, hinside, hunrolls⟩ := hchild hc
    exact (hunrolls.rounds q hq).within hinside
  · exact shuffle_placesOf hxs.length_eq.symm hcourses hshuffle fun _ _ => rfl
  · intro o ho p hp r hr
    obtain ⟨i, c, q, hc, hq, rfl⟩ := mem_placesOf.1 hp
    rw [Nat.zero_add] at hr ⊢
    obtain ⟨y, hy, _, hunrolls⟩ := hchild hc
    rw [hmap] at ho
    obtain ⟨os, rfl, rfl⟩ := Option.map_eq_some_iff.1 ho
    have hresult := congrArg (fun results => results[i]?) (hcompletes os rfl).results
    simp only [List.getElem?_map, hy, Option.map_some] at hresult
    obtain ⟨o, ho, hresult⟩ := Option.map_eq_some_iff.1 hresult
    change os[i]?.bind _ = _
    rw [ho]
    exact hunrolls.results o hresult.symm q hq r hr

theorem unrolls_passthrough (hc : ∃ course, c.Unrolls settings ctx x course)
    (h : x.Of ((wrap passthroughWrapper c).execute settings ctx)) :
    ∃ course, (wrap passthroughWrapper c).Unrolls settings ctx x course := by
  obtain ⟨course, hx⟩ := hc
  refine ⟨courseOf x fun _ => course, unrolls_around rfl rfl h rfl ?_ ?_ ?_⟩
  · exact List.forall_mem_map.2 hx.rounds
  · rw [filter_isStage_under, List.map_map]
    exact hx.events
  · intro o ho
    exact List.forall_mem_map.2 (hx.results o ho)

/-- A repeat has the rounds of its child in each iteration, one iteration after another. -/
theorem unrolls_repeat {times : Nat}
    (hc : ∀ ctx x, x.Of (c.execute settings ctx) → ∃ course, c.Unrolls settings ctx x course)
    (h : x.Of ((wrap (repeatWrapper times) c).execute settings ctx)) :
    ∃ course, (wrap (repeatWrapper times) c).Unrolls settings ctx x course := by
  obtain ⟨os?, hos, hmap⟩ := passes_map h
  obtain ⟨course, hrounds, hshuffle, hresults⟩ :=
    rounds_repeatFrom hc (y := ⟨x.start, os?, x.events, x.finish⟩) hos
  have hplaces : (wrap (repeatWrapper times) c).places =
      ⟨wrap (repeatWrapper times) c, []⟩ :: c.places.map (Place.under (.round times)) := by
    rw [places, times_repeatWrapper]
    rfl
  refine ⟨courseOf x fun _ => course, unrolls_around hplaces rfl h rfl ?_ ?_ ?_⟩
  · rw [List.forall_mem_map]
    intro p hp
    have hiterations := (hrounds p hp).within (z := x)
      ⟨Nat.le_refl _,
        fun hx => ⟨fun hnone => hx (hmap.trans (congrArg (Option.map _) hnone)), Nat.le_refl _⟩⟩
    rw [← List.range_eq_range'] at hiterations
    exact hiterations
  · rw [filter_isStage_under, List.map_map]
    exact hshuffle
  · intro o ho
    rw [List.forall_mem_map]
    intro p hp r hr
    rw [hmap] at ho
    obtain ⟨os, rfl, rfl⟩ := Option.map_eq_some_iff.1 ho
    obtain ⟨j, indices, hindices, hresult⟩ := hresults os rfl p hp r hr
    rw [hindices, Nat.zero_add]
    exact hresult

theorem unrolls_generator {g : Generator} (h : x.Of ((generator g).execute settings ctx)) :
    (generator g).Unrolls settings ctx x (courseOf x fun _ _ => []) := by
  apply unrolls_around rfl rfl h rfl (List.forall_mem_nil _)
  · obtain ⟨start, result, events, finish⟩ := x
    cases h
    exact .nil (List.forall_mem_nil _)
  · exact fun _ _ => List.forall_mem_nil _

theorem unrolls_execute (hn : n.Shaped) (h : x.Of (n.execute settings ctx)) :
    ∃ course, n.Unrolls settings ctx x course := by
  induction hn generalizing ctx x with
  | stage s => exact ⟨_, unrolls_stage h⟩
  | synchronizer hlimit _ ih =>
    exact unrolls_synchronizer hlimit (fun c hc _ hy => ih c hc hy) h
  | passthrough _ ih => exact unrolls_passthrough (ih h) h
  | repeated _ _ ih => exact unrolls_repeat (fun _ _ hx => ih hx) h
  | generator g => exact ⟨_, unrolls_generator h⟩

/-- When a run has ended, the children of what a repeat reports in a round are the results of
its iterations. -/
theorem Unrolls.iterations (h : n.Unrolls settings ctx x course) {o : Outcome}
    (ho : x.result = some o) {times : Nat} {steps : List Descent}
    (hp : ⟨wrap (repeatWrapper times) c, steps⟩ ∈ n.places) {r : Round Outcome}
    (hr : r ∈ course steps) {i : Nat} (hi : i < times) :
    ∃ r' ∈ course (steps ++ [.round times]),
      r'.indices = r.indices ++ [i] ∧
      r'.passage.result = r.passage.result.bind fun o' => o'.children[i]? := by
  have hq : ⟨c, steps ++ [.round times]⟩ ∈ n.places := by
    have hmem := wrapped_mem_places n hp
    rwa [times_repeatWrapper] at hmem
  have hends : x.result ≠ none := by simp [ho]
  have htimes : Place.times ⟨c, steps ++ [.round times]⟩ =
      Place.times ⟨wrap (repeatWrapper times) c, steps⟩ ++ [times] := by
    rw [Place.times, List.filterMap_append]
    rfl
  have hindices := mem_rounds.1 ((h.rounds _ hp).order.subset (List.mem_map_of_mem hr))
  have hround :
      r.indices ++ [i] ∈ Activity.rounds (Place.times ⟨c, steps ++ [.round times]⟩) := by
    rw [mem_rounds, htimes]
    exact List.rel_append hindices (.cons hi .nil)
  rw [← (h.rounds _ hq).complete hends] at hround
  obtain ⟨r', hr', heq⟩ := List.mem_map.1 hround
  refine ⟨r', hr', heq, ?_⟩
  rw [← h.results o ho _ hq r' hr', heq, outcome?_round hindices.length_eq,
    h.results o ho _ hp r hr]

end Node

/-- Repetition is scoped and sequential. A run of a pipeline, whether it ends or not, is made of
rounds of its nodes: one after another, in the order of the iterations of the repeats around it,
each node is executed with the values of the caller, but for the variable `iteration`, which is
that of the innermost repeat around it if there is any. The repeats around a node are those of
its document that it is inside of, each with the number that it is configured to repeat. When
the run ends there has been one round for each choice of iterations, whatever came of those
before it, the children of what a repeat reports are the results of its iterations, and all that
was counted in the rounds is counted in the table of the run. -/
theorem execute_unrolled (registry : Registry)
    (hw : registry.wrappers = Registry.builtin.wrappers) (schema : Schema)
    (context : BuildContext) (n : Node)
    (hn : (buildPipeline registry schema context).result = .ok n) (settings : RunSettings)
    (ctx : RunContext) (w : World) :
    ((settings.stageTimeoutMs = none → ∀ s ∈ n.stages, s.Settles) →
      ∃ o w', (n.execute settings ctx).run w = some (o, w')) ∧
    (∃ finish course, n.Unrolls settings ctx
        { start := w.now
          result := ((n.execute settings ctx).run w).map (·.1)
          events := (n.execute settings ctx).history w
          finish } course ∧
      ∀ o w', (n.execute settings ctx).run w = some (o, w') → finish = w'.now ∧
        (∀ p ∈ n.places, (course p.steps).map (·.indices) = rounds p.times ∧
          (course p.steps).length = p.times.prod) ∧
        (∀ times c steps, ⟨.wrap (repeatWrapper times) c, steps⟩ ∈ n.places →
          ∀ r ∈ course steps, ∀ i < times,
          ∃ r' ∈ course (steps ++ [.round times]), r'.indices = r.indices ++ [i] ∧
            r'.passage.result = r.passage.result.bind fun o' => o'.children[i]?) ∧
        ∀ place, w'.metrics.at? place =
          (counted place ((n.execute settings ctx).history w)).foldl recount
            (w.metrics.at? place)) ∧
    ((n.places.filter (·.isStage)).map (·.node) = n.stages.map .stage ∧
      ∀ p ∈ n.places, p.times = schema.timesTo p.hops ∧
        ∀ s, p.node = .stage s → s.path.hops = p.hops) ∧
    (∀ times, (rounds times).Pairwise (· < ·) ∧
      ∀ indices, indices ∈ rounds times ↔ List.Forall₂ (· < ·) indices times) ∧
    (∀ indices, (ctx.iterated indices).runId = ctx.runId) ∧ ctx.iterated [] = ctx ∧
    (∀ indices i key, (ctx.iterated (indices ++ [i])).bindings.get? key =
      if key = "iteration" then some (.nat i) else ctx.bindings.get? key) ∧
    ∀ (s : Stage) seen other, (s.seeing seen).execute settings other =
      s.execute settings seen := by
  have hshape := (buildPipeline_builtAt hn).shaped hw
  refine ⟨fun hsettles => Node.run_isSome hshape hsettles ctx w, ?_,
    ⟨n.stages_places, fun p hp => placed_of_built hw hn hp⟩,
    fun times => ⟨pairwise_rounds times, fun _ => mem_rounds⟩, ctx.runId_iterated, rfl,
    ctx.get?_iterated, fun s seen other => s.execute_seeing settings seen other⟩
  obtain ⟨finish, hpasses, hfinish⟩ := passes_history (n.execute settings ctx) w
  have hof : Passage.Of ⟨w.now, ((n.execute settings ctx).run w).map (·.1),
    (n.execute settings ctx).history w, finish⟩
    (n.execute settings ctx) := hpasses
  obtain ⟨course, hunrolls⟩ := Node.unrolls_execute hshape hof
  refine ⟨finish, course, hunrolls, ?_⟩
  intro o w' hrun
  refine ⟨hfinish _ hrun, ?_, ?_, ?_⟩
  · intro p hp
    have hcomplete := (hunrolls.rounds p hp).complete (by simp [hrun])
    refine ⟨hcomplete, ?_⟩
    rw [← length_rounds, ← hcomplete, List.length_map]
  · intro times c steps hp r hr i hi
    exact hunrolls.iterations (congrArg (Option.map (·.1)) hrun) hp hr hi
  · intro place
    rw [counted_history]
    exact at?_run hrun place

/-- A stage under two repeats, beside one that is run once. -/
def nestedRepeats : Schema where
  component := some "synchronizer"
  children :=
    [{ component := some "wrap"
       config := some (.object [("wrapper", .object [("name", .string "repeat"),
         ("config", .object [("times", .nat 2)])])])
       child := some repeatedStage },
      { generator := some ⟨"increment", none⟩, datajet := some ⟨"discard", none⟩ }]

theorem execute_unrolled_nestedRepeats :
    Registry.builtin.wrappers = Registry.builtin.wrappers ∧ ∃ n,
    (buildPipeline Registry.builtin nestedRepeats (.mk "" "" {} none none)).result = .ok n ∧
      ∃ o w' finish course,
      (n.execute { stageTimeoutMs := some 1 } {}).run {} = some (o, w') ∧
      n.Unrolls { stageTimeoutMs := some 1 } {}
        ⟨0, some o, (n.execute { stageTimeoutMs := some 1 } {}).history {}, finish⟩ course ∧
      (∃ s, ⟨.stage s, [.child 0, .round 2, .round 2]⟩ ∈ n.places) ∧
      nestedRepeats.timesTo [.child, .child, .children 0] = [2, 2] ∧
      (course [.child 0, .round 2, .round 2]).map (·.indices) =
        [[0, 0], [0, 1], [1, 0], [1, 1]] ∧
      (∃ s, ⟨.stage s, [.child 1]⟩ ∈ n.places) ∧ nestedRepeats.timesTo [.children 1] = [] ∧
      (course [.child 1]).map (·.indices) = [[]] := by
  have hbuild :
      ∃ n, (buildPipeline Registry.builtin nestedRepeats (.mk "" "" {} none none)).result =
      .ok n ∧ (∃ s, ⟨.stage s, [.child 0, .round 2, .round 2]⟩ ∈ n.places) ∧
      ∃ s, ⟨.stage s, [.child 1]⟩ ∈ n.places :=
    ⟨_, rfl, ⟨_, .tail _ (.tail _ (.tail _ (.head _)))⟩,
      ⟨_, .tail _ (.tail _ (.tail _ (.tail _ (.head _))))⟩⟩
  obtain ⟨n, hn, ⟨s, hs⟩, ⟨s', hs'⟩⟩ := hbuild
  obtain ⟨hruns, ⟨finish, course, hunrolls, hends⟩, ⟨_, hplaced⟩, _⟩ :=
    execute_unrolled Registry.builtin rfl nestedRepeats (.mk "" "" {} none none) n hn
      { stageTimeoutMs := some 1 } {} {}
  obtain ⟨o, w', hrun⟩ := hruns nofun
  obtain ⟨_, hcomplete, _⟩ := hends o w' hrun
  rw [hrun] at hunrolls
  exact ⟨rfl, n, hn, o, w', finish, course, hrun, hunrolls, ⟨s, hs⟩, (hplaced _ hs).1.symm,
    (hcomplete _ hs).1, ⟨s', hs'⟩, (hplaced _ hs').1.symm, (hcomplete _ hs').1⟩

end DataPipeline

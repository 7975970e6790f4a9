import DataPipeline.Proofs.Node.Results
import DataPipeline.Proofs.Run.Passage

namespace DataPipeline

open Activity

theorem passes_repeatFrom {child : Execution} {settings : RunSettings} {ctx : RunContext}
    {n i t t' : Nat} {r : Option (List Outcome)} {es : List Event}
    (h : (repeatFrom child settings ctx n i).Passes t r es t') :
    ∃ xs : List (Passage Outcome), (∀ x ∈ xs, ∃ ctx', x.Of (child settings ctx')) ∧
      es = (xs.map (·.events)).flatten ∧
      ∀ os, r = some os → os.map some = xs.map (·.result) := by
  induction n generalizing i t r es with
  | zero =>
    rw [repeatFrom] at h
    cases h
    refine ⟨[], by simp, rfl, ?_⟩
    rintro os ⟨rfl⟩
    rfl
  | succ n ih =>
    rw [repeatFrom] at h
    rcases passes_bind h with ⟨o, es₁, t₁, es₂, ho, hrest, rfl⟩ | ⟨rfl, hstall⟩
    · rcases passes_bind hrest with ⟨os, es₃, t₃, es₄, hos, hdone, rfl⟩ | ⟨rfl, hos⟩
      · cases hdone
        obtain ⟨xs, hxs, rfl, hresults⟩ := ih hos
        refine ⟨⟨t, some o, es₁, t₁⟩ :: xs, List.forall_mem_cons.2 ⟨⟨_, ho⟩, hxs⟩, by simp, ?_⟩
        rintro os' ⟨rfl⟩
        rw [List.map_cons, List.map_cons, hresults os rfl]
      · obtain ⟨xs, hxs, rfl, _⟩ := ih hos
        exact ⟨⟨t, some o, es₁, t₁⟩ :: xs, List.forall_mem_cons.2 ⟨⟨_, ho⟩, hxs⟩,
          by simp, by simp⟩
    · refine ⟨[⟨t, none, es, t'⟩], ?_, by simp, by simp⟩
      rw [List.forall_mem_singleton]
      exact ⟨_, hstall⟩

/-- A run of a stage in the course of a run of a tree. -/
structure StageRun where
  stage : Stage
  ctx : RunContext
  passage : Passage Outcome

/-- A passage of a tree consists of runs of its stages. -/
structure Node.Consists (n : Node) (settings : RunSettings) (x : Passage Outcome)
    (rs : List StageRun) :
    Prop where
  runs : ∀ r ∈ rs, r.stage ∈ n.stages ∧ r.passage.Of (r.stage.execute settings r.ctx)
  events : Shuffle (rs.map (·.passage.events)) x.events
  results : ∀ o, x.result = some o →
    (n.results o).map (fun q => (q.1, some q.2)) = rs.map fun r => (r.stage, r.passage.result)

namespace Node

variable {n : Node} {nodes : List Node} {settings : RunSettings} {ctx : RunContext}
  {x : Passage Outcome} {xs : List (Passage Outcome)} {es : List Event}

theorem consists_idle (h : x.Idle) : n.Consists settings x [] where
  runs := nofun
  events := by
    rw [h.2]
    exact .nil nofun
  results o ho := by
    rw [h.1] at ho
    cases ho

/-- Of the passages of several nodes, each consists of runs of its stages. -/
theorem consists_groups
    (h : List.Forall₂ (fun n x => ∃ rs, Consists n settings x rs) nodes xs) :
    ∃ groups : List (List StageRun),
      List.Forall₂ (fun x rs => Shuffle (rs.map (·.passage.events)) x.events) xs groups ∧
      (∀ r ∈ groups.flatten, r.stage ∈ stagesOf nodes ∧
        r.passage.Of (r.stage.execute settings r.ctx)) ∧
      ∀ os, os.map some = xs.map (·.result) →
        (resultsOf nodes os).map (fun q => (q.1, some q.2)) =
        groups.flatten.map fun r => (r.stage, r.passage.result) := by
  induction h with
  | nil =>
    refine ⟨[], .nil, nofun, ?_⟩
    intro os hos
    rw [List.map_eq_nil_iff.1 hos]
    rfl
  | @cons n x nodes xs hx h ih =>
    obtain ⟨rs, hx⟩ := hx
    obtain ⟨groups, hevents, hruns, hresults⟩ := ih
    refine ⟨rs :: groups, .cons hx.events hevents, ?_, ?_⟩
    · rw [List.flatten_cons, List.forall_mem_append]
      constructor
      · intro r hr
        exact ⟨List.mem_append_left _ (hx.runs r hr).1, (hx.runs r hr).2⟩
      · intro r hr
        exact ⟨List.mem_append_right _ (hruns r hr).1, (hruns r hr).2⟩
    · intro os hos
      cases os with
      | nil => cases hos
      | cons o os =>
        rw [List.map_cons, List.map_cons, List.cons.injEq] at hos
        rw [resultsOf, List.map_append, List.flatten_cons, List.map_append,
          hx.results o hos.1.symm, hresults os hos.2]

theorem consists_shuffle (h : List.Forall₂ (fun n x => ∃ rs, Consists n settings x rs) nodes xs)
    (hes : Shuffle (xs.map (·.events)) es) : ∃ rs : List StageRun,
      (∀ r ∈ rs, r.stage ∈ stagesOf nodes ∧ r.passage.Of (r.stage.execute settings r.ctx)) ∧
      Shuffle (rs.map (·.passage.events)) es ∧
      ∀ os, os.map some = xs.map (·.result) →
        (resultsOf nodes os).map (fun q => (q.1, some q.2)) =
        rs.map fun r => (r.stage, r.passage.result) := by
  obtain ⟨groups, hevents, hruns, hresults⟩ := consists_groups h
  refine ⟨groups.flatten, hruns, ?_, hresults⟩
  rw [List.map_flatten]
  apply hes.flatten
  rw [List.forall₂_map_left_iff, List.forall₂_map_right_iff]
  exact hevents

theorem resultsOf_replicate (os : List Outcome) :
    resultsOf (List.replicate os.length n) os = os.flatMap n.results := by
  induction os with
  | nil => rfl
  | cons o os ih => rw [List.length_cons, List.replicate_succ, resultsOf, ih, List.flatMap_cons]

theorem mem_stagesOf_replicate {s : Stage} {k : Nat} (h : s ∈ stagesOf (List.replicate k n)) :
    s ∈ n.stages := by
  induction k with
  | zero => cases h
  | succ k ih =>
    rcases List.mem_append.1 h with h | h
    · exact h
    · exact ih h

theorem forall₂_replicate {α β : Type} {R : α → β → Prop} {a : α} {l : List β}
    (h : ∀ b ∈ l, R a b) :
    List.Forall₂ R (List.replicate l.length a) l := by
  induction l with
  | nil => exact .nil
  | cons b l ih =>
    rw [List.forall_mem_cons] at h
    exact .cons h.1 (ih h.2)

theorem consists_aggregate {p : Activity (List Outcome)} {d : Descriptor}
    (hp : ∀ r es t', p.Passes x.start r es t' → ∃ nodes xs,
      List.Forall₂ (fun n x => ∃ rs, Consists n settings x rs) nodes xs ∧
      Shuffle (xs.map (·.events)) es ∧
      (∀ os, r = some os → os.map some = xs.map (·.result)) ∧
      (∀ s ∈ stagesOf nodes, s ∈ n.stages) ∧
      ∀ os, os.length = nodes.length → n.results (Outcome.aggregate d os) = resultsOf nodes os)
    (h : x.Of (p.bind fun os => .done (Outcome.aggregate d os))) :
    ∃ rs, n.Consists settings x rs := by
  obtain ⟨r, hpasses, hmap⟩ := passes_map h
  obtain ⟨nodes, xs, hxs, hshuffle, hends, hstages, hinner⟩ := hp _ _ _ hpasses
  obtain ⟨rs, hruns, hevents, hresults⟩ := consists_shuffle hxs hshuffle
  refine ⟨rs, fun r hr => ⟨hstages _ (hruns r hr).1, (hruns r hr).2⟩, hevents, ?_⟩
  intro o ho
  rw [hmap] at ho
  obtain ⟨os, rfl, rfl⟩ := Option.map_eq_some_iff.1 ho
  have hos := hends os rfl
  have hlength : os.length = nodes.length := by
    rw [hxs.length_eq, ← List.length_map (f := some), hos, List.length_map]
  rw [hinner os hlength]
  exact hresults os hos

/-- Whatever course a tree takes, it consists of runs of its stages. -/
theorem consists_execute (hn : n.Shaped) (h : x.Of (n.execute settings ctx)) :
    ∃ rs, n.Consists settings x rs := by
  induction hn generalizing ctx x with
  | stage s =>
    refine ⟨[⟨s, ctx, x⟩], ?_, Shuffle.single _, ?_⟩
    · rw [List.forall_mem_singleton]
      exact ⟨List.mem_singleton_self s, h⟩
    · intro o ho
      rw [results, List.map_singleton, List.map_singleton, ho]
  | @synchronizer children fan hlimit hchildren ih =>
    rw [Passage.Of, execute_synchronizer] at h
    apply consists_aggregate _ h
    intro r es t' hfan
    obtain ⟨xs, hxs, hshuffle, hcompletes⟩ := passes_fanOut hlimit hfan
    rw [List.forall₂_map_left_iff] at hxs
    refine ⟨children, xs, ?_, hshuffle, fun os hr => (hcompletes os hr).results, fun _ => id,
      fun _ _ => rfl⟩
    apply ((List.forall₂_and_left _ _).2 ⟨fun _ hc => hc, hxs⟩).imp
    intro c x hx
    rcases hx.2.2 with hpassed | hidle
    · exact ih c hx.1 hpassed
    · exact ⟨[], consists_idle hidle⟩
  | passthrough hchild ih =>
    obtain ⟨rs, hrs⟩ := ih h
    exact ⟨rs, hrs.runs, hrs.events, hrs.results⟩
  | @repeated times c htimes hchild ih =>
    apply consists_aggregate _ h
    intro r es t' hrepeat
    obtain ⟨xs, hxs, rfl, hends⟩ := passes_repeatFrom hrepeat
    refine ⟨List.replicate xs.length c, xs, ?_, Shuffle.of_flatten _, hends,
      fun _ => mem_stagesOf_replicate, ?_⟩
    · apply forall₂_replicate
      intro x hx
      obtain ⟨ctx', hx⟩ := hxs x hx
      exact ih hx
    · intro os hlength
      rw [List.length_replicate] at hlength
      rw [results_repeated, ← hlength, resultsOf_replicate]
      rfl
  | generator g =>
    obtain ⟨start, result, events, finish⟩ := x
    cases h
    refine ⟨[], by simp, .nil (by simp), ?_⟩
    intro o _
    rfl

end Node

end DataPipeline

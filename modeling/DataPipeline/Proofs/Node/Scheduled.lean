import DataPipeline.Plugin.Datajets
import DataPipeline.Proofs.Node.Reports
import DataPipeline.Proofs.Run.Schedule

namespace DataPipeline

open Activity

/-- Passages keep to the schedule of activities that last for some times and of which at most
`k` run at once. -/
structure Activity.Scheduled {α : Type} (start k : Nat) (ds : List Nat) (finish : Nat)
    (xs : List (Passage α)) :
    Prop where
  starts : Spaced start k xs
  lasts : List.Forall₂ (fun (x : Passage α) d => x.finish = x.start + d) xs ds
  room : ∀ time, xs.countP (·.runsAt time) ≤ k
  ordered : (xs.map (·.start)).Pairwise (· ≤ ·)
  latest : finish = latest start (xs.map (·.finish))
  elapsed : finish = start + makespan k ds

namespace Node

variable {children : List Node} {fan : FanOutSettings} {settings : RunSettings}
  {ctx : RunContext} {ds : List Nat}

theorem lasts_synchronizer (hlimit : fan.maxConcurrency ≠ some 0)
    (h : List.Forall₂ (fun c d => (c.execute settings ctx).Lasts d) children ds) :
    ((synchronizer children fan).execute settings ctx).Lasts
      (makespan (fan.maxConcurrency.getD children.length) ds) := by
  have hfan := lasts_fanOut hlimit (List.forall₂_map_left_iff.2 h)
  rw [List.length_map] at hfan
  rw [execute_synchronizer]
  apply Ensures.bind
  apply Ensures.mono hfan
  intro _ elapsed helapsed
  exact helapsed

theorem completes_synchronizer (hlimit : fan.maxConcurrency ≠ some 0) {o : Outcome}
    {w w' : World}
    (hrun : ((synchronizer children fan).execute settings ctx).run w = some (o, w')) :
    ∃ xs : List (Passage Outcome),
      List.Forall₂ (fun c x => x.Of (c.execute settings ctx)) children xs ∧
      Shuffle (xs.map (·.events))
        (((synchronizer children fan).execute settings ctx).history w) ∧
      Completes w.now (fan.maxConcurrency.getD children.length) o.children w'.now xs := by
  have hpasses := passes_of_run hrun
  generalize ((synchronizer children fan).execute settings ctx).history w = es at hpasses
  rw [execute_synchronizer] at hpasses
  rcases passes_bind hpasses with ⟨os, es₁, t₁, es₂, hfan, hdone, rfl⟩ | ⟨hnone, _⟩
  · cases hdone
    obtain ⟨xs, hxs, hshuffle, hcompletes⟩ := passes_fanOut hlimit hfan
    rw [List.length_map] at hcompletes
    have hcompletes := hcompletes os rfl
    have hpassed := hcompletes.of hxs
    rw [List.forall₂_map_left_iff] at hpassed
    rw [List.append_nil]
    exact ⟨xs, hpassed, hshuffle, hcompletes⟩
  · cases hnone

/-- The children of a synchronizer take turns, each with a passage of its own, and keep to their
schedule: a child starts when all have ended up to the one that is as many places before it as
may run at once, and lasts as long as it does anyway; no more of them run at any time, they
start in order, and the last to end ends the synchronizer. With a greater limit it ends no
later; with room for one it lasts as long as its children together, and with room for all as
long as the longest. -/
theorem synchronizer_scheduled (children : List Node) (settings : RunSettings)
    (ctx : RunContext) (ds : List Nat)
    (h : List.Forall₂ (fun c d => (c.execute settings ctx).Lasts d) children ds) :
    (∀ fan : FanOutSettings, fan.maxConcurrency ≠ some 0 →
      ((synchronizer children fan).execute settings ctx).Lasts
        (makespan (fan.maxConcurrency.getD children.length) ds) ∧
      ∀ w : World, ∃ o w' xs, ((synchronizer children fan).execute settings ctx).run w =
        some (o, w') ∧
        List.Forall₂ (fun c x => x.Of (c.execute settings ctx)) children xs ∧
        Shuffle (xs.map (·.events))
          (((synchronizer children fan).execute settings ctx).history w) ∧
        o.children.map some = xs.map (·.result) ∧
        Scheduled w.now (fan.maxConcurrency.getD children.length) ds w'.now xs) ∧
    (∀ k k', 0 < k → k ≤ k' → makespan k' ds ≤ makespan k ds) ∧
    makespan 1 ds = ds.sum ∧
    ∀ fan : FanOutSettings, (∀ k ∈ fan.maxConcurrency, children.length ≤ k) →
      makespan (fan.maxConcurrency.getD children.length) ds = ds.foldr max 0 := by
  apply And.intro
  · intro fan hlimit
    apply And.intro (lasts_synchronizer hlimit h)
    intro w
    obtain ⟨o, w', hrun, hle, hnow⟩ := Ensures.run (lasts_synchronizer hlimit h) w
    obtain ⟨xs, hxs, hshuffle, hcompletes⟩ := completes_synchronizer hlimit hrun
    have hlasts :=
      forall₂_finish_eq (List.forall₂_map_left_iff.2 hxs) (List.forall₂_map_left_iff.2 h)
    have hroom : xs ≠ [] → 0 < fan.maxConcurrency.getD children.length := by
      intro hne
      rw [hxs.length_eq]
      exact getD_pos hlimit fun h => hne (List.eq_nil_of_length_eq_zero h)
    refine ⟨o, w', xs, hrun, hxs, hshuffle, hcompletes.results, ?_⟩
    constructor
    case starts => exact hcompletes.starts
    case lasts => exact hlasts
    case room => exact hcompletes.starts.countP_runsAt_le hroom
    case ordered => exact hcompletes.starts.pairwise_start
    case latest => exact hcompletes.finish
    case elapsed => omega
  refine ⟨fun k k' _ hle => makespan_antitone hle, makespan_one, ?_⟩
  intro fan hall
  apply makespan_all
  rw [← h.length_eq]
  cases hmax : fan.maxConcurrency with
  | none => exact Nat.le_refl _
  | some k => exact hall k hmax

/-- A stage with nothing to do whose generator takes a while to answer. -/
def restingStage (d : Nat) : Stage where
  path := .root
  generator :=
    { name := "rest", validate := fun _ => .sleep d (.done .passed), batches :=
      fun _ => .empty }
  datajet := discardDatajet
  settings := {}

/-- With room for two, the third of three children starts when the first has ended, even if the
second has ended before. -/
theorem synchronizer_scheduled_threeStages :
    ∃ (o : Outcome) (w' : World) (xs : List (Passage Outcome)),
    ((synchronizer
      [.stage (restingStage 30), .stage (restingStage 10), .stage (restingStage 20)]
      { maxConcurrency := some 2 }).execute {} {}).run { now := 5 } = some (o, w') ∧
    Scheduled 5 2 [30, 10, 20] w'.now xs ∧ xs.map (·.finish) = [35, 15, 55] ∧ w'.now = 55 ∧
    makespan 2 [30, 10, 20] = 50 ∧ makespan 1 [30, 10, 20] = 60 ∧
    makespan 3 [30, 10, 20] = 30 := by
  have hlasts (d : Nat) : ((Node.stage (restingStage d)).execute {} {}).Lasts d := fun _ => rfl
  obtain ⟨hruns, _, hone, hall⟩ := synchronizer_scheduled
    [.stage (restingStage 30), .stage (restingStage 10), .stage (restingStage 20)] {}
      {} [30, 10, 20]
    (.cons (hlasts 30) (.cons (hlasts 10) (.cons (hlasts 20) .nil)))
  obtain ⟨_, hrun⟩ := hruns { maxConcurrency := some 2 } nofun
  obtain ⟨o, w', xs, hrun, _, _, _, hscheduled⟩ := hrun { now := 5 }
  have hfinish := hscheduled.starts.map_finish (fun _ => Nat.two_pos) hscheduled.lasts
  exact ⟨o, w', xs, hrun, hscheduled, hfinish, hscheduled.elapsed, rfl, hone, hall {} nofun⟩

end Node

end DataPipeline

import DataPipeline.Proofs.Node.Results
import DataPipeline.Proofs.Node.Watched
import DataPipeline.Proofs.Run.Counters
import Mathlib.Data.Multiset.Filter

namespace DataPipeline

open Activity

/-- What is counted once for a run of a stage. -/
def Outcome.occurrence (q : Outcome) : Occurrence :=
  if q.isValidationSuccess then .call (!q.isExecutionSuccess) else .invalid

/-- Actions count, at a place and under a name, the batches that are written into its ledger and
other occurrences; there is nothing at other places. -/
structure Tallies (place name : String) (ops : Multiset Op) (taken : Multiset Batch)
    (others : Multiset Occurrence) : Prop where
  counted : ∀ p, ops.filterMap (Op.counted? p) =
    if p = place then
      (taken.map (fun batch => Occurrence.batch batch.length) + others).map (name, ·)
    else 0
  offered : ∀ p, ops.filterMap (Op.offered? (ledger p)) = if p = place then taken else 0

section

variable {place name : String} {ops ops' : Multiset Op} {taken taken' : Multiset Batch}
  {others others' : Multiset Occurrence} {α β : Type} {p : Activity α} {f : α → Activity β}

theorem Tallies.add (h : Tallies place name ops taken others)
    (h' : Tallies place name ops' taken' others') :
    Tallies place name (ops + ops') (taken + taken') (others + others') where
  counted p := by
    rw [Multiset.filterMap_add, h.counted, h'.counted]
    split
    · simp only [Multiset.map_add]
      ac_rfl
    · rfl
  offered p := by
    rw [Multiset.filterMap_add, h.offered, h'.offered]
    split
    · rfl
    · rfl

theorem filterMap_eq_zero {γ : Type} {g : Op → Option γ} (h : ∀ op ∈ ops, g op = none) :
    ops.filterMap g = 0 := by
  induction ops using Multiset.induction with
  | empty => rfl
  | cons op ops ih =>
    rw [Multiset.filterMap_cons_none _ _ (h op (Multiset.mem_cons_self op ops))]
    exact ih fun op' hop => h op' (Multiset.mem_cons_of_mem hop)

theorem filterMap_singleton {γ : Type} (g : Op → Option γ) (op : Op) :
    ({op} : Multiset Op).filterMap g = ↑(g op).toList := by
  rw [← Multiset.coe_singleton, Multiset.filterMap_coe, List.filterMap_cons]
  cases g op with
  | none => rfl
  | some x => rfl

theorem tallies_plugin (h : ∀ op ∈ ops, op.OfPlugin) : Tallies place name ops 0 0 where
  counted p := by
    rw [filterMap_eq_zero fun op hop => (h op hop).counted? p]
    simp
  offered p := by
    rw [filterMap_eq_zero fun op hop => (h op hop).offered? (ledger p)]
    simp

theorem tallies_offer (hplace : ∀ p, place ≠ ledger p) (batch : Batch) :
    Tallies place name {.offer place batch} 0 0 where
  counted p := by
    rw [filterMap_singleton]
    simp [Op.counted?]
  offered p := by
    rw [filterMap_singleton]
    simp [Op.offered?, hplace p]

theorem tallies_count (o : Occurrence) : Tallies place name {.count place name o} 0 {o} where
  counted p := by
    rw [filterMap_singleton, Op.counted?]
    by_cases h : place = p
    · simp [h]
    · simp [h, Ne.symm h]
  offered p := by
    rw [filterMap_singleton]
    simp [Op.offered?]

theorem tallies_take (batch : Batch) :
    Tallies place name
      {.offer (ledger place) batch, .count place name (.batch batch.length)} {batch} 0 where
  counted p := by
    rw [Multiset.insert_eq_cons, Multiset.filterMap_cons_none _ _ rfl,
      (tallies_count _).counted]
    simp
  offered p := by
    rw [Multiset.insert_eq_cons, ← Multiset.singleton_add, Multiset.filterMap_add,
      filterMap_singleton, filterMap_singleton, Op.offered?, Op.offered?]
    by_cases h : place = p
    · simp [h]
    · have hledger : ledger place ≠ ledger p := fun heq => h (ledger_injective heq)
      simp [hledger, Ne.symm h]

/-- An activity counts and writes into the ledger what is taken while it runs, and no more. -/
def TakesOnly (place name : String) (p : Activity α) : Prop :=
  ∀ r ops, p.Does r ops → ∃ taken, Tallies place name ops taken 0

theorem takesOnly_done (a : α) : TakesOnly place name (.done a) := by
  intro r ops h
  cases h
  exact ⟨0, tallies_plugin (by simp)⟩

theorem Activity.OfPlugin.takesOnly (h : p.OfPlugin) : TakesOnly place name p :=
  fun _ _ hd => ⟨0, tallies_plugin (h.does hd)⟩

theorem TakesOnly.bind (hp : TakesOnly place name p) (hf : ∀ a, TakesOnly place name (f a)) :
    TakesOnly place name (p.bind f) := by
  intro r ops h
  rcases does_bind h with ⟨a, ops₁, ops₂, ha, hb, rfl⟩ | ⟨_, h⟩
  · obtain ⟨taken, htaken⟩ := hp _ _ ha
    obtain ⟨taken', htaken'⟩ := hf a _ _ hb
    exact ⟨taken + taken', htaken.add htaken'⟩
  · exact hp _ _ h

end

namespace Stage

variable {s : Stage} {settings : RunSettings} {ctx : RunContext} {name : String}

theorem takesOnly_deliver (hs : s.OfPlugins) (number : Nat) (item : Except Chain Batch) :
    TakesOnly s.path.text name (s.watched.deliver name ctx number item) := by
  cases item with
  | error c => exact takesOnly_done _
  | ok batch =>
    intro r ops h
    cases h with
    | @act _ _ _ ops earlier h =>
      have hoffer : Tallies s.path.text name {.offer s.path.text batch} 0 0 :=
        tallies_offer (text_ne_ledger s.path) batch
      rw [← Multiset.singleton_add]
      suffices hrest : ∃ taken, Tallies s.path.text name ops taken 0 by
        obtain ⟨taken, htaken⟩ := hrest
        exact ⟨_, hoffer.add htaken⟩
      change (((s.datajet.transmit earlier batch ctx).bind _).bind _).Does r ops at h
      rw [bind_bind] at h
      rcases does_bind h with ⟨result, ops₁, ops₂, hresult, hrest, rfl⟩ | ⟨_, hleft⟩
      · have hplugin : Tallies s.path.text name ops₁ 0 0 :=
          tallies_plugin ((hs.transmit earlier batch ctx).does hresult)
        cases result with
        | error c =>
          cases hrest
          exact ⟨_, hplugin.add (tallies_plugin (by simp))⟩
        | ok _ =>
          cases hrest with
          | act _ hrest =>
            cases hrest with
            | act _ hrest =>
              cases hrest
              exact ⟨_, hplugin.add (tallies_take batch)⟩
      · exact (hs.transmit earlier batch ctx).takesOnly _ _ hleft

theorem takesOnly_drainFrom (hs : s.OfPlugins) (n i : Nat) :
    TakesOnly s.path.text name
      (s.watched.drainFrom name ctx (s.generator.batches ctx) n i) := by
  induction n generalizing i with
  | zero => exact takesOnly_done []
  | succ n ih =>
    apply (hs.pull ctx i).takesOnly.bind
    intro item
    apply (takesOnly_deliver hs (i + 1) item).bind
    intro error
    cases error with
    | none => exact ih (i + 1)
    | some error =>
      dsimp only
      split
      · exact (ih (i + 1)).bind fun errors => takesOnly_done _
      · exact takesOnly_done _

theorem takesOnly_drain (hs : s.OfPlugins) :
    TakesOnly s.path.text name (s.watched.drain name ctx) :=
  takesOnly_drainFrom hs _ 0

theorem execution_verdict {first second : Option Verdict} :
    (s.verdict settings first second).isExecutionSuccess = true :=
  (((Outcome.judged_start _).recordVerdict _ _).recordVerdict _ _).execution

theorem tallies_proceed (hs : s.OfPlugins) {o q : Outcome} {ops : Multiset Op}
    (ho : o.isExecutionSuccess = true)
    (h : (s.watched.proceed (fun _ p => p.within settings.stageTimeoutMs) settings ctx o).Does
      (some q) ops) :
    ∃ taken, Tallies s.path.text (Node.stage s).name ops taken {q.occurrence} := by
  rw [proceed] at h
  dsimp only at h
  split at h
  next hinvalid =>
    cases h with
    | act _ hdone =>
      cases hdone
      have hq : { o with isExecutionSuccess := false }.occurrence = .invalid := by
        simpa [Outcome.occurrence] using hinvalid
      rw [hq]
      exact ⟨0, tallies_count .invalid⟩
  next hvalid =>
    obtain ⟨errors, ops₁, _, hdrain, hcount, rfl⟩ := does_bind_some h
    obtain ⟨taken, htaken⟩ := takesOnly_drain hs _ _ (does_within hdrain)
    cases hcount with
    | act _ hdone =>
      cases hdone
      rw [Outcome.foldl_fail]
      have hq (es : List String) : Outcome.occurrence { o with
          isExecutionSuccess := o.isExecutionSuccess && es.isEmpty
          errors := o.errors ++ es } = .call (!es.isEmpty) := by
        simpa [Outcome.occurrence, ho] using hvalid
      rw [hq]
      exact ⟨_, htaken.add (tallies_count _)⟩

theorem tallies_execute (hs : s.OfPlugins) {q : Outcome} {ops : Multiset Op}
    (h : (s.watched.execute settings ctx).Does (some q) ops) :
    ∃ taken, Tallies s.path.text (Node.stage s).name ops taken {q.occurrence} := by
  rw [execute_eq_executeIn] at h
  obtain ⟨first, ops₁, _, hfirst, hrest, rfl⟩ := does_bind_some h
  obtain ⟨second, ops₂, ops₃, hsecond, hproceed, rfl⟩ := does_bind_some hrest
  have hfirst : Tallies s.path.text (Node.stage s).name ops₁ 0 0 :=
    tallies_plugin ((hs.generator ctx).does (does_within hfirst))
  have hsecond : Tallies s.path.text (Node.stage s).name ops₂ 0 0 :=
    tallies_plugin ((hs.datajet ctx).does (does_within hsecond))
  obtain ⟨taken, htaken⟩ := tallies_proceed hs execution_verdict hproceed
  exact ⟨_, hfirst.add (hsecond.add htaken)⟩

end Stage

namespace Node

variable {n : Node} {run : Stage → Execution}
  {settings : RunSettings} {ctx : RunContext} {o : Outcome} {ops : Multiset Op}

/-- Parts of what was done, one for each result of a stage. -/
def Parts (run : Stage → Execution) (settings : RunSettings) (rs : List (Stage × Outcome))
    (ops : Multiset Op) : Prop :=
  ∃ parts, ops = List.sum parts ∧
    List.Forall₂ (fun r part => ∃ ctx, (run r.1 settings ctx).Does (some r.2) part) rs parts

theorem parts_nil : Parts run settings [] 0 := ⟨[], rfl, .nil⟩

theorem Parts.append {rs rs' : List (Stage × Outcome)} {ops ops' : Multiset Op}
    (h : Parts run settings rs ops) (h' : Parts run settings rs' ops') :
    Parts run settings (rs ++ rs') (ops + ops') := by
  obtain ⟨parts, rfl, hparts⟩ := h
  obtain ⟨parts', rfl, hparts'⟩ := h'
  exact ⟨parts ++ parts', List.sum_append.symm, List.rel_append hparts hparts'⟩

theorem parts_resultsOf {children : List Node} {rs : List (Outcome × Multiset Op)}
    (h : List.Forall₂ (fun n r => Parts run settings (n.results r.1) r.2) children rs) :
    Parts run settings (resultsOf children (rs.map (·.1))) (rs.map (·.2)).sum := by
  induction h with
  | nil => exact parts_nil
  | cons hn h ih =>
    rw [List.map_cons, List.map_cons, List.sum_cons, resultsOf]
    exact hn.append ih

theorem parts_flatMap {rs : List (Outcome × Multiset Op)}
    (h : ∀ r ∈ rs, Parts run settings (n.results r.1) r.2) :
    Parts run settings ((rs.map (·.1)).flatMap n.results) (rs.map (·.2)).sum := by
  induction rs with
  | nil => exact parts_nil
  | cons r rs ih =>
    rw [List.forall_mem_cons] at h
    rw [List.map_cons, List.map_cons, List.sum_cons, List.flatMap_cons]
    exact h.1.append (ih h.2)

/-- A tree does what its stages do in the runs whose results it has. -/
theorem parts_executeBy (hn : n.Shaped)
    (h : (n.executeBy run settings ctx).Does (some o) ops) :
    Parts run settings (n.results o) ops := by
  induction hn generalizing ctx o ops with
  | stage s => exact ⟨[ops], List.sum_singleton.symm, .cons ⟨ctx, h⟩ .nil⟩
  | @synchronizer children fan hlimit hchildren ih =>
    rw [executeBy_synchronizer] at h
    obtain ⟨os, ops, _, hos, hdone, rfl⟩ := does_bind_some h
    cases hdone
    obtain ⟨rs, rfl, hall, rfl⟩ := does_fanOut hlimit hos
    rw [List.forall₂_map_left_iff] at hall
    rw [add_zero, results]
    apply parts_resultsOf
    have hchild : ∀ c ∈ children, ∀ o ops, (c.executeBy run settings ctx).Does (some o) ops →
        Parts run settings (c.results o) ops :=
      fun c hc o ops hdoes => ih c hc hdoes
    apply ((List.forall₂_and_left _ _).2 ⟨hchild, hall⟩).imp
    intro c r hr
    exact hr.1 r.1 r.2 hr.2
  | passthrough hchild ih => exact ih h
  | repeated htimes hchild ih =>
    obtain ⟨os, ops, _, hos, hdone, rfl⟩ := does_bind_some h
    cases hdone
    obtain ⟨rs, rfl, hall, rfl⟩ := does_repeatFrom hos
    rw [add_zero, results_repeated]
    apply parts_flatMap
    intro r hr
    obtain ⟨ctx', hdoes⟩ := hall r hr
    exact ih hdoes
  | generator g =>
    cases h
    exact parts_nil

end Node

end DataPipeline

import DataPipeline.Proofs.Node.Drained
import DataPipeline.Proofs.Node.Settles

namespace DataPipeline

open Activity

namespace Stage

/-- What comes of an item that is handed on: no batch could be made, the sink has refused it, or
it was sent. -/
inductive Delivery where
  | unmade (c : Chain)
  | refused (batch : Batch) (c : Chain)
  | sent (batch : Batch)

namespace Delivery

def fate : Delivery → Fate
  | unmade c => .unmade c
  | refused _ c => .refused c
  | sent _ => .sent

def failed : Delivery → Bool
  | unmade _ | refused .. => true
  | sent _ => false

def sent? : Delivery → Option Batch
  | sent batch => some batch
  | unmade _ | refused .. => none

end Delivery

variable (s : Stage) (name : String) (ctx : RunContext)

/-- Pulls the item at a position, and transmits it if it is a batch. -/
def handOn (i : Nat) : Activity Delivery := do
  match ← (s.generator.batches ctx).pull i with
  | .error c => .done (.unmade c)
  | .ok batch => do
    let earlier ← Activity.perform (.offer s.path.text batch)
    match ← s.datajet.transmit earlier batch ctx with
    | .error c => .done (.refused batch c)
    | .ok () =>
      Activity.perform (.count s.path.text name (.batch batch.length))
      .done (.sent batch)

/-- Hands on `n` items from a position on, whatever comes of them. -/
def handOnFrom : Nat → Nat → Activity (List Delivery)
  | 0, _ => .done []
  | n + 1, i => (s.handOn name ctx i).bind fun d => (handOnFrom n (i + 1)).bind fun ds =>
    .done (d :: ds)

/-- What comes of the item that is `k` places after a position, when those from the position on
have been handed on before it. -/
def delivery? (i k : Nat) (w : World) : Option Delivery :=
  ((s.handOnFrom name ctx k i).run w).bind fun r =>
    ((s.handOn name ctx (i + k)).run r.2).map (·.1)

/-- How many of `n` items from a position on are handed on: all of them, or up to the first that
fails. -/
def extentFrom (n i : Nat) (w : World) : Nat :=
  if s.settings.continueOnError then n
  else min n
    ((List.range n).findIdx
      (fun k => ((s.delivery? name ctx i k w).map Delivery.failed).getD false) + 1)

/-- How many items of its stream a stage hands on. -/
def extent (w : World) : Nat := s.extentFrom name ctx (s.allowance ctx) 0 w

/-- What there is to report of items from a position on, each with its number. -/
def report (i : Nat) (ds : List Delivery) : List String :=
  (ds.zipIdx (i + 1)).filterMap fun x => x.1.fate.message? s x.2

variable {s name ctx} {n i k : Nat} {w : World} {d : Delivery} {ds : List Delivery}

theorem handle_eq : s.handle name ctx (s.generator.batches ctx) i =
    (s.handOn name ctx i).bind fun d => .done d.fate := by
  change ((s.generator.batches ctx).pull i).bind _ =
    (((s.generator.batches ctx).pull i).bind _).bind _
  rw [bind_bind]
  congr 1
  funext item
  cases item with
  | error c => rfl
  | ok batch =>
    change Activity.act _ _ = Activity.act _ _
    congr 1
    funext earlier
    change (s.datajet.transmit earlier batch ctx).bind _ =
      ((s.datajet.transmit earlier batch ctx).bind _).bind _
    rw [bind_bind]
    congr 1
    funext result
    cases result with
    | error c => rfl
    | ok _ => rfl

theorem message?_isSome (number : Nat) : (d.fate.message? s number).isSome = d.failed := by
  cases d with
  | unmade | refused | sent => rfl

theorem report_cons :
    s.report i (d :: ds) = (d.fate.message? s (i + 1)).toList ++ s.report (i + 1) ds := by
  rw [report, List.zipIdx_cons, List.filterMap_cons]
  cases d.fate.message? s (i + 1) with
  | none => rfl
  | some error => rfl

theorem drainFrom_handOn (n i : Nat) :
    s.drainFrom name ctx (s.generator.batches ctx) (n + 1) i =
    (s.handOn name ctx i).bind fun d =>
      if d.failed && !s.settings.continueOnError then .done (s.report i [d])
      else (s.drainFrom name ctx (s.generator.batches ctx) n (i + 1)).bind fun errors =>
        .done ((d.fate.message? s (i + 1)).toList ++ errors) := by
  rw [drainFrom_succ, handle_eq, bind_bind]
  congr 1
  funext d
  have hfailed := message?_isSome (s := s) (d := d) (i + 1)
  rw [Activity.bind, report_cons, ← hfailed]
  cases hmessage : d.fate.message? s (i + 1) with
  | none => exact (bind_done _).symm
  | some error =>
    by_cases hcontinue : s.settings.continueOnError = true
    · simp only [hcontinue]
      rfl
    · simp only [hcontinue]
      rfl

theorem run_handOnFrom_succ : (s.handOnFrom name ctx (n + 1) i).run w =
    ((s.handOn name ctx i).run w).bind fun r =>
      ((s.handOnFrom name ctx n (i + 1)).run r.2).map fun rest => (r.1 :: rest.1, rest.2) := by
  rw [handOnFrom, run_bind]
  congr 1
  funext r
  rw [run_bind]
  cases (s.handOnFrom name ctx n (i + 1)).run r.2 with
  | none => rfl
  | some rest => rfl

theorem delivery?_succ {w' : World} (h : (s.handOn name ctx i).run w = some (d, w')) :
    s.delivery? name ctx i (k + 1) w = s.delivery? name ctx (i + 1) k w' := by
  have hindex : i + (k + 1) = i + 1 + k := by omega
  rw [delivery?, delivery?, run_handOnFrom_succ, h, Option.bind_some, Option.bind_map, hindex]
  rfl

/-- The first item decides whether there is a second. -/
theorem extentFrom_succ {w' : World} (h : (s.handOn name ctx i).run w = some (d, w')) :
    s.extentFrom name ctx (n + 1) i w =
      if d.failed && !s.settings.continueOnError then 1
        else s.extentFrom name ctx n (i + 1) w' + 1 := by
  rw [extentFrom, extentFrom]
  by_cases hcontinue : s.settings.continueOnError = true
  · simp [hcontinue]
  · rw [if_neg hcontinue, if_neg hcontinue, List.range_succ_eq_map, List.findIdx_cons,
      List.findIdx_map]
    have hfirst : s.delivery? name ctx i 0 w = some d := by
      rw [delivery?, handOnFrom]
      change ((s.handOn name ctx i).run w).map _ = _
      rw [h]
      rfl
    have hrest :
        (fun k => ((s.delivery? name ctx i k w).map Delivery.failed).getD false) ∘ Nat.succ =
        fun k => ((s.delivery? name ctx (i + 1) k w').map Delivery.failed).getD false := by
      funext k
      rw [Function.comp_apply, delivery?_succ h]
    rw [hfirst, hrest]
    cases hfailed : d.failed with
    | true => simp [hfailed, hcontinue]
    | false => simp [hfailed]

theorem extentFrom_succ_pos : 0 < s.extentFrom name ctx (n + 1) i w := by
  rw [extentFrom]
  split
  · exact Nat.succ_pos n
  · omega

theorem history_handOnFrom_succ : (s.handOnFrom name ctx (n + 1) i).history w =
    (s.handOn name ctx i).history w ++ ((s.handOn name ctx i).run w).elim [] fun r =>
      (s.handOnFrom name ctx n (i + 1)).history r.2 := by
  rw [handOnFrom, history_bind]
  congr 2
  funext r
  rw [history_bind]
  cases (s.handOnFrom name ctx n (i + 1)).run r.2 with
  | none => exact List.append_nil _
  | some rest => exact List.append_nil _

/-- A drain does what handing on the items does up to its extent, and reports what came of
them. -/
theorem drainFrom_eq_handOnFrom (n i : Nat) (w : World) :
    (s.drainFrom name ctx (s.generator.batches ctx) n i).run w =
        ((s.handOnFrom name ctx (s.extentFrom name ctx n i w) i).run w).map
          (fun r => (s.report i r.1, r.2)) ∧
      (s.drainFrom name ctx (s.generator.batches ctx) n i).history w =
        (s.handOnFrom name ctx (s.extentFrom name ctx n i w) i).history w := by
  induction n generalizing i w with
  | zero =>
    have hnone : s.extentFrom name ctx 0 i w = 0 := by simp [extentFrom]
    rw [hnone]
    exact ⟨rfl, rfl⟩
  | succ n ih =>
    rw [drainFrom_handOn, run_bind, history_bind]
    cases hd : (s.handOn name ctx i).run w with
    | none =>
      -- the first item is handed on by both, and neither gets past it
      have hpos : 0 < s.extentFrom name ctx (n + 1) i w := extentFrom_succ_pos
      obtain ⟨m, hm⟩ := Nat.exists_eq_succ_of_ne_zero (Nat.ne_of_gt hpos)
      rw [hm, run_handOnFrom_succ, history_handOnFrom_succ, hd]
      exact ⟨rfl, rfl⟩
    | some r =>
      obtain ⟨d, w'⟩ := r
      rw [extentFrom_succ hd]
      by_cases hstop : (d.failed && !s.settings.continueOnError) = true
      · rw [if_pos hstop, run_handOnFrom_succ, history_handOnFrom_succ, hd]
        simp only [Option.bind_some, Option.elim_some, if_pos hstop]
        exact ⟨rfl, rfl⟩
      · obtain ⟨hrun, hhistory⟩ := ih (i + 1) w'
        rw [if_neg hstop, run_handOnFrom_succ, history_handOnFrom_succ, hd]
        simp only [Option.bind_some, Option.elim_some, if_neg hstop, run_bind, history_bind,
          hrun, hhistory]
        cases (s.handOnFrom name ctx (s.extentFrom name ctx n (i + 1) w') (i + 1)).run w' with
        | none =>
          constructor
          · rfl
          · exact congrArg _ (List.append_nil _)
        | some rest =>
          constructor
          · simp only [Option.map_some, Option.bind_some, report_cons]
            rfl
          · exact congrArg _ (List.append_nil _)

theorem run_drain (s : Stage) (name : String) (ctx : RunContext) (w : World) :
    (s.drain name ctx).run w =
    ((s.handOnFrom name ctx (s.extent name ctx w) 0).run w).map fun r =>
      (s.report 0 r.1, r.2) := by
  rw [drain_eq]
  exact (drainFrom_eq_handOnFrom _ 0 w).1

theorem history_drain (s : Stage) (name : String) (ctx : RunContext) (w : World) :
    (s.drain name ctx).history w =
      (s.handOnFrom name ctx (s.extent name ctx w) 0).history w := by
  rw [drain_eq]
  exact (drainFrom_eq_handOnFrom _ 0 w).2

theorem length_of_run_handOnFrom {w' : World}
    (h : (s.handOnFrom name ctx n i).run w = some (ds, w')) :
    ds.length = n := by
  induction n generalizing i w ds with
  | zero =>
    cases h
    rfl
  | succ n ih =>
    rw [run_handOnFrom_succ] at h
    obtain ⟨r, _, hmap⟩ := Option.bind_eq_some_iff.1 h
    obtain ⟨rest, hrest, heq⟩ := Option.map_eq_some_iff.1 hmap
    cases heq
    rw [List.length_cons, ih hrest]

theorem delivery?_of_run {w' : World} (h : (s.handOnFrom name ctx n i).run w = some (ds, w'))
    (hk : k < n) :
    s.delivery? name ctx i k w = ds[k]? := by
  induction n generalizing i k w ds with
  | zero => cases hk
  | succ n ih =>
    rw [run_handOnFrom_succ] at h
    obtain ⟨⟨d, w₁⟩, hd, hmap⟩ := Option.bind_eq_some_iff.1 h
    obtain ⟨rest, hrest, heq⟩ := Option.map_eq_some_iff.1 hmap
    cases heq
    cases k with
    | zero =>
      rw [delivery?, handOnFrom]
      change ((s.handOn name ctx i).run w).map _ = _
      rw [hd]
      rfl
    | succ k =>
      rw [delivery?_succ hd, ih hrest (Nat.lt_of_succ_lt_succ hk)]
      rfl

theorem settles_handOn (hpull : ((s.generator.batches ctx).pull i).Settles)
    (htransmit : ∀ earlier batch, (s.datajet.transmit earlier batch ctx).Settles) :
    (s.handOn name ctx i).Settles := by
  apply hpull.bind
  intro item
  cases item with
  | error c => trivial
  | ok batch =>
    intro earlier
    apply (htransmit earlier batch).bind
    intro result
    cases result with
    | error c => trivial
    | ok _ => exact fun _ => trivial

theorem settles_handOnFrom (hpull : ∀ i, ((s.generator.batches ctx).pull i).Settles)
    (htransmit : ∀ earlier batch, (s.datajet.transmit earlier batch ctx).Settles) (n i : Nat) :
    (s.handOnFrom name ctx n i).Settles := by
  induction n generalizing i with
  | zero => trivial
  | succ n ih =>
    apply (settles_handOn (hpull i) htransmit).bind
    intro d
    exact (ih (i + 1)).bind fun _ => trivial

end Stage

end DataPipeline

import DataPipeline.Node.Execute
import DataPipeline.Proofs.Run.Alone

namespace DataPipeline

namespace Activity

/-- An activity at a place asks only for what the state there answers, and satisfies a condition
on its result and the state at the end. -/
inductive Keeps (T : Tenancy) (place : String) {α : Type} (post : α → T.State → Prop) :
    Activity α → T.State → Prop where
  | done {a t} (h : post a t) : Keeps T place post (.done a) t
  | stall {t} : Keeps T place post .stall t
  | sleep {ms next t} (h : Keeps T place post next t) : Keeps T place post (.sleep ms next) t
  | offer {batch} {next : List Batch → Activity α} {t}
      (h : ∀ earlier, Keeps T place post (next earlier) t) :
      Keeps T place post (.act (.offer place batch) next) t
  | count {stage o} {next : Unit → Activity α} {t} (h : Keeps T place post (next ()) t) :
      Keeps T place post (.act (.count place stage o) next) t
  | plugin {op} {next : op.Answer → Activity α} {a t t'} (hop : op.OfPlugin)
      (ha : T.answer place t op = some (a, t')) (h : Keeps T place post (next a) t') :
      Keeps T place post (.act op next) t

variable {T : Tenancy} {place : String} {α β : Type} {post post' : α → T.State → Prop}
  {p : Activity α} {t : T.State}

theorem Keeps.bind {f : α → Activity β} {post' : β → T.State → Prop}
    (h : Keeps T place post p t) (hf : ∀ a t, post a t → Keeps T place post' (f a) t) :
    Keeps T place post' (p.bind f) t := by
  induction h with
  | done h => exact hf _ _ h
  | stall => exact .stall
  | sleep h ih => exact .sleep ih
  | offer h ih => exact .offer ih
  | count h ih => exact .count ih
  | plugin hop ha h ih => exact .plugin hop ha ih

/-- The condition on the result, if there is one. -/
def Kept (post : α → T.State → Prop) (a? : Option α) (t : T.State) : Prop :=
  ∀ a, a? = some a → post a t

theorem Keeps.cutAfter (h : Keeps T place post p t) (limit : Nat) :
    Keeps T place (Kept post) (p.cutAfter limit) t := by
  induction h generalizing limit with
  | done h =>
    refine .done fun a ha => ?_
    cases ha
    exact h
  | stall => exact .sleep (.done nofun)
  | sleep h ih =>
    rw [Activity.cutAfter]
    split
    · exact .sleep (ih _)
    · exact .sleep (.done nofun)
  | offer h ih => exact .offer fun earlier => ih earlier limit
  | count h ih => exact .count (ih limit)
  | plugin hop ha h ih => exact .plugin hop ha (ih limit)

theorem Keeps.within (h : Keeps T place post p t) (limit : Option Nat) :
    Keeps T place (Kept post) (p.within limit) t := by
  cases limit with
  | some ms => exact h.cutAfter ms
  | none =>
    refine h.bind fun a t ha => .done fun a' ha' => ?_
    cases ha'
    exact ha

/-- What keeps to a place has an end there, or goes on without one. -/
theorem Keeps.alone {σ : Cells T} (h : Keeps T place post p t) (ht : (σ place).own = t) :
    ∃ r, Cells.Alone T {place} p σ r := by
  induction h generalizing σ with
  | done h => exact ⟨_, .done _ σ⟩
  | stall => exact ⟨_, .stall σ⟩
  | sleep h ih =>
    obtain ⟨r, hr⟩ := ih ht
    exact ⟨r, .sleep hr⟩
  | @offer batch next t h ih =>
    let c : Cell T := { σ place with offered := batch :: (σ place).offered }
    have hc : (Function.update σ place c place).own = t := by simp [c, ht]
    obtain ⟨r, hr⟩ := ih (σ place).offered hc
    exact ⟨r, .act rfl (.offer _ _) hr⟩
  | @count stage o next t h ih =>
    let c : Cell T :=
      { σ place with counters := some (((σ place).counters.getD { stage }).add o) }
    have hc : (Function.update σ place c place).own = t := by simp [c, ht]
    obtain ⟨r, hr⟩ := ih hc
    exact ⟨r, .act rfl (.count _ _ _) hr⟩
  | @plugin op next a t t' hop ha h ih =>
    let c : Cell T := { σ place with own := t' }
    have hc : (Function.update σ place c place).own = t' := by simp [c]
    obtain ⟨r, hr⟩ := ih hc
    exact ⟨r, .act rfl (.plugin hop (ht ▸ ha)) hr⟩

end Activity

/-- The plugins of a stage keep to its place. A sink that does not refuse makes the place ready,
and batches are pulled and handed on where it is. -/
structure Tenancy.Governs (T : Tenancy) (s : Stage) : Prop where
  generator : ∀ ctx t, (s.generator.validate ctx).Keeps T s.path.text (fun _ _ => True) t
  datajet : ∀ ctx t, (s.datajet.validate ctx).Keeps T s.path.text
    (fun v t => (∀ reason, v ≠ .failed reason) → T.Ready s.path.text t) t
  pull : ∀ ctx i t, T.Ready s.path.text t →
    ((s.generator.batches ctx).pull i).Keeps T s.path.text (fun _ t => T.Ready s.path.text t) t
  transmit : ∀ earlier batch ctx t, T.Ready s.path.text t →
    (s.datajet.transmit earlier batch ctx).Keeps T s.path.text
      (fun _ t => T.Ready s.path.text t) t

namespace Stage

variable {T : Tenancy} {s : Stage} {ctx : RunContext} {name : String} {t : T.State}

theorem keeps_deliver (h : T.Governs s) (ht : T.Ready s.path.text t) (number : Nat)
    (item : Except Chain Batch) : (s.deliver name ctx number item).Keeps T s.path.text
      (fun _ t => T.Ready s.path.text t) t := by
  cases item with
  | error c => exact .done ht
  | ok batch =>
    refine .offer fun earlier => (h.transmit earlier batch ctx t ht).bind fun result t ht => ?_
    cases result with
    | error c => exact .done ht
    | ok _ => exact .count (.done ht)

theorem keeps_drainFrom (h : T.Governs s) (n i : Nat) (ht : T.Ready s.path.text t) :
    (s.drainFrom name ctx (s.generator.batches ctx) n i).Keeps T s.path.text
      (fun _ t => T.Ready s.path.text t) t := by
  induction n generalizing i t with
  | zero => exact .done ht
  | succ n ih =>
    refine (h.pull ctx i t ht).bind fun item t ht => ?_
    refine (keeps_deliver h ht (i + 1) item).bind fun error t ht => ?_
    cases error with
    | none => exact ih (i + 1) ht
    | some error =>
      dsimp only
      split
      · exact (ih (i + 1) ht).bind fun errors t ht => .done ht
      · exact .done ht

theorem not_failed_of_valid {o : Outcome} {first second : Verdict} {a b : String}
    (h : ((o.recordVerdict a first).recordVerdict b second).isValidationSuccess = true)
    (reason : String) : second ≠ .failed reason := by
  rintro rfl
  cases h

theorem keeps_execute (h : T.Governs s) (settings : RunSettings) (t : T.State) :
    (s.execute settings ctx).Keeps T s.path.text (fun _ _ => True) t := by
  refine ((h.generator ctx t).within _).bind fun first t _ => ?_
  refine ((h.datajet ctx t).within _).bind fun second t hsecond => ?_
  dsimp only
  split
  · exact .count (.done trivial)
  next hvalid =>
    have hvalid := by simpa using hvalid
    cases second with
    -- a sink that was cut off has failed, so here its place is ready
    | none => exact absurd rfl (not_failed_of_valid hvalid _)
    | some v =>
      have ht := hsecond v rfl (not_failed_of_valid hvalid)
      refine ((keeps_drainFrom h _ 0 ht).within _).bind fun errors t _ => ?_
      exact .count (.done trivial)

end Stage

theorem Tenancy.Governs.alone_execute {T : Tenancy} {s : Stage} (h : T.Governs s)
    (settings : RunSettings) (ctx : RunContext) (σ : Cells T) :
    ∃ r, Cells.Alone T {s.path.text} (s.execute settings ctx) σ r :=
  (Stage.keeps_execute h settings _).alone rfl

end DataPipeline

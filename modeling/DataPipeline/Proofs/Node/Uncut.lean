import DataPipeline.Proofs.Node.Settles
import DataPipeline.Proofs.Node.Stagewise

namespace DataPipeline

open Activity

/-- A phase under a limit that stalls where it would be cut off. -/
def Activity.uncut {α : Type} (limit : Option Nat) (p : Activity α) : Activity (Option α) :=
  (p.within limit).bind fun
    | some a => .done (some a)
    | none => .stall

/-- A stage that stalls where a phase would be cut off. -/
def Stage.executeUncut (s : Stage) : Execution := fun settings ctx =>
  s.executeIn (fun _ p => p.uncut settings.stageTimeoutMs) settings ctx

/-- The error of a phase that was cut off. -/
def TimedOut (t : Nat) (error : String) : Prop :=
  error = "Stage timed out after " ++ toString t ++ " ms" ∨
    ∃ validator, error =
      validator ++ " validation failed: " ++ ("timed out after " ++ toString t ++ " ms")

namespace Outcome

/-- No leaf of an outcome has the error of a phase that was cut off. -/
def InTime (t : Nat) (o : Outcome) : Prop :=
  ∀ leaf ∈ o.leaves, ∀ error ∈ leaf.errors, ¬TimedOut t error

theorem inherited_inTime (t : Nat) : Inherited (InTime t) := by
  intro d os hd h o ho leaf hleaf
  apply h leaf
  rw [leaves_of_not_isLeaf hd]
  exact List.mem_flatMap.2 ⟨o, ho, hleaf⟩

theorem mem_errors_recordVerdict {o : Outcome} {error : String} (h : error ∈ o.errors)
    (validator : String) (v : Verdict) : error ∈ (o.recordVerdict validator v).errors := by
  cases v with
  | passed | pending => exact h
  | failed reason => exact List.mem_append_left _ h

theorem stage_recordVerdict {o : Outcome} (validator : String) (v : Verdict) :
    (o.recordVerdict validator v).stage = o.stage := by
  cases v <;> rfl

end Outcome

section Phases

variable {α : Type} {t t' : Nat}

theorem astray_sleep_stall {good : α → Prop} {ms : Nat} : Astray good (.sleep ms .stall) := by
  intro a ha
  cases ha with
  | sleep ha => cases ha

theorem follows_uncut_bind (t : Nat) (p : Activity α) :
    Follows (fun _ => False) (Astray fun _ => True) (p.uncut (some t))
      (p.bind fun a => .done (some a)) := by
  induction p generalizing t with
  | done a => exact .done (some a)
  | act op next ih => exact .act id fun answer => ih answer t
  | sleep ms next ih =>
    rw [uncut, within, cutAfter]
    split
    · exact .sleep ms (ih (t - ms))
    · exact .lost astray_sleep_stall
  | stall => exact .lost astray_sleep_stall

theorem follows_uncut_cutAfter (h : t ≤ t') (p : Activity α) :
    Follows (fun _ => False) (Astray fun _ => True) (p.uncut (some t)) (p.cutAfter t') := by
  induction p generalizing t t' with
  | done a => exact .done (some a)
  | act op next ih => exact .act id fun answer => ih answer h
  | sleep ms next ih =>
    rw [uncut, within, cutAfter, cutAfter]
    split
    next hms =>
      rw [if_pos ⟨Nat.lt_of_lt_of_le hms.1 h, Nat.le_trans hms.2 h⟩]
      exact .sleep ms (ih (Nat.sub_le_sub_right h ms))
    · exact .lost astray_sleep_stall
  | stall => exact .lost astray_sleep_stall

theorem follows_uncut {limit : Option Nat} (h : ∀ t', limit = some t' → t ≤ t')
    (p : Activity α) :
    Follows (fun _ => False) (Astray fun _ => True) (p.uncut (some t)) (p.within limit) := by
  cases limit with
  | none => exact follows_uncut_bind t p
  | some t' => exact follows_uncut_cutAfter (h t' rfl) p

theorem not_ends_uncut {limit : Option Nat} {p : Activity α} : ¬(p.uncut limit).Ends none := by
  intro h
  obtain ⟨a?, _, h⟩ := ends_bind.1 h
  cases a? with
  | none => cases h
  | some a => cases h

theorem uncut_follows (t : Nat) (p : Activity α) :
    Follows (fun _ => False) (Astray fun a? => a?.isSome = true) (p.within (some t))
      (p.uncut (some t)) := by
  have hcut {ms : Nat} :
      Astray (fun a? : Option α => a?.isSome = true) (.sleep ms (.done none)) := by
    intro a? ha
    cases ha with
    | sleep ha =>
      cases ha
      exact Bool.false_ne_true
  change Follows _ _ (p.cutAfter t) ((p.cutAfter t).bind _)
  induction p generalizing t with
  | done a => exact .done (some a)
  | act op next ih => exact .act id fun answer => ih answer t
  | sleep ms next ih =>
    rw [cutAfter]
    split
    · exact .sleep ms (ih (t - ms))
    · exact .lost hcut
  | stall => exact .lost hcut

theorem follows_after_phase {p q : Activity (Option α)} {f g : Option α → Activity Outcome}
    {good : Outcome → Prop} {kept : Prop}
    (h : Follows (fun _ => False) (Astray fun a? => kept ∨ a?.isSome = true) p q)
    (hkept : kept → ¬p.Ends none) (hnone : ¬kept → Astray good (f none))
    (hsome : ∀ a, Follows (fun _ => False) (Astray good) (f (some a)) (g (some a))) :
    Follows (fun _ => False) (Astray good) (p.bind f) (q.bind g) := by
  apply h.bind
  · intro p hp
    apply astray_bind hp
    intro a? b hb hgood
    by_contra hno
    rw [not_or] at hno
    cases a? with
    | none => exact hnone hno.1 b hb hgood
    | some a => exact hno.2 rfl
  · intro a? ha
    cases a? with
    | none => exact .lost (hnone fun hk => hkept hk ha)
    | some a => exact hsome a

end Phases

namespace Stage

variable {phase phase' : (α : Type) → Activity α → Activity (Option α)} {s : Stage}
  {settings settings' : RunSettings} {ctx : RunContext} {t : Nat} {o b : Outcome}
  {first second : Option Verdict}

theorem stage_verdict :
    (s.verdict settings first second).stage = (Node.stage s).descriptor := by
  rw [verdict, Outcome.stage_recordVerdict, Outcome.stage_recordVerdict]

theorem ends_proceed (h : (s.proceed phase settings ctx o).Ends b) :
    b.stage = o.stage ∧ ∀ error ∈ o.errors, error ∈ b.errors := by
  rw [proceed] at h
  dsimp only at h
  split at h
  · obtain ⟨_, _, h⟩ := ends_bind.1 h
    cases h
    exact ⟨rfl, fun error h => h⟩
  · obtain ⟨errors, _, h⟩ := ends_bind.1 h
    obtain ⟨_, _, h⟩ := ends_bind.1 h
    cases h
    rw [Outcome.foldl_fail]
    exact ⟨rfl, fun error h => List.mem_append_left _ h⟩

theorem timedOut_recordVerdict (ht : settings.stageTimeoutMs = some t) (validator : String) :
    ∃ error ∈ (o.recordVerdict validator (settle settings.stageTimeoutMs none)).errors,
      TimedOut t error := by
  rw [ht]
  exact ⟨_, List.mem_append_right _ List.mem_cons_self, .inr ⟨validator, rfl⟩⟩

theorem timedOut_verdict (ht : settings.stageTimeoutMs = some t)
    (h : first = none ∨ second = none) :
    ∃ error ∈ (s.verdict settings first second).errors, TimedOut t error := by
  rw [verdict]
  rcases h with rfl | rfl
  · obtain ⟨error, hmem, herror⟩ := timedOut_recordVerdict ht s.generator.name
    exact ⟨error, Outcome.mem_errors_recordVerdict hmem _ _, herror⟩
  · exact timedOut_recordVerdict ht s.datajet.name

section

variable {good : Outcome → Prop} {kept : Prop}
  (hphase : ∀ (α : Type) (p : Activity α),
    Follows (fun _ => False) (Astray fun a? => kept ∨ a?.isSome = true)
    (phase α p) (phase' α p))
  (hkept : kept → ∀ (α : Type) (p : Activity α), ¬(phase α p).Ends none)
  (ht : settings.stageTimeoutMs = some t)
  (hgood : ¬kept → ∀ o : Outcome, o.stage = (Node.stage s).descriptor →
    (∃ error ∈ o.errors, TimedOut t error) → ¬good o)

include hphase hkept ht hgood

theorem follows_proceed (ho : o.stage = (Node.stage s).descriptor) :
    Follows (fun _ => False) (Astray good) (s.proceed phase settings ctx o)
      (s.proceed phase' settings' ctx o) := by
  rw [proceed, proceed]
  dsimp only
  split
  · exact .act id fun _ => .done _
  · apply follows_after_phase (hphase _ _) fun hk => hkept hk _ _
    · intro hk b hb
      cases hb with
      | act _ hb =>
        cases hb
        apply hgood hk
        · rw [Outcome.foldl_fail]
          exact ho
        · rw [Outcome.foldl_fail, ht]
          exact ⟨_, List.mem_append_right _ List.mem_cons_self, .inl rfl⟩
    · intro errors
      exact .act id fun _ => .done _

theorem follows_executeIn :
    Follows (fun _ => False) (Astray good) (s.executeIn phase settings ctx)
      (s.executeIn phase' settings' ctx) := by
  have hbad {first second : Option Verdict} (h : first = none ∨ second = none) (hk : ¬kept) :
      Astray good (s.proceed phase settings ctx (s.verdict settings first second)) := by
    intro b hb
    obtain ⟨hstage, herrors⟩ := ends_proceed hb
    obtain ⟨error, hmem, herror⟩ := timedOut_verdict ht h
    exact hgood hk b (hstage.trans stage_verdict) ⟨error, herrors error hmem, herror⟩
  apply follows_after_phase (hphase _ _) fun hk => hkept hk _ _
  · intro hk b hb
    obtain ⟨second, _, hb⟩ := ends_bind.1 hb
    exact hbad (.inl rfl) hk b hb
  intro first
  apply follows_after_phase (hphase _ _) fun hk => hkept hk _ _
  · exact hbad (.inr rfl)
  intro second
  exact follows_proceed hphase hkept ht hgood stage_verdict

end

theorem follows_executeUncut {limit : Option Nat} (h : ∀ t', limit = some t' → t ≤ t') :
    Follows (fun _ => False) (Astray fun _ => True) (s.executeUncut ⟨some t⟩ ctx)
      (s.execute ⟨limit⟩ ctx) := by
  rw [execute_eq_executeIn]
  have hphase (α : Type) (p : Activity α) : Follows (fun _ => False)
      (Astray fun a? => True ∨ a?.isSome = true) (p.uncut (some t)) (p.within limit) := by
    simpa only [true_or] using follows_uncut h p
  exact follows_executeIn hphase (fun _ _ _ => not_ends_uncut) rfl fun hno => absurd trivial hno

theorem executeUncut_follows :
    Follows (fun _ => False) (Astray (Outcome.InTime t)) (s.execute ⟨some t⟩ ctx)
      (s.executeUncut ⟨some t⟩ ctx) := by
  rw [execute_eq_executeIn]
  have hphase (α : Type) (p : Activity α) : Follows (fun _ => False)
      (Astray fun a? => False ∨ a?.isSome = true) (p.within (some t)) (p.uncut (some t)) := by
    simpa only [false_or] using uncut_follows t p
  apply follows_executeIn hphase nofun rfl
  rintro _ o ho ⟨error, hmem, herror⟩ hgood
  have hleaf : o.IsLeaf := .inl (by rw [ho]; rfl)
  exact hgood o (by simp [Outcome.leaves_of_isLeaf hleaf]) error hmem herror

end Stage

namespace Node

variable {n : Node} {t : Nat} {limit : Option Nat}

theorem follows_executeUncut (hn : n.Shaped) (h : ∀ t', limit = some t' → t ≤ t')
    (ctx : RunContext) :
    Follows (fun _ => False) (Astray fun _ => True)
      (n.executeBy Stage.executeUncut ⟨some t⟩ ctx) (n.execute ⟨limit⟩ ctx) := by
  rw [← executeBy_execute]
  apply follows_executeBy hn (fun _ _ _ _ _ _ => trivial)
  intro s _ ctx
  exact Stage.follows_executeUncut h

theorem executeUncut_follows (hn : n.Shaped) (ctx : RunContext) :
    Follows (fun _ => False) (Astray (Outcome.InTime t)) (n.execute ⟨some t⟩ ctx)
      (n.executeBy Stage.executeUncut ⟨some t⟩ ctx) := by
  rw [← executeBy_execute]
  apply follows_executeBy hn (Outcome.inherited_inTime t)
  intro s _ ctx
  exact Stage.executeUncut_follows

/-- No phase of a stage is cut off in a run: the run has an end even if a phase that would be
cut off stalls. -/
def Uncut (n : Node) (t : Nat) (ctx : RunContext) (w : World) : Prop :=
  ((n.executeBy Stage.executeUncut ⟨some t⟩ ctx).run w).isSome = true

end Node

/-- A run with a limit ends, and if nothing is cut off in it then it is the same under any
longer limit and under none: the same outcome, the same world, and the same actions at the same
times. If no leaf of the outcome has the error of a phase that was cut off, then nothing was; so
a success stays the same success. -/
theorem execute_longer_limit (registry : Registry)
    (hw : registry.wrappers = Registry.builtin.wrappers) (schema : Schema)
    (context : BuildContext) (n : Node)
    (hn : (buildPipeline registry schema context).result = .ok n) (t : Nat) (limit : Option Nat)
    (hlimit : ∀ t', limit = some t' → t ≤ t') (ctx : RunContext) (w : World) :
    ∃ o w', (n.execute ⟨some t⟩ ctx).run w = some (o, w') ∧
      (n.Uncut t ctx w → (n.execute ⟨limit⟩ ctx).run w = some (o, w') ∧
        (n.execute ⟨limit⟩ ctx).timeline w = (n.execute ⟨some t⟩ ctx).timeline w) ∧
      (o.InTime t → n.Uncut t ctx w) ∧
      (o.isSuccess = true → (n.execute ⟨limit⟩ ctx).run w = some (o, w')) := by
  have hbuilt := buildPipeline_builtAt hn
  have hshape := hbuilt.shaped hw
  have hends : ∃ o w', (n.execute ⟨some t⟩ ctx).run w = some (o, w') := by
    apply Node.run_isSome hshape
    nofun
  obtain ⟨o, w', hrun⟩ := hends
  have hsame (h : n.Uncut t ctx w) : (n.execute ⟨limit⟩ ctx).run w = some (o, w') ∧
      (n.execute ⟨limit⟩ ctx).timeline w = (n.execute ⟨some t⟩ ctx).timeline w := by
    obtain ⟨r, hr⟩ := Option.isSome_iff_exists.1 h
    obtain ⟨hlonger, htimes⟩ :=
      (Node.follows_executeUncut hshape hlimit ctx).run_eq hr fun p hp h => hp _ h trivial
    have hself : ∀ t', some t = some t' → t ≤ t' := by
      rintro t' ⟨rfl⟩
      exact Nat.le_refl t
    obtain ⟨hshort, htimes'⟩ :=
      (Node.follows_executeUncut hshape hself ctx).run_eq hr fun p hp h => hp _ h trivial
    cases hrun.symm.trans hshort
    exact ⟨hlonger, htimes.trans htimes'.symm⟩
  have huncut (h : o.InTime t) : n.Uncut t ctx w := by
    obtain ⟨hr, _⟩ :=
      (Node.executeUncut_follows hshape ctx).run_eq hrun fun p hp hends => hp o hends h
    rw [Node.Uncut, hr]
    rfl
  refine ⟨o, w', hrun, hsame, huncut, fun hsuccess => (hsame (huncut ?_)).1⟩
  intro leaf hleaf error herror
  obtain ⟨_, hparts⟩ := Node.faithful_of_ends hw hbuilt (ends_of_run hrun)
  rw [(Outcome.isSuccess_iff hparts).1 hsuccess leaf hleaf] at herror
  cases herror

/-- A generator whose batch takes five milliseconds, beside the built-in wrappers and sinks. -/
def slowRegistry : Registry :=
  { Registry.builtin with
    generators :=
      { kind := .generator
        templates := [⟨"slow", [],
          fun _ _ => .ok
            { name := "slow"
              batches := fun _ => ⟨1, fun _ => .sleep 5 (.done (.ok [.nat 1]))⟩ }⟩] } }

/-- A stage that is slow twice. -/
def slowStage : Schema where
  component := some "wrap"
  config := some (.object [("wrapper", .object [("name", .string "repeat")])])
  child := some { generator := some ⟨"slow", none⟩, datajet := some ⟨"discard", none⟩ }

theorem execute_longer_limit_slowStage :
    slowRegistry.wrappers = Registry.builtin.wrappers ∧ ∃ n o w',
      (buildPipeline slowRegistry slowStage (.mk "" "" {} none none)).result = .ok n ∧
        (n.execute ⟨some 5⟩ {}).run {} = some (o, w') ∧ w'.now = 10 ∧ n.Uncut 5 {} {} ∧
        (n.execute {} {}).run {} = some (o, w') ∧
        (n.execute {} {}).timeline {} = (n.execute ⟨some 5⟩ {}).timeline {} := by
  refine ⟨rfl, _, _, _, rfl, rfl, rfl, rfl, ?_⟩
  obtain ⟨o, w', hrun, hsame, _, _⟩ :=
    execute_longer_limit slowRegistry rfl slowStage
      (.mk "" "" {} none none) _ rfl 5 none nofun {} {}
  cases hrun
  exact hsame rfl

end DataPipeline

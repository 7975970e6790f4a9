import DataPipeline.Proofs.Node.Stagewise
import DataPipeline.Proofs.Run.Lockstep

namespace DataPipeline

open Activity

/-- Outcomes that differ in texts only. -/
inductive Outcome.Alike (Text : String → String → Prop) : Outcome → Outcome → Prop where
  | intro {d d' : Descriptor} {valid success : Bool} {pending : List String}
      {children children' : List Outcome} {errors errors' : List String}
      (kind : d.kind = d'.kind) (name : Text d.name d'.name)
      (inner : List.Forall₂ (Alike Text) children children')
      (texts : List.Forall₂ Text errors errors') :
      Alike Text ⟨d, valid, success, pending, children, errors⟩
        ⟨d', valid, success, pending, children', errors'⟩

namespace Outcome

variable {Text : String → String → Prop} {o o' : Outcome}

theorem Alike.isValidationSuccess_eq (h : o.Alike Text o') :
    o.isValidationSuccess = o'.isValidationSuccess := by
  cases h
  rfl

theorem Alike.isExecutionSuccess_eq (h : o.Alike Text o') :
    o.isExecutionSuccess = o'.isExecutionSuccess := by
  cases h
  rfl

theorem Alike.pendingValidators_eq (h : o.Alike Text o') :
    o.pendingValidators = o'.pendingValidators := by
  cases h
  rfl

theorem Alike.fail {error error' : String} (h : o.Alike Text o') (herror : Text error error') :
    (o.fail error).Alike Text (o'.fail error') := by
  cases h with
  | intro kind name inner texts =>
    exact .intro kind name inner (List.rel_append texts (.cons herror .nil))

theorem Alike.foldl_fail {errors errors' : List String} (h : o.Alike Text o')
    (herrors : List.Forall₂ Text errors errors') :
    (errors.foldl Outcome.fail o).Alike Text (errors'.foldl Outcome.fail o') := by
  induction herrors generalizing o o' with
  | nil => exact h
  | cons herror _ ih => exact ih (h.fail herror)

theorem Alike.recordVerdict {validator validator' : String} (h : o.Alike Text o')
    (hvalidator : ∀ rest, Text (validator ++ rest) (validator' ++ rest)) (v : Verdict) :
    (o.recordVerdict validator v).Alike Text (o'.recordVerdict validator' v) := by
  cases h with
  | intro kind name inner texts =>
    cases v with
    | passed => exact .intro kind name inner texts
    | pending => exact .intro kind name inner texts
    | failed reason =>
      refine .intro kind name inner (List.rel_append texts (.cons ?_ .nil))
      rw [String.append_assoc, String.append_assoc]
      exact hvalidator _

theorem Alike.map_eq {β : Type} {os os' : List Outcome} (f : Outcome → β)
    (hf : ∀ o o', Alike Text o o' → f o = f o') (h : List.Forall₂ (Alike Text) os os') :
    os.map f = os'.map f := by
  induction h with
  | nil => rfl
  | cons ho _ ih => rw [List.map_cons, List.map_cons, hf _ _ ho, ih]

theorem Alike.aggregate {d d' : Descriptor} {os os' : List Outcome} (kind : d.kind = d'.kind)
    (name : Text d.name d'.name) (h : List.Forall₂ (Alike Text) os os') :
    (Outcome.aggregate d os).Alike Text (Outcome.aggregate d' os') := by
  have hall {f : Outcome → Bool} (hf : ∀ o o', Alike Text o o' → f o = f o') :
      os.all f = os'.all f := by
    have hmap := congrArg (List.all · id) (Alike.map_eq f hf h)
    simpa only [List.all_map, Function.id_comp] using hmap
  have hpending : os.flatMap (·.pendingValidators) = os'.flatMap (·.pendingValidators) := by
    rw [List.flatMap_def, List.flatMap_def,
      Alike.map_eq _ (fun _ _ => Alike.pendingValidators_eq) h]
  rw [Outcome.aggregate, Outcome.aggregate, hall fun _ _ => Alike.isValidationSuccess_eq,
    hall fun _ _ => Alike.isExecutionSuccess_eq, hpending]
  exact .intro kind name h .nil

end Outcome

theorem eq_of_rel {α : Type} {a b : Option α} (h : Option.Rel Eq a b) : a = b := by
  cases h with
  | some h => rw [h]
  | none => rfl

namespace Stage

variable {Pairs : Op.Pairing} {Text : String → String → Prop} {s s' : Stage}
  {settings : RunSettings} {ctx : RunContext}

/-- Stages whose plugins are in step, whose actions go together, and whose texts do. -/
structure Matches (Pairs : Op.Pairing) (Text : String → String → Prop)
    (s s' : Stage) : Prop where
  offer : ∀ batch, Pairs (.offer s.path.text batch) (.offer s'.path.text batch) Eq
  count : ∀ o, Pairs (.count s.path.text (Node.stage s).name o)
    (.count s'.path.text (Node.stage s').name o) Eq
  generator : ∀ ctx, InStep Pairs Eq (s.generator.validate ctx) (s'.generator.validate ctx)
  length : ∀ ctx, (s'.generator.batches ctx).length = (s.generator.batches ctx).length
  pull : ∀ ctx i,
    InStep Pairs Eq ((s.generator.batches ctx).pull i) ((s'.generator.batches ctx).pull i)
  datajet : ∀ ctx, InStep Pairs Eq (s.datajet.validate ctx) (s'.datajet.validate ctx)
  transmit : ∀ earlier batch ctx,
    InStep Pairs Eq (s.datajet.transmit earlier batch ctx)
      (s'.datajet.transmit earlier batch ctx)
  settings : s'.settings = s.settings
  same : ∀ t, Text t t
  generatorText : ∀ rest, Text (s.generator.name ++ rest) (s'.generator.name ++ rest)
  datajetName : s'.datajet.name = s.datajet.name

theorem Matches.name (h : s.Matches Pairs Text s') :
    Text (Node.stage s).name (Node.stage s').name := by
  rw [Node.name, Node.name, String.append_assoc, String.append_assoc, h.datajetName]
  exact h.generatorText _

theorem Matches.deliver (h : s.Matches Pairs Text s') (number : Nat)
    (item : Except Chain Batch) :
    InStep Pairs (Option.Rel Text) (s.deliver (Node.stage s).name ctx number item)
      (s'.deliver (Node.stage s').name ctx number item) := by
  cases item with
  | error c =>
    refine .done (.some ?_)
    rw [failedPull, failedPull]
    simp only [String.append_assoc]
    exact h.generatorText _
  | ok batch =>
    apply InStep.act (h.offer batch)
    rintro earlier _ rfl
    apply InStep.bind (h.transmit earlier batch ctx)
    rintro result _ rfl
    cases result with
    | error c =>
      refine .done (.some ?_)
      rw [failedTransmit, failedTransmit, h.datajetName]
      exact h.same _
    | ok => exact .act (h.count _) fun _ _ _ => .done .none

theorem Matches.drainFrom (h : s.Matches Pairs Text s') (n i : Nat) :
    InStep Pairs (List.Forall₂ Text)
      (s.drainFrom (Node.stage s).name ctx (s.generator.batches ctx) n i)
      (s'.drainFrom (Node.stage s').name ctx (s'.generator.batches ctx) n i) := by
  induction n generalizing i with
  | zero => exact .done .nil
  | succ n ih =>
    rw [Stage.drainFrom, Stage.drainFrom]
    apply InStep.bind (h.pull ctx i)
    rintro item _ rfl
    apply InStep.bind (h.deliver _ _)
    intro error? error?' herror
    cases herror with
    | none => exact ih _
    | some herror =>
      dsimp only
      rw [h.settings]
      split
      · apply InStep.bind (ih _)
        intro errors errors' herrors
        exact .done (.cons herror herrors)
      · exact .done (.cons herror .nil)

theorem Matches.drain (h : s.Matches Pairs Text s') :
    InStep Pairs (List.Forall₂ Text) (s.drain (Node.stage s).name ctx)
      (s'.drain (Node.stage s').name ctx) := by
  have hquota : s'.quota (s'.generator.batches ctx) = s.quota (s.generator.batches ctx) := by
    rw [quota, quota, h.settings, h.length]
  rw [Stage.drain, Stage.drain, hquota]
  exact h.drainFrom _ _

theorem Matches.report (h : s.Matches Pairs Text s') {o o' : Outcome} (ho : o.Alike Text o')
    {errors errors' : List String} (herrors : List.Forall₂ Text errors errors') :
    InStep Pairs (Outcome.Alike Text)
      ((perform (.count s.path.text (Node.stage s).name (.call (!errors.isEmpty)))).bind
        fun _ => .done (errors.foldl Outcome.fail o))
      ((perform (.count s'.path.text (Node.stage s').name (.call (!errors'.isEmpty)))).bind
        fun _ => .done (errors'.foldl Outcome.fail o')) := by
  have hempty : errors.isEmpty = errors'.isEmpty := by cases herrors <;> rfl
  rw [hempty]
  apply InStep.act (h.count _)
  intro _ _ _
  exact .done (ho.foldl_fail herrors)

theorem Matches.proceed (h : s.Matches Pairs Text s') {o o' : Outcome} (ho : o.Alike Text o') :
    InStep Pairs (Outcome.Alike Text)
      (s.proceed (fun _ p => p.within settings.stageTimeoutMs) settings ctx o)
      (s'.proceed (fun _ p => p.within settings.stageTimeoutMs) settings ctx o') := by
  rw [Stage.proceed, Stage.proceed]
  dsimp only
  rw [← ho.isValidationSuccess_eq]
  split
  · apply InStep.act (h.count _)
    intro _ _ _
    cases ho with
    | intro kind name inner texts => exact .done (.intro kind name inner texts)
  · apply InStep.bind (h.drain.within _)
    intro errors? errors?' herrors
    have herrors (message : String) :
        List.Forall₂ Text (errors?.getD [message]) (errors?'.getD [message]) := by
      cases herrors with
      | none => exact .cons (h.same _) .nil
      | some herrors => exact herrors
    exact h.report ho (herrors _)

theorem Matches.execute (h : s.Matches Pairs Text s') :
    InStep Pairs (Outcome.Alike Text) (s.execute settings ctx) (s'.execute settings ctx) := by
  rw [execute_eq_executeIn, execute_eq_executeIn, executeIn, executeIn]
  apply InStep.bind ((h.generator ctx).within _)
  intro first first' hfirst
  apply InStep.bind ((h.datajet ctx).within _)
  intro second second' hsecond
  apply h.proceed
  cases eq_of_rel hfirst
  cases eq_of_rel hsecond
  rw [verdict, verdict, h.datajetName]
  apply Outcome.Alike.recordVerdict _ (fun _ => h.same _)
  apply Outcome.Alike.recordVerdict _ h.generatorText
  exact .intro rfl h.name .nil .nil

end Stage

theorem inStep_repeatFrom {Pairs : Op.Pairing} {Value : Outcome → Outcome → Prop}
    {child child' : Execution} {settings : RunSettings} {ctx : RunContext} {n i : Nat}
    (h : ∀ ctx, InStep Pairs Value (child settings ctx) (child' settings ctx)) :
    InStep Pairs (List.Forall₂ Value) (repeatFrom child settings ctx n i)
      (repeatFrom child' settings ctx n i) := by
  induction n generalizing i with
  | zero => exact .done .nil
  | succ n ih =>
    rw [repeatFrom, repeatFrom]
    apply InStep.bind (h _)
    intro o o' ho
    apply InStep.bind ih
    intro os os' hos
    exact .done (.cons ho hos)

end DataPipeline

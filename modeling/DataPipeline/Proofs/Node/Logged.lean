import DataPipeline.Proofs.Node.Delivery
import DataPipeline.Proofs.Node.Watched
import DataPipeline.Proofs.Run.Annotated
import DataPipeline.Proofs.Run.Counters

namespace DataPipeline

open Activity

/-- A call of a plugin of a stage, or the return of its sink. -/
inductive Call where
  | askGenerator
  | askDatajet
  | pull (i : Nat)
  | transmit (batch : Batch)
  | returned (batch : Batch) (accepted : Bool)

/-- How a call is written down. -/
def Call.entry : Call → Batch
  | askGenerator => [.string "ask the generator"]
  | askDatajet => [.string "ask the sink"]
  | pull i => [.string "pull", .number (.int i)]
  | transmit batch => .string "transmit" :: batch
  | returned batch accepted => .string "returned" :: .bool accepted :: batch

def Call.read? : Batch → Option Call
  | .string "ask the generator" :: _ => some .askGenerator
  | .string "ask the sink" :: _ => some .askDatajet
  | .string "pull" :: .number (.int i) :: _ => some (.pull i.toNat)
  | .string "transmit" :: batch => some (.transmit batch)
  | .string "returned" :: .bool accepted :: batch => some (.returned batch accepted)
  | _ => none

theorem Call.read?_entry (c : Call) : read? c.entry = some c := by
  cases c with
  | askGenerator | askDatajet | pull | transmit | returned => rfl

/-- An activity before which a call is written down. -/
def Activity.logged {α : Type} (place : String) (c : Call) (p : Activity α) : Activity α :=
  .act (.offer (ledger place) c.entry) fun _ => p

def Generator.logged (g : Generator) (place : String) : Generator :=
  { g with
    validate := fun ctx => (g.validate ctx).logged place .askGenerator
    batches := fun ctx =>
      let stream := g.batches ctx
      ⟨stream.length, fun i => (stream.pull i).logged place (.pull i)⟩ }

/-- Whether a sink has taken a batch. -/
def accepted : Except Chain Unit → Bool
  | .ok _ => true
  | .error _ => false

def Datajet.logged (d : Datajet) (place : String) : Datajet :=
  { d with
    validate := fun ctx => (d.validate ctx).logged place .askDatajet
    transmit := fun earlier batch ctx =>
      ((d.transmit earlier batch ctx).bind fun result =>
        (Activity.done result).logged place (.returned batch (accepted result))).logged place
          (.transmit batch) }

def Stage.logged (s : Stage) : Stage :=
  { s with
    generator := s.generator.logged s.path.text
    datajet := s.datajet.logged s.path.text }

def Event.call? (place : String) (e : Event) : Option Call :=
  (e.op.offered? (ledger place)).bind Call.read?

/-- The calls that are written down at a place. -/
def log (place : String) (es : List Event) : List Call := es.filterMap (Event.call? place)

/-- What is counted at a place. -/
def counted (place : String) (es : List Event) : List (String × Occurrence) :=
  es.filterMap fun e => e.op.counted? place

section

variable {es es' : List Event} {place : String} {c : Call} {t : Nat} {answer : List Batch}

theorem log_append : log place (es ++ es') = log place es ++ log place es' :=
  List.filterMap_append

theorem counted_append : counted place (es ++ es') = counted place es ++ counted place es' :=
  List.filterMap_append

theorem counted_history {α : Type} (p : Activity α) (w : World) :
    counted place (p.history w) = (p.actions w).filterMap (Op.counted? place) := by
  rw [actions_eq, List.filterMap_map]
  rfl

theorem World.tally_run {α : Type} {p : Activity α} {w w' : World} {a : α}
    (hrun : p.run w = some (a, w')) {counter : StageMetrics → Nat} {weight : Occurrence → Nat}
    (hadd : ∀ m o, counter (m.add o) = counter m + weight o)
    (hstart : ∀ name, counter { stage := name } = 0) :
    w'.tally place counter =
      w.tally place counter + ((counted place (p.history w)).map fun x => weight x.2).sum := by
  rw [World.tally, at?_run hrun, ← counted_history, getD_foldl_recount hadd hstart]
  rfl

theorem call?_entry :
    Event.call? place ⟨t, .offer (ledger place) c.entry, answer⟩ = some c := by
  rw [Event.call?, Op.offered?, if_pos rfl]
  exact c.read?_entry

theorem log_entry :
    log place (⟨t, .offer (ledger place) c.entry, answer⟩ :: es) = c :: log place es :=
  List.filterMap_cons_some call?_entry

theorem counted_entry {q : String} :
    counted q (⟨t, .offer (ledger place) c.entry, answer⟩ :: es) = counted q es :=
  List.filterMap_cons_none rfl

theorem log_plugins (h : ∀ e ∈ es, e.op.OfPlugin) : log place es = [] := by
  apply List.filterMap_eq_nil_iff.2
  intro e he
  rw [Event.call?, (h e he).offered?]
  rfl

theorem counted_plugins (h : ∀ e ∈ es, e.op.OfPlugin) : counted place es = [] :=
  List.filterMap_eq_nil_iff.2 fun e he => (h e he).counted? _

theorem unmarked_plugins (h : ∀ e ∈ es, e.op.OfPlugin) : unmarked Op.IsTake es = es :=
  List.filter_eq_self.2 fun e he => by simpa using (h e he).not_isTake

theorem unmarked_entry : unmarked Op.IsTake (⟨t, .offer (ledger place) c.entry, answer⟩ :: es) =
    unmarked Op.IsTake es :=
  List.filter_cons_of_neg (by simpa using ⟨place, rfl⟩)

theorem unmarked_append :
    unmarked Op.IsTake (es ++ es') = unmarked Op.IsTake es ++ unmarked Op.IsTake es' :=
  List.filter_append es es'

end

section

variable {α : Type} {p q : Activity α} {place : String} {c : Call}

theorem Activity.Annotates.logged (h : Annotates Op.IsTake p q) :
    Annotates Op.IsTake p (q.logged place c) :=
  .mark ⟨place, rfl⟩ fun _ => h

theorem Activity.OfPlugin.only (h : p.OfPlugin) : p.Only Op.OfPlugin := by
  induction p with
  | done | stall => trivial
  | act op next ih => exact ⟨h.1, fun answer => ih answer (h.2 answer)⟩
  | sleep ms next ih => exact ih h

theorem Activity.OfPlugin.annotates (h : p.OfPlugin) : Annotates Op.IsTake p p :=
  (h.only.mono fun _ hop => hop.not_isTake).annotates

end

namespace Stage

variable {s : Stage} {name : String} {ctx : RunContext}

theorem not_isTake_offer (s : Stage) (batch : Batch) :
    ¬(Op.offer s.path.text batch).IsTake := by
  rintro ⟨place, h⟩
  exact text_ne_ledger s.path place h

theorem call?_offer (s : Stage) {t : Nat} {batch : Batch} {answer : List Batch} :
    Event.call? s.path.text ⟨t, .offer s.path.text batch, answer⟩ = none := by
  rw [Event.call?, Op.offered?, if_neg (text_ne_ledger s.path s.path.text)]
  rfl

theorem annotates_handOn (hs : s.OfPlugins) (i : Nat) :
    Annotates Op.IsTake (s.handOn name ctx i) (s.logged.handOn name ctx i) := by
  apply Annotates.bind (hs.pull ctx i).annotates.logged
  intro item
  cases item with
  | error c => exact .done _
  | ok batch =>
    apply Annotates.act (not_isTake_offer s batch)
    intro earlier
    apply Annotates.logged
    change Annotates _ ((s.datajet.transmit earlier batch ctx).bind _)
      (((s.datajet.transmit earlier batch ctx).bind _).bind _)
    rw [bind_bind]
    apply (hs.transmit earlier batch ctx).annotates.bind
    intro result
    apply Annotates.logged
    cases result with
    | error c => exact .done _
    | ok _ => exact .act id fun _ => .done _

theorem annotates_drainFrom (hs : s.OfPlugins) (n i : Nat) : Annotates Op.IsTake
    (s.drainFrom name ctx (s.generator.batches ctx) n i)
    (s.logged.drainFrom name ctx (s.logged.generator.batches ctx) n i) := by
  induction n generalizing i with
  | zero => exact .done []
  | succ n ih =>
    rw [drainFrom_handOn, drainFrom_handOn]
    apply (annotates_handOn hs i).bind
    intro d
    change Annotates _ (if d.failed && !s.settings.continueOnError then _ else _)
      (if d.failed && !s.settings.continueOnError then _ else _)
    split
    · exact .done _
    · exact (ih (i + 1)).bind fun errors => .done _

theorem annotates_drain (hs : s.OfPlugins) :
    Annotates Op.IsTake (s.drain name ctx) (s.logged.drain name ctx) :=
  annotates_drainFrom hs _ 0

theorem annotates_execute (hs : s.OfPlugins) (settings : RunSettings) :
    Annotates Op.IsTake (s.execute settings ctx) (s.logged.execute settings ctx) := by
  rw [execute_eq_executeIn, execute_eq_executeIn]
  apply ((hs.generator ctx).annotates.logged.within _).bind
  intro first
  apply ((hs.datajet ctx).annotates.logged.within _).bind
  intro second
  change Annotates _ (s.proceed _ settings ctx (s.verdict settings first second))
    (s.logged.proceed _ settings ctx (s.verdict settings first second))
  rw [proceed, proceed]
  dsimp only
  split
  · exact .act id fun _ => .done _
  · apply ((annotates_drain hs).within _).bind
    intro errors
    exact .act id fun _ => .done _

end Stage

/-- Two ends of a run in worlds that differ in their ledgers only, or both none. -/
abbrev AlikeEnds {α : Type} : Option (α × World) → Option (α × World) → Prop :=
  Option.Rel fun r r' => r.1 = r'.1 ∧ r.2.Alike r'.2

section

variable {α β : Type} {p q : Activity α} {w v : World} {e e' : Option (α × World)}

theorem AlikeEnds.bind_eq {f g : α × World → Option β} (h : AlikeEnds e e')
    (hfg : ∀ a w v, w.Alike v → f (a, w) = g (a, v)) : e.bind f = e'.bind g := by
  cases h with
  | none => rfl
  | @some r r' hr =>
    obtain ⟨a, w⟩ := r
    obtain ⟨a', v⟩ := r'
    obtain ⟨rfl, halike⟩ := hr
    exact hfg a w v halike

theorem AlikeEnds.map_fst (h : AlikeEnds e e') : e.map (·.1) = e'.map (·.1) := by
  cases h with
  | none => rfl
  | some hr => exact congrArg some hr.1

theorem Activity.Annotates.run (h : Annotates Op.IsTake p q) (hv : w.Alike v) :
    AlikeEnds (p.run w) (q.run v) := by
  induction h generalizing w v with
  | done a => exact .some ⟨rfl, hv⟩
  | act hop h ih =>
    obtain ⟨hanswer, hv⟩ := hv.perform hop
    rw [Activity.run, Activity.run, ← hanswer]
    exact ih _ hv
  | mark hm h ih => exact ih _ (hv.take hm)
  | sleep ms h ih => exact ih (hv.later ms)
  | stall => exact .none

theorem Activity.Annotates.ends (h : Annotates Op.IsTake p q) (hv : w.Alike v)
    {a : α} {w' : World} (hrun : p.run w = some (a, w')) :
    ∃ v', q.run v = some (a, v') ∧ w'.Alike v' := by
  have hends := h.run hv
  rw [hrun] at hends
  generalize q.run v = e at hends
  cases hends with
  | @some _ r hr =>
    obtain ⟨a', v'⟩ := r
    obtain ⟨rfl, halike⟩ := hr
    exact ⟨v', rfl, halike⟩

theorem Activity.Annotates.at?_run (h : Annotates Op.IsTake p q) {a : α} {w' : World}
    (hrun : p.run w = some (a, w')) (place : String) :
    w'.metrics.at? place =
      (counted place (q.history w)).foldl recount (w.metrics.at? place) := by
  obtain ⟨v', hlogged, halike⟩ := h.ends (World.Alike.refl w) hrun
  rw [halike.metrics, Activity.at?_run hlogged, counted_history]

theorem Activity.Annotates.tally_run (h : Annotates Op.IsTake p q) {a : α} {w' : World}
    (hrun : p.run w = some (a, w')) {counter : StageMetrics → Nat} {weight : Occurrence → Nat}
    (hadd : ∀ m o, counter (m.add o) = counter m + weight o)
    (hstart : ∀ name, counter { stage := name } = 0) (place : String) : w'.tally place counter =
      w.tally place counter + ((counted place (q.history w)).map fun x => weight x.2).sum := by
  rw [World.tally, h.at?_run hrun, getD_foldl_recount hadd hstart]
  rfl

theorem Activity.Annotates.history (h : Annotates Op.IsTake p q) (hv : w.Alike v) :
    unmarked Op.IsTake (q.history v) = p.history w := by
  induction h generalizing w v with
  | done | stall => rfl
  | act hop h ih =>
    obtain ⟨hanswer, hnext⟩ := hv.perform hop
    rw [Activity.history, Activity.history, unmarked,
      List.filter_cons_of_pos (by simpa using hop), hv.now, hanswer]
    exact congrArg _ (ih _ hnext)
  | mark hm h ih =>
    rw [Activity.history, unmarked, List.filter_cons_of_neg (by simpa using hm)]
    exact ih _ (hv.take hm)
  | sleep ms h ih => exact ih (hv.later ms)

end

end DataPipeline

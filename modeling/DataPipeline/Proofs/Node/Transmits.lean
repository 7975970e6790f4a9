import DataPipeline.Proofs.Node.Logged
import DataPipeline.Proofs.Node.Reconciled
import DataPipeline.Proofs.Node.Sinks
import DataPipeline.Proofs.Plugin.Lines
import DataPipeline.Proofs.Run.Appended
import DataPipeline.Proofs.Run.Begun

namespace DataPipeline

open Activity

/-- How many records an event counts at a place. -/
def Event.records (place : String) (e : Event) : Nat :=
  ((e.op.counted? place).map (·.2.records)).getD 0

/-- An action that neither transmits a batch nor tells of one. -/
def Op.Aside : Op → Prop
  | .offer .. | .openFile _ | .append .. | .count _ _ (.batch _) => False
  | .print _ | .makeDirectories _ | .note _ | .count _ _ .invalid | .count _ _ (.call _) => True

section

variable {e : Event}

theorem Op.Aside.appended? (h : e.op.Aside) : e.appended? = none := by
  obtain ⟨t, op, answer⟩ := e
  cases op with
  | offer | openFile | append => exact h.elim
  | print | makeDirectories | note | count => rfl

theorem Op.Aside.records (h : e.op.Aside) (place : String) : e.records place = 0 := by
  obtain ⟨t, op, answer⟩ := e
  cases op with
  | offer | openFile | append => exact h.elim
  | print | makeDirectories | note => rfl
  | count path name o =>
    rw [Event.records, Op.counted?]
    cases o with
    | batch => exact h.elim
    | invalid | call => split <;> rfl

theorem Op.OfPlugin.records (h : e.op.OfPlugin) (place : String) : e.records place = 0 := by
  rw [Event.records, h.counted?]
  rfl

end

theorem sum_counted (place : String) (es : List Event) :
    ((counted place es).map fun x => x.2.records).sum = (es.map (Event.records place)).sum := by
  induction es with
  | nil => rfl
  | cons e es ih =>
    rw [List.map_cons, List.sum_cons, ← ih, counted, List.filterMap_cons, Event.records]
    cases e.op.counted? place with
    | none => simp [counted]
    | some x => simp [counted]

namespace Activity

variable {α β : Type} {p : Activity α}

theorem cutAfter_bind (h : p.Ensures fun _ elapsed => elapsed = 0) (f : α → Activity β)
    {limit : Nat} (hlimit : 0 < limit) :
    (p.bind f).cutAfter limit = p.bind fun a => (f a).cutAfter limit := by
  induction p with
  | done a => rfl
  | act op next ih => exact congrArg _ (funext fun answer => ih answer (h answer))
  | sleep ms next ih =>
    have hnext : next.Ensures fun _ elapsed => ms + elapsed = 0 := h
    obtain ⟨_, w, _, _, hzero⟩ := hnext.run {}
    obtain rfl : ms = 0 := by omega
    have hcut := ih (hnext.mono fun _ elapsed heq => by omega)
    rw [Activity.bind, cutAfter, if_pos ⟨hlimit, Nat.zero_le limit⟩, Nat.sub_zero, hcut]
    rfl
  | stall => exact h.elim

theorem cutAfter_zero_bind (p : Activity α) (limit : Option Nat) (f : Option α → Activity β) :
    ((p.within limit).bind f).cutAfter 0 =
      (p.cutAfter 0).bind fun a? => a?.elim (.done none) fun a => (f (some a)).cutAfter 0 := by
  induction p with
  | done a => cases limit <;> rfl
  | act op next ih =>
    cases limit with
    | none => exact congrArg _ (funext fun answer => ih answer)
    | some ms => exact congrArg _ (funext fun answer => ih answer)
  | sleep ms next ih =>
    cases limit with
    | none => rfl
    | some limit =>
      rw [within, cutAfter]
      split <;> rfl
  | stall => cases limit <;> rfl

theorem Ensures.within_due (h : p.Ensures fun _ elapsed => elapsed = 0) {limit : Option Nat}
    (hdue : limit.getD 0 = 0) : (p.within limit).Ensures fun _ elapsed => elapsed = 0 := by
  cases limit with
  | none =>
    apply Ensures.bind
    exact h.mono fun _ _ heq => heq
  | some ms =>
    obtain rfl : ms = 0 := hdue
    exact (ensures_cutAfter p 0).mono fun _ _ => Nat.le_zero.1

end Activity

/-- A sink that is at once done with a batch, and does nothing on its own account when it is
validated. -/
structure Datajet.Prompt (d : Datajet) : Prop where
  validate : ∀ ctx, (d.validate ctx).Only Op.Aside
  transmit : ∀ earlier batch ctx, (d.transmit earlier batch ctx).Ensures fun _ elapsed =>
    elapsed = 0

/-- A generator that does not meddle with what is transmitted. -/
structure Generator.Aside (g : Generator) : Prop where
  validate : ∀ ctx, (g.validate ctx).Only Op.Aside
  pull : ∀ ctx i, ((g.batches ctx).pull i).Only Op.Aside

theorem Generator.Silent.aside {g : Generator} (h : g.Silent) : g.Aside where
  validate ctx := (h.only _ ctx).1
  pull ctx := (h.only _ ctx).2

namespace Stage

/-- A stage at its work: when it offers a batch it hands the batch to the sink, and counts it
when it is taken. If the limit of the stage is due, the sink may be cut off where it waits
first. -/
inductive Orderly (s : Stage) {α : Type} : Activity α → Prop where
  | done (a : α) : Orderly s (.done a)
  | stall : Orderly s .stall
  | sleep {ms next} (h : Orderly s next) : Orderly s (.sleep ms next)
  | aside {op next} (hop : op.Aside) (h : ∀ answer, Orderly s (next answer)) :
      Orderly s (.act op next)
  | transmit {batch ctx name taken} {limit : Option Nat}
      {next : Option (Except Chain Unit) → Activity α} (hdue : limit.getD 0 = 0)
      (hcount : next (some (.ok ())) =
        .act (.count s.path.text name (.batch batch.length)) fun _ => taken)
      (htaken : Orderly s taken) (hrefused : ∀ c, Orderly s (next (some (.error c))))
      (hcut : Orderly s (next none)) :
      Orderly s (.act (.offer s.path.text batch) fun earlier =>
        ((s.datajet.transmit earlier batch ctx).within limit).bind next)

/-- What a stage does, and the batches that its sink takes in the course of it. -/
inductive Transmits (s : Stage) : List Event → List Batch → Prop where
  | nil : Transmits s [] []
  | aside {e es taken} (he : e.op.Aside) (h : Transmits s es taken) :
      Transmits s (e :: es) taken
  | cut {t t' earlier batch ctx own es taken}
      (hown : ((s.datajet.transmit earlier batch ctx).cutAfter 0).Passes t (some none) own t')
      (h : Transmits s es taken) :
      Transmits s (⟨t, .offer s.path.text batch, earlier⟩ :: (own ++ es)) taken
  | refused {t t' earlier batch ctx c own es taken}
      (hown : (s.datajet.transmit earlier batch ctx).Passes t (some (.error c)) own t')
      (h : Transmits s es taken) :
      Transmits s (⟨t, .offer s.path.text batch, earlier⟩ :: (own ++ es)) taken
  | taken {t t' earlier batch ctx name answer own es taken}
      (hown : (s.datajet.transmit earlier batch ctx).Passes t (some (.ok ())) own t')
      (h : Transmits s es taken) :
      Transmits s (⟨t, .offer s.path.text batch, earlier⟩ ::
        (own ++ ⟨t', .count s.path.text name (.batch batch.length), answer⟩ :: es))
          (batch :: taken)

variable {s : Stage} {α β : Type} {p : Activity α} {name : String} {ctx : RunContext}

theorem orderly_of_only (h : p.Only Op.Aside) : s.Orderly p := by
  induction p with
  | done a => exact .done a
  | act op next ih => exact .aside h.1 fun answer => ih answer (h.2 answer)
  | sleep ms next ih => exact .sleep (ih h)
  | stall => exact .stall

theorem Orderly.bind {f : α → Activity β} (h : s.Orderly p) (hf : ∀ a, s.Orderly (f a)) :
    s.Orderly (p.bind f) := by
  induction h with
  | done a => exact hf a
  | stall => exact .stall
  | sleep h ih => exact .sleep ih
  | aside hop h ih => exact .aside hop ih
  | @transmit batch ctx name sent limit next hdue hcount htaken hrefused hcut ih ihr ihc =>
    have hnext :
        (next (some (.ok ()))).bind f = .act (.count s.path.text name (.batch batch.length))
        fun _ => sent.bind f := by
      rw [hcount]
      rfl
    simp only [Activity.bind, bind_bind]
    exact .transmit hdue hnext ih ihr ihc

theorem Orderly.cutAfter (hd : s.datajet.Prompt) (h : s.Orderly p) (ms : Nat) :
    s.Orderly (p.cutAfter ms) := by
  induction h generalizing ms with
  | done a => exact .done (some a)
  | stall => exact .sleep (.done none)
  | sleep h ih =>
    rw [Activity.cutAfter]
    split
    · exact .sleep (ih _)
    · exact .sleep (.done none)
  | aside hop h ih => exact .aside hop fun answer => ih answer ms
  | @transmit batch ctx name sent limit next hdue hcount htaken hrefused hcut ih ihr ihc =>
    have hnext : (next (some (.ok ()))).cutAfter ms =
        .act (.count s.path.text name (.batch batch.length)) fun _ => sent.cutAfter ms := by
      rw [hcount]
      rfl
    rcases Nat.eq_zero_or_pos ms with rfl | hms
    · have hstruck : (Activity.act (.offer s.path.text batch) fun earlier =>
          ((s.datajet.transmit earlier batch ctx).within limit).bind next).cutAfter 0 =
            .act (.offer s.path.text batch) fun earlier =>
              ((s.datajet.transmit earlier batch ctx).within (some 0)).bind fun result? =>
                result?.elim (.done none) fun result => (next (some result)).cutAfter 0 :=
        congrArg (Activity.act _) (funext fun earlier => cutAfter_zero_bind _ limit next)
      rw [hstruck]
      exact .transmit rfl hnext (ih 0) (fun c => ihr c 0) (.done none)
    · have hspared : (Activity.act (.offer s.path.text batch) fun earlier =>
          ((s.datajet.transmit earlier batch ctx).within limit).bind next).cutAfter ms =
            .act (.offer s.path.text batch) fun earlier =>
              ((s.datajet.transmit earlier batch ctx).within limit).bind fun result? =>
                (next result?).cutAfter ms :=
        congrArg (Activity.act _) (funext fun earlier =>
          cutAfter_bind ((hd.transmit earlier batch ctx).within_due hdue) next hms)
      rw [hspared]
      exact .transmit hdue hnext (ih ms) (fun c => ihr c ms) (ihc ms)

theorem Orderly.within (hd : s.datajet.Prompt) (h : s.Orderly p) (limit : Option Nat) :
    s.Orderly (p.within limit) := by
  cases limit with
  | some ms => exact h.cutAfter hd ms
  | none => exact h.bind fun a => .done (some a)

theorem orderly_deliver (number : Nat) (item : Except Chain Batch) :
    s.Orderly (s.deliver name ctx number item) := by
  cases item with
  | error c => exact .done _
  | ok batch =>
    let next (result? : Option (Except Chain Unit)) : Activity (Option String) :=
      match result? with
      | none => .stall
      | some (.error c) => .done (some (s.failedTransmit number c))
      | some (.ok ()) =>
        .act (.count s.path.text name (.batch batch.length)) fun _ => .done none
    have hdeliver :
        s.deliver name ctx number (.ok batch) = .act (.offer s.path.text batch) fun earlier =>
        ((s.datajet.transmit earlier batch ctx).within none).bind next := by
      change Activity.act _ _ = Activity.act _ _
      congr 1
      funext earlier
      rw [Activity.within, bind_bind]
      change (s.datajet.transmit earlier batch ctx).bind _ =
        (s.datajet.transmit earlier batch ctx).bind _
      congr 1
      funext result
      cases result <;> rfl
    rw [hdeliver]
    exact .transmit rfl rfl (.done none) (fun c => .done _) .stall

theorem orderly_drainFrom (hg : s.generator.Aside) (n i : Nat) :
    s.Orderly (s.drainFrom name ctx (s.generator.batches ctx) n i) := by
  induction n generalizing i with
  | zero => exact .done []
  | succ n ih =>
    apply (orderly_of_only (hg.pull ctx i)).bind
    intro item
    apply (orderly_deliver (i + 1) item).bind
    intro error?
    cases error? with
    | none => exact ih (i + 1)
    | some error =>
      dsimp only
      split
      · exact (ih (i + 1)).bind fun errors => .done _
      · exact .done _

theorem orderly_execute (hg : s.generator.Aside) (hd : s.datajet.Prompt)
    (settings : RunSettings) (ctx : RunContext) :
    s.Orderly (s.execute settings ctx) := by
  apply (orderly_of_only ((hg.validate ctx).within _)).bind
  intro first
  apply (orderly_of_only ((hd.validate ctx).within _)).bind
  intro second
  dsimp only
  split
  · exact .aside trivial fun _ => .done _
  · apply ((orderly_drainFrom hg _ 0).within hd _).bind
    intro errors
    exact .aside trivial fun _ => .done _

/-- Under a limit that is due, or none, an activity is cut off where it waits first, or
passes. -/
theorem passes_due {limit : Option Nat} (hdue : limit.getD 0 = 0) {t t' : Nat} {r? : Option α}
    {es : List Event} (h : (p.within limit).Passes t (some r?) es t') :
    r? = none ∧ (p.cutAfter 0).Passes t (some none) es t' ∨
      ∃ a, r? = some a ∧ p.Passes t (some a) es t' := by
  cases limit with
  | none =>
    obtain ⟨r, hp, heq⟩ := passes_map h
    cases r with
    | none => cases heq
    | some a =>
      cases heq
      exact .inr ⟨a, rfl, hp⟩
  | some ms =>
    obtain rfl : ms = 0 := hdue
    cases r? with
    | none => exact .inl ⟨rfl, h⟩
    | some a =>
      rcases passes_cutAfter h with ⟨_, heq, hp⟩ | ⟨heq, _⟩
      · cases heq
        exact .inr ⟨a, rfl, hp⟩
      · cases heq

/-- Whatever course the work of a stage takes, each batch that is offered is refused, or taken
and counted, or the sink is cut off. -/
theorem Orderly.passes (hd : s.datajet.Prompt) (h : s.Orderly p) {t t' : Nat} {r : Option α}
    {es : List Event} (hp : p.Passes t r es t') : ∃ taken, s.Transmits es taken := by
  induction h generalizing t es with
  | done a =>
    cases hp
    exact ⟨[], .nil⟩
  | stall =>
    cases hp
    exact ⟨[], .nil⟩
  | sleep h ih =>
    cases hp with
    | sleep hp => exact ih hp
  | aside hop h ih =>
    cases hp with
    | act answer hp =>
      obtain ⟨taken, hrest⟩ := ih answer hp
      exact ⟨taken, .aside hop hrest⟩
  | @transmit batch ctx name sent limit next hdue hcount htaken hrefused hcut ih ihr ihc =>
    cases hp with
    | act earlier hp =>
      rcases passes_bind hp with ⟨result?, own, t₁, es₂, hown, hrest, rfl⟩ | ⟨_, hown⟩
      · rcases passes_due hdue hown with ⟨rfl, hstopped⟩ | ⟨result, rfl, hpassed⟩
        · obtain ⟨taken, hrest⟩ := ihc hrest
          exact ⟨taken, .cut hstopped hrest⟩
        · cases result with
          | error c =>
            obtain ⟨taken, hrest⟩ := ihr c hrest
            exact ⟨taken, .refused hpassed hrest⟩
          | ok _ =>
            rw [hcount] at hrest
            cases hrest with
            | act answer hrest =>
              obtain ⟨taken, hrest⟩ := ih hrest
              exact ⟨batch :: taken, .taken hpassed hrest⟩
      · obtain ⟨_, hnone, _⟩ := ((hd.transmit _ batch ctx).within_due hdue).passes hown
        cases hnone

end Stage

/-- The file at whose end a sink puts its batches, if it does: the first that it opens for a
batch. -/
def Datajet.file? (d : Datajet) : Option String :=
  match d.transmit [] [] {} with
  | .act (.openFile path) _ => some path
  | _ => none

namespace Datajet

variable {root : String} {d : Datajet} {earlier : List Batch} {batch : Batch} {ctx : RunContext}

theorem Within.file?_eq_some (h : d.Within root) {file : String} : d.file? = some file ↔
    d = fileDatajet file ∧ ∃ path, pathDefect path = none ∧ file = FilePath.join root path := by
  constructor
  · intro hfile
    cases h with
    | stdout label => cases hfile
    | discard => cases hfile
    | file hdefect =>
      cases hfile
      exact ⟨rfl, _, hdefect, rfl⟩
  · rintro ⟨rfl, _⟩
    rfl

theorem Within.prompt (h : d.Within root) : d.Prompt where
  validate ctx := by
    cases h with
    | stdout label => trivial
    | discard => trivial
    | file hdefect =>
      rw [fileDatajet]
      dsimp only
      split
      · trivial
      · exact ⟨trivial, fun answer => by cases answer <;> trivial⟩
  transmit earlier batch ctx := by
    cases h with
    | stdout label => exact fun _ => rfl
    | discard => exact rfl
    | file hdefect =>
      intro opened
      cases opened with
      | error e => rfl
      | ok _ =>
        intro written
        cases written <;> rfl

/-- A built-in sink that writes a file puts a batch at its end just if it takes the batch, and
the others none. -/
theorem Within.passes_transmit (h : d.Within root) {t t' : Nat} {result : Except Chain Unit}
    {es : List Event} (hp : (d.transmit earlier batch ctx).Passes t (some result) es t') :
    (∀ e ∈ es, e.op.OfPlugin) ∧
      es.filterMap Event.appended? =
        if accepted result then (d.file?.map fun path => (path, jsonLines batch)).toList
          else [] := by
  cases h with
  | stdout label =>
    cases hp with
    | act answer hp =>
    cases hp with
    | sleep hp =>
      cases hp
      exact ⟨List.forall_mem_singleton.2 trivial, rfl⟩
  | discard =>
    cases hp
    exact ⟨nofun, rfl⟩
  | file hdefect =>
    cases hp with
    | act opened hp =>
    cases opened with
    | error e =>
      cases hp with
      | sleep hp =>
        cases hp
        exact ⟨List.forall_mem_singleton.2 trivial, rfl⟩
    | ok _ =>
      cases hp with
      | sleep hp =>
      cases hp with
      | act written hp =>
      cases written with
      | error e =>
        cases hp with
        | sleep hp =>
          cases hp
          exact ⟨by simp [Op.OfPlugin], rfl⟩
      | ok _ =>
        cases hp with
        | sleep hp =>
        cases hp with
        | sleep hp =>
          cases hp
          refine ⟨by simp [Op.OfPlugin], ?_⟩
          rw [← lines_eq_jsonLines]
          rfl

/-- A built-in sink that is cut off has put nothing at the end of a file. -/
theorem Within.passes_cut (h : d.Within root) {t t' : Nat} {es : List Event}
    (hp : ((d.transmit earlier batch ctx).cutAfter 0).Passes t (some none) es t') :
    (∀ e ∈ es, e.op.OfPlugin) ∧ es.filterMap Event.appended? = [] := by
  cases h with
  | stdout label =>
    cases hp with
    | act answer hp =>
    cases hp with
    | sleep hp =>
      cases hp
      exact ⟨List.forall_mem_singleton.2 trivial, rfl⟩
  | discard => cases hp
  | file hdefect =>
    -- it is the opening of the file that is waited for first
    cases hp with
    | act opened hp =>
    cases hp with
    | sleep hp =>
      cases hp
      exact ⟨List.forall_mem_singleton.2 trivial, rfl⟩

end Datajet

namespace Stage

variable {s : Stage} {root : String} {es : List Event} {taken : List Batch}

theorem Transmits.appended (hd : s.datajet.Within root) (h : s.Transmits es taken) :
    es.filterMap Event.appended? =
      s.datajet.file?.elim [] fun path => taken.map fun batch => (path, jsonLines batch) := by
  induction h with
  | nil => cases s.datajet.file? <;> rfl
  | aside he h ih => rw [List.filterMap_cons_none he.appended?, ih]
  | cut hown h ih =>
    rw [List.filterMap_cons_none rfl, List.filterMap_append, (hd.passes_cut hown).2, ih]
    rfl
  | refused hown h ih =>
    rw [List.filterMap_cons_none rfl, List.filterMap_append, (hd.passes_transmit hown).2, ih]
    rfl
  | taken hown h ih =>
    rw [List.filterMap_cons_none rfl, List.filterMap_append, (hd.passes_transmit hown).2,
      List.filterMap_cons_none rfl, ih]
    cases s.datajet.file? <;> rfl

/-- A stage counts at its place the records of the batches that its sink takes, and none
elsewhere. -/
theorem Transmits.records (hd : s.datajet.Within root) (h : s.Transmits es taken)
    (place : String) :
    (es.map (Event.records place)).sum = if s.path.text = place then
      (taken.map List.length).sum else 0 := by
  have hplugins {own : List Event} (h : ∀ e ∈ own, e.op.OfPlugin) :
      (own.map (Event.records place)).sum = 0 :=
    List.sum_eq_zero (List.forall_mem_map.2 fun e he => (h e he).records place)
  induction h with
  | nil => simp
  | aside he h ih => rw [List.map_cons, List.sum_cons, he.records, Nat.zero_add, ih]
  | cut hown h ih =>
    rw [List.map_cons, List.sum_cons, List.map_append, List.sum_append,
      hplugins (hd.passes_cut hown).1, ih]
    exact (Nat.zero_add _).trans (Nat.zero_add _)
  | refused hown h ih =>
    rw [List.map_cons, List.sum_cons, List.map_append, List.sum_append,
      hplugins (hd.passes_transmit hown).1, ih]
    exact (Nat.zero_add _).trans (Nat.zero_add _)
  | @taken t t' earlier batch ctx name answer own es taken hown h ih =>
    have hcount :
        Event.records place ⟨t', .count s.path.text name (.batch batch.length), answer⟩ =
          if s.path.text = place then batch.length else 0 := by
      rw [Event.records, Op.counted?]
      split <;> rfl
    have hoffer : Event.records place ⟨t, .offer s.path.text batch, earlier⟩ = 0 := rfl
    rw [List.map_cons, List.sum_cons, List.map_append, List.sum_append,
      hplugins (hd.passes_transmit hown).1, hoffer, List.map_cons, List.sum_cons, hcount, ih,
      List.map_cons, List.sum_cons]
    split <;> omega

end Stage

end DataPipeline

import DataPipeline.Proofs.Node.Logged
import DataPipeline.Proofs.Node.Sinks
import DataPipeline.Proofs.Node.Tallies
import DataPipeline.Proofs.Run.Begun

namespace DataPipeline

open Activity

/-- What is asked of the disk is done. -/
def Event.Granted : Event → Prop
  | ⟨_, .openFile _, answer⟩ => answer = .ok ()
  | ⟨_, .append .., answer⟩ => answer = .ok ()
  | ⟨_, .makeDirectories _, answer⟩ => answer = .ok ()
  | ⟨_, .offer .., _⟩ | ⟨_, .print _, _⟩ | ⟨_, .note _, _⟩ | ⟨_, .count .., _⟩ => True

instance : DecidablePred Event.Granted
  | ⟨_, .openFile _, .ok ()⟩ | ⟨_, .append .., .ok ()⟩ | ⟨_, .makeDirectories _, .ok ()⟩ =>
    isTrue rfl
  | ⟨_, .openFile _, .error _⟩ | ⟨_, .append .., .error _⟩
  | ⟨_, .makeDirectories _, .error _⟩ =>
    isFalse nofun
  | ⟨_, .offer .., _⟩ | ⟨_, .print _, _⟩ | ⟨_, .note _, _⟩ | ⟨_, .count .., _⟩ => isTrue trivial

/-- A sink that never fails as long as what it does is answered in some way: it does not refuse
the data when it is asked, and it takes each batch. -/
structure Datajet.NeverFails (d : Datajet) (granted : Event → Prop) : Prop where
  validate : ∀ {ctx t r es t'}, (d.validate ctx).Passes t r es t' → (∀ e ∈ es, granted e) →
    ∃ v, r = some v ∧ ∀ reason, v ≠ .failed reason
  transmit : ∀ {earlier batch ctx t r es t'}, (d.transmit earlier batch ctx).Passes t r es t' →
    (∀ e ∈ es, granted e) → r = some (.ok ())

/-- The built-in sinks never fail where the disk does what is asked of it. -/
theorem Datajet.Within.neverFails {root : String} {d : Datajet} (h : d.Within root) :
    d.NeverFails Event.Granted where
  validate hp hgranted := by
    cases h with
    | stdout label =>
      cases hp
      exact ⟨.passed, rfl, nofun⟩
    | discard =>
      cases hp
      exact ⟨.passed, rfl, nofun⟩
    | file hdefect =>
      rw [fileDatajet] at hp
      dsimp only at hp
      split at hp
      · cases hp
        exact ⟨.passed, rfl, nofun⟩
      · cases hp with
        | act answer hp =>
          obtain rfl : answer = .ok () := hgranted _ List.mem_cons_self
          cases hp with
          | sleep hp =>
            cases hp
            exact ⟨.passed, rfl, nofun⟩
  transmit hp hgranted := by
    cases h with
    | stdout label =>
      cases hp with
      | act answer hp =>
      cases hp with
      | sleep hp =>
        cases hp
        rfl
    | discard =>
      cases hp
      rfl
    | file hdefect =>
      cases hp with
      | act opened hp =>
      obtain rfl : opened = .ok () := hgranted _ List.mem_cons_self
      cases hp with
      | sleep hp =>
      cases hp with
      | act written hp =>
      obtain rfl : written = .ok () := hgranted _ (List.mem_cons_of_mem _ List.mem_cons_self)
      cases hp with
      | sleep hp =>
      cases hp with
      | sleep hp =>
        cases hp
        rfl

/-- The batches that are offered at a place. -/
def offered (place : String) (es : List Event) : List Batch :=
  es.filterMap fun e => e.op.offered? place

section

variable {es es' : List Event} {place : String}

theorem offered_append : offered place (es ++ es') = offered place es ++ offered place es' :=
  List.filterMap_append

theorem offered_plugins (h : ∀ e ∈ es, e.op.OfPlugin) : offered place es = [] :=
  List.filterMap_eq_nil_iff.2 fun e he => (h e he).offered? _

theorem offered_offer {t : Nat} {batch : Batch} {earlier : List Batch} :
    offered place (⟨t, .offer place batch, earlier⟩ :: es) = batch :: offered place es := by
  have hoffer : (Op.offer place batch).offered? place = some batch := if_pos rfl
  exact List.filterMap_cons_some hoffer

theorem counted_offer {path : String} {t : Nat} {batch : Batch} {earlier : List Batch} :
    counted place (⟨t, .offer path batch, earlier⟩ :: es) = counted place es :=
  List.filterMap_cons_none rfl

theorem counted_count {path name : String} {t : Nat} {o : Occurrence}
    {answer : (Op.count path name o).Answer} :
    counted place (⟨t, .count path name o, answer⟩ :: es) =
      (if path = place then [(name, o)] else []) ++ counted place es := by
  have hcount : (Op.count path name o).counted? place = if path = place then
    some (name, o) else none := rfl
  split
  next hplace => exact List.filterMap_cons_some (hcount.trans (if_pos hplace))
  next hplace => exact List.filterMap_cons_none (hcount.trans (if_neg hplace))

end

namespace Stage

/-- What is done while batches are handed out one after another: each is offered to the sink,
which takes it, and is counted. -/
inductive Feeds (s : Stage) (name : String) (ctx : RunContext) :
    List Event → List Batch → Prop where
  | nil : Feeds s name ctx [] []
  | cons {t t' earlier batch own answer es batches}
      (hown : (s.datajet.transmit earlier batch ctx).Passes t (some (.ok ())) own t')
      (h : Feeds s name ctx es batches) :
      Feeds s name ctx (⟨t, .offer s.path.text batch, earlier⟩ ::
        (own ++ ⟨t', .count s.path.text name (.batch batch.length), answer⟩ :: es))
          (batch :: batches)

/-- What is done while the sink is at the first of some batches, if it is. -/
inductive Pends (s : Stage) (ctx : RunContext) : List Event → List Batch → Prop where
  | idle {rest} : Pends s ctx [] rest
  | busy {t earlier batch own rest}
      (hown : (s.datajet.transmit earlier batch ctx).Begins t own) :
      Pends s ctx (⟨t, .offer s.path.text batch, earlier⟩ :: own) (batch :: rest)

variable {s : Stage} {name : String} {ctx : RunContext} {granted : Event → Prop}
  {t t' n i : Nat} {es es' : List Event} {batch : Batch}
  {batches batches' taken rest : List Batch}

theorem Feeds.append (h : s.Feeds name ctx es batches) (h' : s.Feeds name ctx es' batches') :
    s.Feeds name ctx (es ++ es') (batches ++ batches') := by
  induction h with
  | nil => exact h'
  | cons hown h ih =>
    rw [List.cons_append, List.append_assoc, List.cons_append]
    exact .cons hown ih

theorem passes_deliver (hd : s.datajet.NeverFails granted) {number : Nat}
    {r : Option (Option String)} (h : (s.deliver name ctx number (.ok batch)).Passes t r es t')
    (hgranted : ∀ e ∈ es, granted e) :
    r = some none ∧ s.Feeds name ctx es [batch] := by
  cases h with
  | act earlier h =>
    have h : ((s.datajet.transmit earlier batch ctx).bind _).Passes _ _ _ _ := h
    rw [List.forall_mem_cons] at hgranted
    rcases passes_bind h with ⟨result, own, t₁, es₂, hown, hrest, rfl⟩ | ⟨_, hstall⟩
    · have hok := hd.transmit hown fun e he => hgranted.2 e (List.mem_append_left _ he)
      cases hok
      cases hrest with
      | act answer hrest =>
        cases hrest
        exact ⟨rfl, .cons hown .nil⟩
    · cases hd.transmit hstall hgranted.2

theorem begins_deliver (hd : s.datajet.NeverFails granted) {number : Nat}
    (h : (s.deliver name ctx number (.ok batch)).Begins t es) (hgranted : ∀ e ∈ es, granted e) :
    s.Pends ctx es (batch :: rest) := by
  cases h with
  | act earlier h =>
    have h : ((s.datajet.transmit earlier batch ctx).bind _).Begins _ _ := h
    rw [List.forall_mem_cons] at hgranted
    rcases begins_bind h with h | ⟨result, own, t₁, es₂, hown, hrest, rfl⟩
    · exact .busy h
    · have hok := hd.transmit hown fun e he => hgranted.2 e (List.mem_append_left _ he)
      cases hok
      cases hrest with
      | act answer hrest => cases hrest

variable {stream : BatchStream} {ready : Nat → Batch}

theorem feeds_drainFrom (hd : s.datajet.NeverFails granted)
    (hpull : ∀ i, stream.pull i = .done (.ok (ready i))) {r : Option (List String)}
    (h : (s.drainFrom name ctx stream n i).Passes t r es t') (hgranted : ∀ e ∈ es, granted e) :
    r = some [] ∧ s.Feeds name ctx es ((List.range' i n).map ready) := by
  induction n generalizing i t es with
  | zero =>
    cases h
    exact ⟨rfl, .nil⟩
  | succ n ih =>
    rw [drainFrom, hpull] at h
    have h : ((s.deliver name ctx (i + 1) (.ok (ready i))).bind _).Passes t r es t' := h
    rcases passes_bind h with ⟨error?, es₁, t₁, es₂, hfirst, hrest, rfl⟩ | ⟨_, hstall⟩
    · rw [List.forall_mem_append] at hgranted
      obtain ⟨hnone, hfeeds⟩ := passes_deliver hd hfirst hgranted.1
      cases hnone
      obtain ⟨rfl, hmore⟩ := ih hrest hgranted.2
      exact ⟨rfl, hfeeds.append hmore⟩
    · cases (passes_deliver hd hstall hgranted).1

theorem begins_drainFrom (hd : s.datajet.NeverFails granted)
    (hpull : ∀ i, stream.pull i = .done (.ok (ready i)))
    (h : (s.drainFrom name ctx stream n i).Begins t es) (hgranted : ∀ e ∈ es, granted e) :
    ∃ taken rest fed pending, taken ++ rest = (List.range' i n).map ready ∧
      es = fed ++ pending ∧
      s.Feeds name ctx fed taken ∧ s.Pends ctx pending rest := by
  induction n generalizing i t es with
  | zero =>
    cases h
  | succ n ih =>
    rw [drainFrom, hpull] at h
    have h : ((s.deliver name ctx (i + 1) (.ok (ready i))).bind _).Begins t es := h
    rw [List.range'_succ, List.map_cons]
    rcases begins_bind h with hfirst | ⟨error?, es₁, t₁, es₂, hfirst, hrest, rfl⟩
    · exact ⟨[], _, [], es, rfl, rfl, .nil, begins_deliver hd hfirst hgranted⟩
    · rw [List.forall_mem_append] at hgranted
      obtain ⟨hnone, hfeeds⟩ := passes_deliver hd hfirst hgranted.1
      cases hnone
      obtain ⟨taken, rest, fed, pending, hbatches, rfl, hfed, hpends⟩ := ih hrest hgranted.2
      refine ⟨ready i :: taken, rest, es₁ ++ fed, pending, congrArg _ hbatches, ?_,
        hfeeds.append hfed, hpends⟩
      rw [List.append_assoc]

/-- The plugins of a stage may be asked and the batches handed out, and what came of it is
counted. Of the batches the sink has taken the first ones, and it may be at the next. -/
structure Dispenses (s : Stage) (ctx : RunContext) (taken rest : List Batch) (o : Outcome)
    (es : List Event) :
    Prop where
  events : ∃ asked fed pending t answer, es = asked ++ (fed ++ (pending ++
      [⟨t, .count s.path.text (Node.stage s).name o.occurrence, answer⟩])) ∧
    (∀ e ∈ asked, e.op.OfPlugin) ∧ s.Feeds (Node.stage s).name ctx fed taken ∧
    s.Pends ctx pending rest

section Told

variable (hs : s.OfPlugins) {place : String} {o : Outcome}
include hs

theorem Feeds.offered (h : s.Feeds name ctx es batches) : offered s.path.text es = batches := by
  induction h with
  | nil => rfl
  | @cons t t' earlier batch own answer es batches hown h ih =>
    have hplugins := (hs.transmit earlier batch ctx).only.passes hown
    rw [offered_offer, offered_append, offered_plugins hplugins, List.nil_append]
    exact congrArg _ ih

theorem Feeds.counted (h : s.Feeds name ctx es batches) : counted place es =
    if s.path.text = place then
      batches.map fun batch => (name, .batch batch.length) else [] := by
  induction h with
  | nil => exact (ite_self []).symm
  | @cons t t' earlier batch own answer es batches hown h ih =>
    have hplugins := (hs.transmit earlier batch ctx).only.passes hown
    rw [counted_offer, counted_append, counted_plugins hplugins, List.nil_append,
      counted_count, ih]
    split <;> rfl

theorem Pends.offered (h : s.Pends ctx es rest) : offered s.path.text es <+: rest := by
  cases h with
  | idle => exact List.nil_prefix
  | @busy t earlier batch own rest hown =>
    have hplugins := hown.only (hs.transmit earlier batch ctx).only
    rw [offered_offer, offered_plugins hplugins, List.prefix_cons_inj]
    exact List.nil_prefix

theorem Pends.counted (h : s.Pends ctx es rest) : counted place es = [] := by
  cases h with
  | idle => rfl
  | @busy t earlier batch own rest hown =>
    rw [counted_offer]
    exact counted_plugins (hown.only (hs.transmit earlier batch ctx).only)

theorem Dispenses.offered (h : s.Dispenses ctx taken rest o es) :
    ∃ more, more <+: rest ∧ offered s.path.text es = taken ++ more := by
  obtain ⟨asked, fed, pending, t, answer, rfl, hasked, hfed, hpends⟩ := h.events
  refine ⟨_, hpends.offered hs, ?_⟩
  rw [offered_append, offered_append, offered_append, offered_plugins hasked, hfed.offered hs,
    List.nil_append]
  exact congrArg _ (List.append_nil _)

theorem Dispenses.counted (h : s.Dispenses ctx taken rest o es) : counted place es =
    if s.path.text = place then
      (taken.map fun batch => ((Node.stage s).name, .batch batch.length)) ++
        [((Node.stage s).name, o.occurrence)]
    else [] := by
  obtain ⟨asked, fed, pending, t, answer, rfl, hasked, hfed, hpends⟩ := h.events
  rw [counted_append, counted_append, counted_append, counted_plugins hasked, hfed.counted hs,
    hpends.counted hs, counted_count]
  split <;> rfl

end Told

theorem Feeds.dispenses {pending : List Event} {o : Outcome} {occurrence : Occurrence}
    {answer : (Op.count s.path.text (Node.stage s).name occurrence).Answer}
    (h : s.Feeds (Node.stage s).name ctx es taken) (hpends : s.Pends ctx pending rest)
    (hoccurrence : o.occurrence = occurrence) : s.Dispenses ctx taken rest o (es ++ (pending ++
      [⟨t, .count s.path.text (Node.stage s).name occurrence, answer⟩])) := by
  subst hoccurrence
  exact ⟨[], es, pending, t, answer, rfl, nofun, h, hpends⟩

theorem Dispenses.after {asked : List Event} {o : Outcome} (hasked : ∀ e ∈ asked, e.op.OfPlugin)
    (h : s.Dispenses ctx taken rest o es) : s.Dispenses ctx taken rest o (asked ++ es) := by
  obtain ⟨asked', fed, pending, t, answer, rfl, hasked', hfed, hpends⟩ := h.events
  refine ⟨asked ++ asked', fed, pending, t, answer, (List.append_assoc ..).symm,
    ?_, hfed, hpends⟩
  exact List.forall_mem_append.2 ⟨hasked, hasked'⟩

/-- An execution was cut off by its time limit while its sink was asked or at work, and nothing
else went wrong. -/
structure TimedOut (s : Stage) (settings : RunSettings) (o : Outcome) : Prop where
  limited : settings.stageTimeoutMs ≠ none
  failed : o.isSuccess = false
  errors : o.errors = [cutMessage settings] ∨
    o.errors = [s.datajet.name ++ " validation failed: " ++
    ("timed out after " ++ toString (settings.stageTimeoutMs.getD 0) ++ " ms")]

section Executed

variable {length : Nat} {settings : RunSettings} {o : Outcome}

theorem feeds_within (hd : s.datajet.NeverFails granted)
    (hbatches : ∀ ctx, s.generator.batches ctx = .ofFunction length ready)
    {r : Option (Option (List String))}
    (h : ((s.drain name ctx).within settings.stageTimeoutMs).Passes t r es t')
    (hgranted : ∀ e ∈ es, granted e) :
    r = some (some []) ∧
      s.Feeds name ctx es ((List.range (s.quota (.ofFunction length ready))).map ready) ∨
      settings.stageTimeoutMs ≠ none ∧ r = some none ∧ ∃ taken rest fed pending,
        taken ++ rest = (List.range (s.quota (.ofFunction length ready))).map ready ∧
        es = fed ++ pending ∧
        s.Feeds name ctx fed taken ∧ s.Pends ctx pending rest := by
  have hpull (i : Nat) :
      (BatchStream.ofFunction length ready).pull i = .done (.ok (ready i)) := rfl
  rw [drain, hbatches] at h
  rw [List.range_eq_range']
  have hends (k : Nat) :
      ¬(s.drainFrom name ctx (.ofFunction length ready) k 0).Passes t none es t' := by
    intro hstall
    cases (feeds_drainFrom hd hpull hstall hgranted).1
  rcases passes_within_of_ends (hends _) h with ⟨errors, rfl, hended⟩ | ⟨hlimit, rfl, hcut⟩
  · obtain ⟨hnone, hfeeds⟩ := feeds_drainFrom hd hpull hended hgranted
    cases hnone
    exact .inl ⟨rfl, hfeeds⟩
  · exact .inr ⟨hlimit, rfl, begins_drainFrom hd hpull hcut hgranted⟩

/-- What is handed out after nothing went wrong with the validators. -/
theorem dispenses_proceed (hd : s.datajet.NeverFails granted)
    (hbatches : ∀ ctx, s.generator.batches ctx = .ofFunction length ready)
    (hvalid : o.isValidationSuccess = true) (hexecution : o.isExecutionSuccess = true)
    (herrors : o.errors = []) {r : Option Outcome}
    (h : (s.proceed (fun _ p => p.within settings.stageTimeoutMs) settings ctx o).Passes
      t r es t')
    (hgranted : ∀ e ∈ es, granted e) : ∃ o' taken rest, r = some o' ∧
      taken ++ rest = (List.range (s.quota (.ofFunction length ready))).map ready ∧
      s.Dispenses ctx taken rest o' es ∧
      (o'.isSuccess = true ∧ rest = [] ∨ s.TimedOut settings o') := by
  rw [proceed] at h
  dsimp only at h
  rw [if_neg (by simp [hvalid])] at h
  have h : (((s.drain (Node.stage s).name ctx).within settings.stageTimeoutMs).bind _).Passes
    t r es t' := h
  rcases passes_bind h with ⟨errors?, es₁, t₁, es₂, hphase, hrest, rfl⟩ | ⟨rfl, hstall⟩
  · rw [List.forall_mem_append] at hgranted
    cases hrest with
    | act answer hrest =>
      rcases feeds_within hd hbatches hphase hgranted.1 with ⟨heq, hfeeds⟩ |
        ⟨hlimit, heq, taken, rest, fed, pending, htaken, rfl, hfed, hpends⟩
      · cases heq
        cases hrest
        have hcall : o.occurrence = .call false := by
          rw [Outcome.occurrence, if_pos hvalid, hexecution]
          rfl
        have hsuccess : o.isSuccess = true := by
          rw [Outcome.isSuccess, hvalid, hexecution]
          rfl
        exact ⟨o, _, [], rfl, List.append_nil _, hfeeds.dispenses .idle hcall,
          .inl ⟨hsuccess, rfl⟩⟩
      · cases heq
        cases hrest
        have hcall : (o.fail (cutMessage settings)).occurrence = .call true := if_pos hvalid
        have hmessage : (o.fail (cutMessage settings)).errors = [cutMessage settings] :=
          congrArg (· ++ [cutMessage settings]) herrors
        refine ⟨_, taken, rest, rfl, htaken, ?_, .inr ⟨hlimit, Bool.and_false _, .inl hmessage⟩⟩
        rw [List.append_assoc]
        exact hfed.dispenses hpends hcall
  · rcases feeds_within hd hbatches hstall hgranted with ⟨heq, _⟩ | ⟨_, heq, _⟩
    · cases heq
    · cases heq

/-- An execution of a stage whose batches are ready and whose sink never fails comes to its end.
It has handed out all batches and is a success, or its time limit has cut it off. -/
theorem dispenses_execute (hs : s.OfPlugins) (hd : s.datajet.NeverFails granted)
    (hvalidate : ∀ ctx, s.generator.validate ctx = .done .passed)
    (hbatches : ∀ ctx, s.generator.batches ctx = .ofFunction length ready) {r : Option Outcome}
    (h : (s.execute settings ctx).Passes t r es t') (hgranted : ∀ e ∈ es, granted e) :
    ∃ o taken rest, r = some o ∧
      taken ++ rest = (List.range (s.quota (.ofFunction length ready))).map ready ∧
      s.Dispenses ctx taken rest o es ∧
      (o.isSuccess = true ∧ rest = [] ∨ s.TimedOut settings o) := by
  have hfirst :
      (s.generator.validate ctx).within settings.stageTimeoutMs = .done (some .passed) := by
    rw [hvalidate]
    cases settings.stageTimeoutMs <;> rfl
  have hends {t' : Nat} {es : List Event} (hgranted : ∀ e ∈ es, granted e) :
      ¬(s.datajet.validate ctx).Passes t none es t' := by
    intro hstall
    obtain ⟨_, hnone, _⟩ := hd.validate hstall hgranted
    cases hnone
  rw [execute_eq_executeIn, executeIn, hfirst] at h
  have h :
      (((s.datajet.validate ctx).within settings.stageTimeoutMs).bind _).Passes t r es t' := h
  rcases passes_bind h with ⟨second, asked, t₁, es₂, hsecond, hrest, rfl⟩ | ⟨rfl, hstall⟩
  · rw [List.forall_mem_append] at hgranted
    have hasked := ((hs.datajet ctx).only.within settings.stageTimeoutMs).passes hsecond
    rcases passes_within_of_ends (hends hgranted.1) hsecond with ⟨v, heq, hv⟩ | ⟨hlimit, heq, _⟩
    · cases heq
      obtain ⟨v', heq, hpassed⟩ := hd.validate hv hgranted.1
      cases heq
      have hverdict : (s.verdict settings (some .passed) (some v)).isValidationSuccess = true ∧
          (s.verdict settings (some .passed) (some v)).isExecutionSuccess = true ∧
          (s.verdict settings (some .passed) (some v)).errors = [] := by
        cases v with
        | failed reason => exact absurd rfl (hpassed reason)
        | passed | pending => exact ⟨rfl, rfl, rfl⟩
      obtain ⟨o, taken, rest, hr, htaken, hdispenses, hended⟩ :=
        dispenses_proceed hd hbatches hverdict.1 hverdict.2.1 hverdict.2.2 hrest hgranted.2
      exact ⟨o, taken, rest, hr, htaken, hdispenses.after hasked, hended⟩
    · cases heq
      cases hrest with
      | act answer hrest =>
        cases hrest
        refine ⟨_, [], _, rfl, rfl, (Feeds.nil.dispenses .idle rfl).after hasked,
          .inr ⟨hlimit, ?_, .inr rfl⟩⟩
        exact Bool.and_false _
  · rcases passes_within_of_ends (hends hgranted) hstall with ⟨_, heq, _⟩ | ⟨_, heq, _⟩
    · cases heq
    · cases heq

end Executed

end Stage

end DataPipeline

import DataPipeline.Proofs.Node.Place
import DataPipeline.Proofs.Node.Stagewise
import DataPipeline.Proofs.Run.World

namespace DataPipeline

open Activity

/-- An activity that leaves it to the engine to offer and to count. -/
def Activity.OfPlugin {α : Type} : Activity α → Prop
  | .done _ | .stall => True
  | .act op next => op.OfPlugin ∧ ∀ answer, (next answer).OfPlugin
  | .sleep _ next => next.OfPlugin

/-- It is assumed of the plugins of a stage that to offer and to count is for the engine: they
do not write to the counters, which their context would let them reach. -/
structure Stage.OfPlugins (s : Stage) : Prop where
  generator : ∀ ctx, (s.generator.validate ctx).OfPlugin
  pull : ∀ ctx i, ((s.generator.batches ctx).pull i).OfPlugin
  datajet : ∀ ctx, (s.datajet.validate ctx).OfPlugin
  transmit : ∀ earlier batch ctx, (s.datajet.transmit earlier batch ctx).OfPlugin

/-- Where it is written down which batches the sink of the stage at a place took. -/
def ledger (place : String) : String := "taken at " ++ place

theorem ledger_injective {place place' : String} (h : ledger place = ledger place') :
    place = place' := by
  have h := congrArg String.toList h
  rw [ledger, ledger, String.toList_append, String.toList_append] at h
  exact String.ext (List.append_cancel_left h)

theorem text_ne_ledger (p : NodePath) (place : String) : p.text ≠ ledger place := by
  intro h
  have hhead := congrArg List.head? (congrArg String.toList h)
  rw [ledger, String.toList_append, NodePath.head?_toList_text] at hhead
  cases hhead

/-- An action that writes into a ledger. -/
def Op.IsTake : Op → Prop
  | .offer path _ => ∃ place, path = ledger place
  | .count .. | .print _ | .makeDirectories _ | .openFile _ | .append .. | .note _ => False

/-- A sink that writes each batch into a ledger when it has taken it. -/
def Datajet.watched (d : Datajet) (place : String) : Datajet :=
  { d with
    transmit := fun earlier batch ctx => do
      match ← d.transmit earlier batch ctx with
      | .ok () =>
        let _ ← Activity.perform (.offer (ledger place) batch)
        .done (.ok ())
      | .error c => .done (.error c) }

def Stage.watched (s : Stage) : Stage := { s with datajet := s.datajet.watched s.path.text }

section

variable {α β γ : Type} {p : Activity α} {r : Option α} {ops : Multiset Op} {marks : Op → Prop}
  {lost : Activity α → Prop}

theorem Op.OfPlugin.not_isTake {op : Op} (h : op.OfPlugin) : ¬op.IsTake := by
  cases op with
  | offer | count => cases h
  | print | makeDirectories | openFile | append | note => exact id

theorem Activity.OfPlugin.follows (h : p.OfPlugin) : Follows Op.IsTake lost p p := by
  induction p with
  | done a => exact .done a
  | act op next ih => exact .act h.1.not_isTake fun answer => ih answer (h.2 answer)
  | sleep ms next ih => exact .sleep ms (ih h)
  | stall => exact .stall

theorem Activity.OfPlugin.does (h : p.OfPlugin) (hd : p.Does r ops) :
    ∀ op ∈ ops, op.OfPlugin := by
  induction hd with
  | done | left | stalled => nofun
  | act answer hd ih =>
    intro op hop
    rcases Multiset.mem_cons.1 hop with rfl | hop
    · exact h.1
    · exact ih (h.2 answer) op hop
  | sleep hd ih => exact ih h

theorem bind_bind {f : α → Activity β} {g : β → Activity γ} :
    (p.bind f).bind g = p.bind fun a => (f a).bind g := by
  induction p with
  | done a => rfl
  | act op next ih => exact congrArg _ (funext ih)
  | sleep ms next ih => exact congrArg _ ih
  | stall => rfl

end

namespace Stage

variable {s : Stage} {ctx : RunContext} {name : String}

theorem follows_deliver_watched (hs : s.OfPlugins) (number : Nat) (item : Except Chain Batch) :
    Follows Op.IsTake (fun _ => False) (s.deliver name ctx number item)
      (s.watched.deliver name ctx number item) := by
  cases item with
  | error c => exact .done _
  | ok batch =>
    have hoffer : ¬(Op.offer s.path.text batch).IsTake := by
      rintro ⟨place, h⟩
      exact text_ne_ledger s.path place h
    apply Follows.act hoffer
    intro earlier
    change Follows _ _ ((s.datajet.transmit earlier batch ctx).bind _)
      (((s.datajet.transmit earlier batch ctx).bind _).bind _)
    rw [bind_bind]
    apply (hs.transmit earlier batch ctx).follows.bind fun _ h => h
    intro result _
    cases result with
    | error c => exact .done _
    | ok _ => exact .mark ⟨s.path.text, rfl⟩ fun _ => .act id fun _ => .done _

theorem follows_drainFrom_watched (hs : s.OfPlugins) (n i : Nat) :
    Follows Op.IsTake (fun _ => False)
      (s.drainFrom name ctx (s.generator.batches ctx) n i)
      (s.watched.drainFrom name ctx (s.generator.batches ctx) n i) := by
  induction n generalizing i with
  | zero => exact .done []
  | succ n ih =>
    apply (hs.pull ctx i).follows.bind fun _ h => h
    intro item _
    apply (follows_deliver_watched hs (i + 1) item).bind fun _ h => h
    intro error _
    cases error with
    | none => exact ih (i + 1)
    | some error =>
      change Follows _ _ (if s.settings.continueOnError then _ else _)
        (if s.settings.continueOnError then _ else _)
      split
      · exact (ih (i + 1)).bind (fun _ h => h) fun errors _ => .done _
      · exact .done _

theorem follows_watched (hs : s.OfPlugins) (settings : RunSettings) :
    Follows Op.IsTake (fun _ => False) (s.execute settings ctx)
      (s.watched.execute settings ctx) := by
  rw [execute_eq_executeIn, execute_eq_executeIn]
  apply ((hs.generator ctx).follows.within _).bind fun _ h => h
  intro first _
  apply ((hs.datajet ctx).follows.within _).bind fun _ h => h
  intro second _
  change Follows _ _ (s.proceed _ settings ctx (s.verdict settings first second))
    (s.watched.proceed _ settings ctx (s.verdict settings first second))
  rw [proceed, proceed]
  dsimp only
  split
  · exact .act id fun _ => .done _
  · apply ((follows_drainFrom_watched hs _ 0).within _).bind fun _ h => h
    intro errors _
    exact .act id fun _ => .done _

end Stage

/-- Two worlds that differ in their ledgers only. -/
structure World.Alike (w v : World) : Prop where
  now : w.now = v.now
  disk : w.disk = v.disk
  metrics : w.metrics = v.metrics
  journal : w.journal = v.journal
  printed : w.printed = v.printed
  offered : ∀ path, (∀ place, path ≠ ledger place) → w.offeredAt path = v.offeredAt path

namespace World

variable {w v : World} {op : Op}

theorem Alike.refl (w : World) : w.Alike w := ⟨rfl, rfl, rfl, rfl, rfl, fun _ _ => rfl⟩

theorem Alike.offer (h : w.Alike v) {path : String} {batch : Batch} :
    (w.perform (.offer path batch)).2.Alike (v.perform (.offer path batch)).2 := by
  refine ⟨h.now, h.disk, h.metrics, h.journal, h.printed, fun place hplace => ?_⟩
  by_cases heq : place = path
  · subst heq
    rw [offeredAt_perform_self, offeredAt_perform_self, h.offered place hplace]
  · rw [offeredAt_perform_of_ne heq, offeredAt_perform_of_ne heq, h.offered place hplace]

theorem Alike.perform (h : w.Alike v) (hop : ¬op.IsTake) :
    (w.perform op).1 = (v.perform op).1 ∧ (w.perform op).2.Alike (v.perform op).2 := by
  cases op with
  | offer path batch => exact ⟨h.offered path fun place heq => hop ⟨place, heq⟩, h.offer⟩
  | print text => exact ⟨rfl, h.now, h.disk, h.metrics, h.journal,
      congrArg (· ++ text) h.printed, h.offered⟩
  | makeDirectories path =>
    rw [World.perform, World.perform, h.disk]
    exact ⟨rfl, h.now, rfl, h.metrics, h.journal, h.printed, h.offered⟩
  | openFile | append =>
    rw [World.perform, World.perform, World.append, World.append, h.disk]
    split
    · exact ⟨rfl, h.now, rfl, h.metrics, h.journal, h.printed, h.offered⟩
    · exact ⟨rfl, h⟩
  | note entry =>
    rw [World.perform, World.perform, h.now, h.journal]
    exact ⟨rfl, rfl, h.disk, h.metrics, rfl, h.printed, h.offered⟩
  | count path stage o =>
    rw [World.perform, World.perform, h.metrics]
    exact ⟨rfl, h.now, h.disk, rfl, h.journal, h.printed, h.offered⟩

theorem Alike.later (h : w.Alike v) (ms : Nat) :
    World.Alike { w with now := w.now + ms } { v with now := v.now + ms } :=
  ⟨congrArg (· + ms) h.now, h.disk, h.metrics, h.journal, h.printed, h.offered⟩

theorem Alike.take (h : w.Alike v) (hop : op.IsTake) : w.Alike (v.perform op).2 := by
  cases op with
  | offer path batch =>
    obtain ⟨place, rfl⟩ := hop
    refine ⟨h.now, h.disk, h.metrics, h.journal, h.printed, fun path hpath => ?_⟩
    rw [offeredAt_perform_of_ne (hpath place), h.offered path hpath]
  | print | makeDirectories | openFile | append | note | count => exact hop.elim

end World

theorem Activity.Follows.run_watched {α : Type} {lost : Activity α → Prop}
    {p q : Activity α} {a : α} {w w' v : World} (h : Follows Op.IsTake lost p q)
    (hv : w.Alike v) (hrun : p.run w = some (a, w')) (hlost : ∀ p, lost p → ¬p.Ends a) :
    ∃ v', q.run v = some (a, v') ∧ w'.Alike v' := by
  induction h generalizing w v with
  | lost h => exact absurd (ends_of_run hrun) (hlost _ h)
  | done a =>
    cases hrun
    exact ⟨v, rfl, hv⟩
  | act hop h ih =>
    obtain ⟨hanswer, hv⟩ := hv.perform hop
    rw [Activity.run] at hrun
    obtain ⟨v', hrun', hv'⟩ := ih _ hv hrun
    rw [hanswer] at hrun'
    exact ⟨v', hrun', hv'⟩
  -- the answer to a mark is thrown away, so only the ledgers tell that it was made
  | mark hm h ih => exact ih _ (hv.take hm) hrun
  | sleep ms h ih => exact ih (hv.later ms) hrun
  | stall => cases hrun

theorem Node.run_watched {n : Node} {settings : RunSettings} {ctx : RunContext} {o : Outcome}
    {w w' : World} (hn : n.Shaped) (hs : ∀ s ∈ n.stages, s.OfPlugins)
    (hrun : (n.execute settings ctx).run w = some (o, w')) :
    ∃ v, (n.executeBy (fun s => s.watched.execute) settings ctx).run w = some (o, v) ∧
      w'.Alike v := by
  have hfollows : Follows Op.IsTake (Astray fun _ => True) (n.execute settings ctx)
      (n.executeBy (fun s => s.watched.execute) settings ctx) := by
    rw [← executeBy_execute]
    apply follows_executeBy hn (fun _ _ _ _ _ _ => trivial)
    intro s hmem ctx
    exact (Stage.follows_watched (hs s hmem) settings).mono fun _ h => h.elim
  exact hfollows.run_watched (World.Alike.refl w) hrun fun p hp h => hp o h trivial

end DataPipeline

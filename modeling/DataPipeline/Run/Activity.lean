import DataPipeline.Disk.Basic
import DataPipeline.Metrics.Basic

namespace DataPipeline

/-- Records handed over together. -/
abbrev Batch := List Json

/-- What an activity can do to the world around it. -/
inductive Op where
  /-- Hands a batch to the sink of the stage at a path. -/
  | offer (path : String) (batch : Batch)
  | print (text : String)
  | makeDirectories (path : String)
  /-- Opens a file to write at its end; it is made if it is not there. -/
  | openFile (path : String)
  | append (path text : String)
  /-- Writes an entry into the journal of the run. -/
  | note (entry : Json)
  | count (path stage : String) (o : Occurrence)

/-- What the world answers: to an offer, the batches offered there before. -/
def Op.Answer : Op → Type
  | offer .. => List Batch
  | makeDirectories _ | openFile _ | append .. => Except FileError Unit
  | print _ | note _ | count .. => Unit

inductive Activity (α : Type) where
  | done (a : α)
  | act (op : Op) (next : op.Answer → Activity α)
  | sleep (ms : Nat) (next : Activity α)
  | stall

namespace Activity

variable {α β : Type}

instance [Inhabited α] : Inhabited (Activity α) := ⟨done default⟩

def bind : Activity α → (α → Activity β) → Activity β
  | done a, f => f a
  | act op next, f => act op fun answer => (next answer).bind f
  | sleep ms next, f => sleep ms (next.bind f)
  | stall, _ => stall

instance : Monad Activity where
  pure := done
  bind := bind

/-- A single action. -/
def perform (op : Op) : Activity op.Answer := act op done

/-- A pause; none at all if it is empty. -/
def pause (ms : Nat) (next : Activity α) : Activity α := if ms = 0 then next else sleep ms next

/-- Waits for something that takes no time by itself. -/
def wait : Activity Unit := sleep 0 (done ())

/-- The activity up to a time from now. At that very time it may still go on and end, but not
wait once more. -/
def cutAfter : Nat → Activity α → Activity (Option α)
  | _, done a => done (some a)
  | limit, act op next => act op fun answer => (next answer).cutAfter limit
  | limit, sleep ms next =>
    if 0 < limit ∧ ms ≤ limit then sleep ms (next.cutAfter (limit - ms))
    else sleep limit (done none)
  | limit, stall => sleep limit (done none)

/-- The activity under a limit if there is one; none where it was cut off. -/
def within (limit : Option Nat) (p : Activity α) : Activity (Option α) :=
  match limit with
  | some ms => p.cutAfter ms
  | none => p.bind fun a => done (some a)

/-- What an activity may become by one action or sleep. -/
inductive Step : Activity α → Activity α → Prop where
  | act (op : Op) (next : op.Answer → Activity α) (answer : op.Answer) :
    Step (next answer) (act op next)
  | sleep (ms : Nat) (next : Activity α) : Step next (sleep ms next)

theorem Step.acc (p : Activity α) : Acc Step p := by
  induction p with
  | done => exact ⟨_, fun _ h => by cases h⟩
  | act op next ih => exact ⟨_, fun _ h => by cases h; exact ih _⟩
  | sleep ms next ih => exact ⟨_, fun _ h => by cases h; exact ih⟩
  | stall => exact ⟨_, fun _ h => by cases h⟩

/-- What a list of activities may become: one takes a step, or the first is left out. -/
inductive Shrinks : List (Activity α) → List (Activity α) → Prop where
  | drop (p : Activity α) (ps : List (Activity α)) : Shrinks ps (p :: ps)
  | step {p q : Activity α} (before after : List (Activity α)) (h : Step q p) :
    Shrinks (before ++ q :: after) (before ++ p :: after)

theorem Shrinks.acc_cons {p : Activity α} (hp : Acc Step p) :
    ∀ {ps : List (Activity α)}, Acc Shrinks ps → Acc Shrinks (p :: ps) := by
  induction hp with
  | intro p _ ihp =>
    intro ps hps
    induction hps with
    | intro ps hps ihps =>
      refine ⟨_, fun qs h => ?_⟩
      generalize hl : p :: ps = l at h
      cases h with
      | drop => cases hl; exact ⟨_, hps⟩
      | step before after h =>
        cases before with
        | nil => cases hl; exact ihp _ h ⟨_, hps⟩
        | cons r before => cases hl; exact ihps _ (.step before after h)

theorem Shrinks.acc (ps : List (Activity α)) : Acc Shrinks ps := by
  induction ps with
  | nil =>
    refine ⟨_, fun qs h => ?_⟩
    generalize hl : ([] : List (Activity α)) = l at h
    cases h with
    | drop => cases hl
    | step before after h => cases before <;> cases hl
  | cons p ps ih => exact Shrinks.acc_cons (Step.acc p) ih

instance : WellFoundedRelation (List (Activity α)) := ⟨Shrinks, ⟨Shrinks.acc⟩⟩

end Activity

end DataPipeline

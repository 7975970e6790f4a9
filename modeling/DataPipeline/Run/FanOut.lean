import DataPipeline.Run.Activity

namespace DataPipeline.Activity

variable {α : Type}

/-- A started activity, the time it has come to, and where lanes queue, its place in the order
in which they went to sleep; none before its first sleep. -/
structure Lane (α : Type) where
  clock : Nat
  place? : Option Nat := none
  activity : Activity α

/-- Whether the activity can go on. -/
def Lane.runs (l : Lane α) : Bool :=
  match l.activity with
  | act .. | sleep .. => true
  | done _ | stall => false

/-- Whether a lane goes before another that stands behind it in the list. -/
def Lane.precedes (l other : Lane α) : Bool :=
  l.clock < other.clock || l.clock = other.clock &&
    match l.place?, other.place? with
    | some i, some j => i ≤ j
    | none, some _ => false
    | _, none => true

/-- A lane among others. -/
structure Turn (lanes : List (Lane α)) where
  before : List (Lane α)
  lane : Lane α
  after : List (Lane α)
  lanes_eq : lanes = before ++ lane :: after

/-- The lane whose turn it is. -/
def Turn.next? : (lanes : List (Lane α)) → Option (Turn lanes)
  | [] => none
  | l :: rest =>
    match Turn.next? rest with
    | none => if l.runs then some ⟨[], l, rest, rfl⟩ else none
    | some t =>
      if l.runs && l.precedes t.lane then some ⟨[], l, rest, rfl⟩
      else some ⟨l :: t.before, t.lane, t.after, by simp [t.lanes_eq]⟩

def Lane.activities (lanes : List (Lane α)) (waiting : List (Activity α)) : List (Activity α) :=
  lanes.map (·.activity) ++ waiting

/-- Goes on with the lanes at a time; `queued?` is the place of the next lane to go to sleep
where lanes queue, `free` is when the last of the ended lanes had ended, `results` are theirs,
the last one first. -/
def advance (queued? : Option Nat) (now free : Nat) (results : List α) (lanes : List (Lane α))
    (waiting : List (Activity α)) : Activity (List α) :=
  match lanes with
  | [] => if waiting.isEmpty then pause (free - now) (done results.reverse) else stall
  | ⟨clock, _, done a⟩ :: rest =>
    match waiting with
    | [] => advance queued? now (max free clock) (a :: results) rest []
    | p :: ps =>
      let free := max free clock
      advance queued? now free (a :: results) (rest ++ [⟨free, none, p⟩]) ps
  | l :: rest =>
    match Turn.next? (l :: rest) with
    | some ⟨before, ⟨clock, place?, sleep ms next⟩, after, _split⟩ =>
      let (place?, queued?) :=
        if ms = 0 then (place?, queued?) else (queued?, queued?.map (· + 1))
      advance queued? now free results (before ++ ⟨clock + ms, place?, next⟩ :: after) waiting
    | some ⟨before, ⟨clock, place?, act op next⟩, after, _split⟩ =>
      pause (clock - now) (act op fun answer =>
        let lanes := before ++ ⟨clock, place?, next answer⟩ :: after
        advance queued? clock free results lanes waiting)
    | _ => stall
termination_by Lane.activities lanes waiting
decreasing_by
  · exact Shrinks.drop _ _
  · simpa [Lane.activities] using Shrinks.drop (done a) _
  · simpa [Lane.activities, _split] using
      Shrinks.step (before.map (·.activity)) (after.map (·.activity) ++ waiting)
        (Step.sleep ms next)
  · simpa [Lane.activities, _split] using
      Shrinks.step (before.map (·.activity)) (after.map (·.activity) ++ waiting)
        (Step.act op next answer)

/-- How many activities without a limit take turns in their order. -/
def fewest : Nat := 30

/-- Runs activities side by side, at most `limit` of them at once; the results are in their
order. -/
def fanOut (limit : Option Nat) (ps : List (Activity α)) : Activity (List α) :=
  let started := limit.getD ps.length
  let queued? := if limit.isNone ∧ ps.length ≤ fewest then none else some 0
  advance queued? 0 0 [] ((ps.take started).map (⟨0, none, ·⟩)) (ps.drop started)

end DataPipeline.Activity

import DataPipeline.Metrics.Basic

namespace DataPipeline.Metrics

/-- A call that is still going on. -/
structure Timer where
  collector : Nat
  path : String
  stage : String
  failed : Bool := false
  deriving DecidableEq, Inhabited, Repr

/-- The counters of every collector, the last one present, and the running timers by name. -/
structure Session where
  collectors : List Metrics := [{}]
  timers : List (String × Timer) := []
  deriving Inhabited, Repr

inductive Step where
  | batch (path stage : String) (records : Nat)
  | invalid (path stage : String)
  | start (id path stage : String)
  | fail (id : String)
  | stop (id : String)
  | total (micros : Nat)
  | clone
  | fresh
  deriving DecidableEq, Inhabited, Repr

namespace Session

def present (s : Session) : Nat := s.collectors.length - 1

/-- The counters that can be seen now. -/
def snapshot (s : Session) : Metrics := (s.collectors[s.present]?).getD {}

def change (s : Session) (collector : Nat) (f : Metrics → Metrics) : Session :=
  { s with collectors := s.collectors.modify collector f }

def timer? (s : Session) (id : String) : Option Timer := (s.timers.find? (·.1 = id)).map (·.2)

/-- Stops a timer: the call it stands for is counted where it was started. -/
def stop (s : Session) (id : String) : Session :=
  match s.timer? id with
  | none => s
  | some t =>
    { s.change t.collector (·.count t.path t.stage (.call t.failed)) with
      timers := s.timers.filter (·.1 ≠ id) }

def step (s : Session) : Step → Session
  | .batch path stage records => s.change s.present (·.count path stage (.batch records))
  | .invalid path stage => s.change s.present (·.count path stage .invalid)
  | .start id path stage =>
    let stopped := s.stop id
    { stopped with timers := (id, ⟨s.present, path, stage, false⟩) :: stopped.timers }
  | .fail id =>
    { s with
      timers := s.timers.map fun t =>
        if t.1 = id then (t.1, { t.2 with failed := true }) else t }
  | .stop id => s.stop id
  | .total micros => s.change s.present (·.withTotal micros)
  | .clone => s
  | .fresh => { s with collectors := s.collectors ++ [{}] }

end Session

end DataPipeline.Metrics

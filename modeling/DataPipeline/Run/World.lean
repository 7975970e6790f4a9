import DataPipeline.Run.Activity

namespace DataPipeline

/-- The time, the files, the batches handed to the sink of each stage, the counters, and what
was noted and printed; of batches and notes the last one comes first. -/
structure World where
  now : Nat := 0
  disk : Disk := {}
  offered : List (String × List Batch) := []
  metrics : Metrics := {}
  journal : List (Nat × Json) := []
  printed : String := ""
  deriving Inhabited

namespace World

/-- The batches handed to the sink of the stage at a path. -/
def offeredAt (w : World) (path : String) : List Batch :=
  ((w.offered.find? (·.1 = path)).map (·.2)).getD []

/-- Writes at the end of a file. -/
def append (w : World) (path text : String) : Except FileError Unit × World :=
  match w.disk.append path text with
  | .ok disk => (.ok (), { w with disk })
  | .error e => (.error e, w)

theorem append_ok {w : World} {path text : String} {d : Disk}
    (h : w.disk.append path text = .ok d) :
    w.append path text = (.ok (), { w with disk := d }) := by
  rw [append, h]

theorem append_error {w : World} {path text : String} {e : FileError}
    (h : w.disk.append path text = .error e) : w.append path text = (.error e, w) := by
  rw [append, h]

/-- Does one thing and answers it. -/
def perform (w : World) : (op : Op) → op.Answer × World
  | .offer path batch =>
    let earlier := w.offeredAt path
    (earlier, { w with
      offered := (path, batch :: earlier) :: w.offered.filter (·.1 ≠ path) })
  | .print text => ((), { w with printed := w.printed ++ text })
  | .makeDirectories path =>
    let (answer, disk) := w.disk.makeAll path
    (answer, { w with disk })
  | .openFile path => w.append path ""
  | .append path text => w.append path text
  | .note entry => ((), { w with journal := (w.now, entry) :: w.journal })
  | .count path stage o => ((), { w with metrics := w.metrics.count path stage o })

end World

/-- Follows an activity to its end; none if it has none. -/
def Activity.run {α : Type} : Activity α → World → Option (α × World)
  | done a, w => some (a, w)
  | act op next, w => (next (w.perform op).1).run (w.perform op).2
  | sleep ms next, w => next.run { w with now := w.now + ms }
  | stall, _ => none

end DataPipeline

import DataPipeline.BuildError
import DataPipeline.Outcome.Basic
import DataPipeline.Run.FanOut
import DataPipeline.Run.Settings

namespace DataPipeline

/-- The batches of one execution: how many there are, and how each is made when it is asked for.
That there are no more is known at once; a stream whose end is waited for, and one that has
none, are left out. -/
structure BatchStream where
  length : Nat
  pull : Nat → Activity (Except Chain Batch)

namespace BatchStream

def empty : BatchStream := ⟨0, fun _ => .done (.ok [])⟩

/-- Batches that are there at once. -/
def ofFunction (length : Nat) (batch : Nat → Batch) : BatchStream :=
  ⟨length, fun i => .done (.ok (batch i))⟩

end BatchStream

structure Generator where
  name : String
  validate : RunContext → Activity Verdict := fun _ => .done .passed
  batches : RunContext → BatchStream

instance : Inhabited Generator := ⟨{ name := "", batches := fun _ => .empty }⟩

/-- A sink. It is told the batches that it was handed before. -/
structure Datajet where
  name : String
  validate : RunContext → Activity Verdict := fun _ => .done .passed
  transmit : List Batch → Batch → RunContext → Activity (Except Chain Unit)

instance : Inhabited Datajet := ⟨{ name := "", transmit := fun _ _ _ => .done (.ok ()) }⟩

/-- How a node is executed. -/
abbrev Execution := RunSettings → RunContext → Activity Outcome

/-- A node as a wrapper sees it: what it is, what it publishes, what is in it, and how it is
executed. -/
structure NodeView where
  descriptor : Descriptor
  generator? : Option Generator
  children : List NodeView
  execute : Execution

/-- Stands between a run and one child: it may change what the child sees, run it more than once
or not at all. -/
structure Wrapper where
  name : String
  execute : NodeView → Execution

instance : Inhabited Wrapper := ⟨{ name := "", execute := NodeView.execute }⟩

end DataPipeline

import DataPipeline.Node.Basic

namespace DataPipeline

namespace Stage

/-- The verdict of a validator that may have been cut off. -/
def settle (limit : Option Nat) : Option Verdict → Verdict
  | some v => v
  | none => .failed ("timed out after " ++ toString (limit.getD 0) ++ " ms")

def failedPull (s : Stage) (number : Nat) (c : Chain) : String :=
  s.generator.name ++ " failed to produce batch " ++ toString number ++ ": " ++ c.text

def failedTransmit (s : Stage) (number : Nat) (c : Chain) : String :=
  s.datajet.name ++ " failed to transmit batch " ++ toString number ++ ": " ++ c.text

/-- Hands one item of the stream on; the error if there is one. -/
def deliver (s : Stage) (name : String) (ctx : RunContext) (number : Nat) :
    Except Chain Batch → Activity (Option String)
  | .error c => .done (some (s.failedPull number c))
  | .ok batch => do
    let earlier ← Activity.perform (.offer s.path.text batch)
    match ← s.datajet.transmit earlier batch ctx with
    | .error c => .done (some (s.failedTransmit number c))
    | .ok () =>
      Activity.perform (.count s.path.text name (.batch batch.length))
      .done none

/-- Pulls and delivers the next `n` items from a position on; the errors of those that failed.
Unless told to go on, it stops at the first. -/
def drainFrom (s : Stage) (name : String) (ctx : RunContext) (stream : BatchStream) :
    Nat → Nat → Activity (List String)
  | 0, _ => .done []
  | n + 1, i => do
    let item ← stream.pull i
    match ← s.deliver name ctx (i + 1) item with
    | none => s.drainFrom name ctx stream n (i + 1)
    | some error =>
      if s.settings.continueOnError then do
        let errors ← s.drainFrom name ctx stream n (i + 1)
        .done (error :: errors)
      else .done [error]

/-- How many items are pulled at most. -/
def quota (s : Stage) (stream : BatchStream) : Nat :=
  match s.settings.maxBatches with
  | some m => min m stream.length
  | none => stream.length

def drain (s : Stage) (name : String) (ctx : RunContext) : Activity (List String) :=
  let stream := s.generator.batches ctx
  s.drainFrom name ctx stream (s.quota stream) 0

/-- Runs a stage; what it logs when it fails is left out. -/
def execute (s : Stage) (settings : RunSettings) (ctx : RunContext) : Activity Outcome := do
  let limit := settings.stageTimeoutMs
  let descriptor := (Node.stage s).descriptor
  let first ← (s.generator.validate ctx).within limit
  let second ← (s.datajet.validate ctx).within limit
  let o : Outcome := { stage := descriptor }
  let o := o.recordVerdict s.generator.name (settle limit first)
  let o := o.recordVerdict s.datajet.name (settle limit second)
  if !o.isValidationSuccess then do
    Activity.perform (.count s.path.text descriptor.name .invalid)
    .done { o with isExecutionSuccess := false }
  else do
    let errors := (← (s.drain descriptor.name ctx).within limit).getD
      ["Stage timed out after " ++ toString (limit.getD 0) ++ " ms"]
    Activity.perform (.count s.path.text descriptor.name (.call (!errors.isEmpty)))
    .done (errors.foldl Outcome.fail o)

end Stage

namespace Node

mutual

/-- A node as it is seen from the outside. -/
def view : Node → NodeView
  | stage s => ⟨(stage s).descriptor, some s.generator, [], s.execute⟩
  | synchronizer children fan =>
    let seen := viewAll children
    ⟨(synchronizer children fan).descriptor, none, seen, fun settings ctx =>
      (Activity.fanOut fan.maxConcurrency (seen.map (·.execute settings ctx))).bind
          fun outcomes =>
        .done (Outcome.aggregate (synchronizer children fan).descriptor outcomes)⟩
  | wrap w child =>
    let seen := child.view
    ⟨(wrap w child).descriptor, none, [seen], w.execute seen⟩
  | generator g =>
    ⟨(generator g).descriptor, some g, [],
      fun _ _ => .done { stage := (generator g).descriptor }⟩

def viewAll : List Node → List NodeView
  | [] => []
  | n :: rest => n.view :: viewAll rest

end

def execute (n : Node) : Execution := n.view.execute

theorem viewAll_eq : ∀ nodes : List Node, viewAll nodes = nodes.map view
  | [] => rfl
  | n :: rest => by rw [viewAll, viewAll_eq rest, List.map_cons]

@[simp] theorem descriptor_view (n : Node) : n.view.descriptor = n.descriptor := by
  cases n <;> rfl

@[simp] theorem generator?_view (n : Node) : n.view.generator? = n.generator? := by
  cases n <;> rfl

@[simp] theorem children_view (n : Node) : n.view.children = n.children.map view := by
  cases n with
  | synchronizer nodes fan => exact viewAll_eq nodes
  | stage | wrap | generator => rfl

theorem execute_synchronizer (nodes : List Node) (fan : FanOutSettings) (settings : RunSettings)
    (ctx : RunContext) : (synchronizer nodes fan).execute settings ctx =
      (Activity.fanOut fan.maxConcurrency (nodes.map (·.execute settings ctx))).bind
        fun outcomes =>
        .done (Outcome.aggregate (synchronizer nodes fan).descriptor outcomes) := by
  rw [execute, view, viewAll_eq]
  simp only [List.map_map]
  rfl

end Node

end DataPipeline

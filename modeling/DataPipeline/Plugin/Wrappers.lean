import DataPipeline.Plugin.Config

namespace DataPipeline

open Document

def passthroughWrapper : Wrapper where
  name := "passthrough"
  execute child := child.execute

def timesShape : Shape Nat where
  name := "struct RepeatConfig"
  fields := ["times"]
  optional _ := false
  start := 0
  put _ _ r d := r.readNat (Word.limit 32) "u32" d

/-- Runs a child `n` times in sequence, each time with the number of the iteration as a
variable. -/
def repeatFrom (child : Execution) (settings : RunSettings) (ctx : RunContext) :
    Nat → Nat → Activity (List Outcome)
  | 0, _ => .done []
  | n + 1, i => do
    let o ← child settings (ctx.withVariable "iteration" (.nat i))
    let os ← repeatFrom child settings ctx n (i + 1)
    .done (o :: os)

def repeatWrapper (times : Nat) : Wrapper where
  name := "repeat"
  execute child settings ctx := do
    .done (Outcome.aggregate ⟨.wrap, "repeat"⟩
      (← repeatFrom child.execute settings ctx times 0))

def repeatFactory : Factory Wrapper := fun config _ => do
  let times ← ofConfig timesShape config
  if times = 0 then refuse "repeat wrapper requires 'times' of at least 1"
  else .ok (repeatWrapper times)

end DataPipeline

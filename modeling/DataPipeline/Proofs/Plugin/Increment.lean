import DataPipeline.Proofs.Plugin.Builtin
import Mathlib.Algebra.Ring.Nat

namespace DataPipeline

/-- A number that is held in a word of 64 bits; none if it does not fit. -/
def Word.held? (n : Nat) : Option Nat := if n < limit 64 then some n else none

theorem Word.eq_of_held? {n m : Nat} (h : held? n = some m) : m = n := by
  rw [held?] at h
  split at h
  · exact (Option.some.inj h).symm
  · cases h

namespace IncrementConfig

variable {c : IncrementConfig} {maxBatches : Option Nat} {i : Nat}

/-- The record with a number. -/
def record (c : IncrementConfig) (n : Nat) : Json := .object [(c.key, .nat n)]

/-- Where the batch with an index begins and ends, computed in words; none if a computation
overflows. -/
def bounds? (c : IncrementConfig) (index : Nat) : Option (Nat × Nat) := do
  let start ← Word.held? (index * c.batchSize)
  let stop ← Word.held? (start + c.batchSize)
  some (start, stop)

/-- How many batches are pulled, under a limit if there is one. -/
def pulled (c : IncrementConfig) : Option Nat → Nat
  | some m => min m c.batchCount
  | none => c.batchCount

/-- The batches that are pulled. -/
def batches (c : IncrementConfig) (maxBatches : Option Nat) : List Batch :=
  (List.range (c.pulled maxBatches)).map fun i => c.records (i * c.batchSize)

theorem records_eq (start : Nat) :
    c.records start = (List.range' start c.batchSize).map c.record := by
  rw [records, List.range'_eq_map_range, List.map_map]
  rfl

theorem length_records (start : Nat) : (c.records start).length = c.batchSize := by
  rw [records_eq, List.length_map, List.length_range']

theorem length_batches : (c.batches maxBatches).length = c.pulled maxBatches := by
  rw [batches, List.length_map, List.length_range]

theorem length_of_mem_batches {batch : Batch} (h : batch ∈ c.batches maxBatches) :
    batch.length = c.batchSize := by
  obtain ⟨i, _, rfl⟩ := List.mem_map.1 h
  exact length_records _

theorem getElem?_batches (hi : i < c.pulled maxBatches) :
    (c.batches maxBatches)[i]? = some (c.records (i * c.batchSize)) := by
  rw [batches, List.getElem?_map, List.getElem?_range hi, Option.map_some]

theorem flatten_batches : (c.batches maxBatches).flatten =
    (List.range (c.pulled maxBatches * c.batchSize)).map c.record := by
  rw [batches]
  induction c.pulled maxBatches with
  | zero => simp
  | succ n ih =>
    rw [List.range_succ, List.map_append, List.flatten_append, ih, Nat.succ_mul, List.range_add,
      List.map_append, List.map_singleton, List.flatten_singleton, records_eq,
      List.range'_eq_map_range]

theorem sum_length_batches :
    ((c.batches maxBatches).map List.length).sum = c.pulled maxBatches * c.batchSize := by
  rw [← List.length_flatten, flatten_batches, List.length_map, List.length_range]

theorem bounds?_of_lt (hi : i < c.pulled maxBatches)
    (hbound : c.pulled maxBatches * c.batchSize < Word.limit 64) :
    c.bounds? i = some (i * c.batchSize, (i + 1) * c.batchSize) := by
  have hstop : (i + 1) * c.batchSize ≤ c.pulled maxBatches * c.batchSize :=
    Nat.mul_le_mul_right _ hi
  have hsum : i * c.batchSize + c.batchSize = (i + 1) * c.batchSize := (Nat.succ_mul _ _).symm
  rw [bounds?, Word.held?, if_pos (by omega)]
  change ((Word.held? (i * c.batchSize + c.batchSize)).bind fun stop =>
    some (i * c.batchSize, stop)) = _
  rw [hsum, Word.held?, if_pos (by omega)]
  rfl

theorem records_of_bounds {start stop : Nat} (h : c.bounds? i = some (start, stop)) :
    c.records (i * c.batchSize) = (List.range' start (stop - start)).map c.record := by
  obtain ⟨start', hstart, h⟩ := Option.bind_eq_some_iff.1 h
  obtain ⟨stop', hstop, h⟩ := Option.bind_eq_some_iff.1 h
  cases h
  obtain rfl := Word.eq_of_held? hstart
  obtain rfl := Word.eq_of_held? hstop
  rw [records_eq, Nat.add_sub_cancel_left]

end IncrementConfig

/-- A generator that hands out the batches of an increment generator: it was made by the factory
of increment generators, or it was made as a reference to a library entry that publishes such a
generator. -/
inductive Generator.Increments (c : IncrementConfig) : Generator → Prop where
  | made {config context g} (hconfig : ofConfig IncrementConfig.shape config = .ok c)
      (hmade : incrementFactory config context = .ok g) : Increments c g
  | referred {config context g id entry g'} (hconfig : ofConfig referenceShape config = .ok id)
      (hmade : libraryFactory config context = .ok g)
      (hentry : context.library.get? id = some entry)
      (hpublished : entry.generator? = some g') (h : Increments c g') : Increments c g

namespace Generator.Increments

variable {c : IncrementConfig} {g : Generator}

theorem eq_of_made {config : Fields} {context : BuildContext}
    (hconfig : ofConfig IncrementConfig.shape config = .ok c)
    (hmade : incrementFactory config context = .ok g) :
    1 ≤ c.batchSize ∧ g = incrementGenerator c := by
  rw [incrementFactory, hconfig] at hmade
  change (if c.batchSize = 0 then refuse _ else .ok (incrementGenerator c)) = _ at hmade
  split at hmade
  · cases hmade
  next hsize =>
    cases hmade
    exact ⟨Nat.one_le_iff_ne_zero.2 hsize, rfl⟩

theorem plugin (h : g.Increments c) : 1 ≤ c.batchSize ∧ ∀ ctx, g.validate ctx = .done .passed ∧
    g.batches ctx = .ofFunction c.batchCount fun i => c.records (i * c.batchSize) := by
  induction h with
  | made hconfig hmade =>
    obtain ⟨hsize, rfl⟩ := eq_of_made hconfig hmade
    exact ⟨hsize, fun ctx => ⟨rfl, rfl⟩⟩
  | referred hconfig hmade hentry hpublished h ih =>
    obtain ⟨id, entry, g'', hid, hget, hg, rfl⟩ := libraryFactory_ok_iff.1 hmade
    cases hconfig.symm.trans hid
    cases hentry.symm.trans hget
    cases hpublished.symm.trans hg
    rw [entryGenerator_eq hg]
    exact ih

end Generator.Increments

end DataPipeline

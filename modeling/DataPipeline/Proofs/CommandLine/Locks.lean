import DataPipeline.Proofs.CommandLine.Reports
import DataPipeline.Proofs.Lock.Checked
import DataPipeline.Proofs.Lock.Listing

namespace DataPipeline

namespace Lock

/-- A lock has an entry for each node that its schema holds, and no other entry. -/
structure Covers (registry : Registry) (schema : Schema) (nodes : List NodeLock) : Prop where
  listed : ∀ place s, schema.Holds place s → ∃ n ∈ nodes, n.path = place ∧ s.PinnedBy registry n
  held : ∀ n ∈ nodes, ∃ s, schema.Holds n.path s ∧ s.PinnedBy registry n

theorem covers_of_ok {registry : Registry} {schema : Schema} {nodes : List NodeLock}
    (h : lockSchema registry schema = .ok nodes) : Covers registry schema nodes := by
  have h := toOption_eq_some.2 h
  rw [lockSchema, toOption_node] at h
  obtain ⟨tree, ht, rfl⟩ := Option.map_eq_some_iff.1 h
  constructor
  · intro place s hs
    obtain ⟨t, hs', hsub⟩ := hs.outline ht
    have hpinned := (Schema.outline?_eq_some hs').1 place
    exact ⟨t.entry place, hsub _ Outline.entry_mem_listed, Outline.path_entry, hpinned⟩
  · intro n hn
    exact Schema.holds_of_mem ht .root hn

end Lock

namespace CommandLine

namespace Host

variable {h : Host} {disk : Disk} {path output : String} {schema : Schema} {c : Console}

/-- What is logged of the findings of a check. -/
def findingEntries (path : String) (found : Findings) : List LogEntry :=
  (found.doubts.map fun d => ⟨.warn, d.message, [("file", path)]⟩) ++
    found.problems.map fun p => ⟨.error, p.message, [("file", path)]⟩

theorem run_check : (check path schema).run c = (.ok (checkSchema Registry.builtin schema),
    { c with log := c.log ++ findingEntries path (checkSchema Registry.builtin schema) }) := by
  have hlogged : (logFindings path (checkSchema Registry.builtin schema)).run c = (.ok (), _) :=
    (Script.run_bind_ok (Script.run_forM_log .warn Doubt.message _ _)).trans
      (Script.run_forM_log .error Problem.message _ _)
  rw [check, Script.run_bind_ok hlogged, findingEntries, ← List.append_assoc]
  rfl

theorem run_lock_of_load_error {e : LoadError}
    (hload : Schema.load disk h.cwd path = .error e) :
    (h.lock path output).run { disk } = (.error e.chain, { disk }) := by
  rw [lock]
  exact Script.run_bind_error (run_load_error (c := { disk }) hload)

theorem run_lock_of_problems (hload : Schema.load disk h.cwd path = .ok schema)
    (hproblems : (checkSchema Registry.builtin schema).isOk = false) :
    (h.lock path output).run { disk } =
      (.error (.of ("Cannot generate lockfile due to " ++
          toString (checkSchema Registry.builtin schema).problems.length ++
            " validation error(s)")),
        { disk, log := findingEntries path (checkSchema Registry.builtin schema) }) := by
  rw [lock, Script.run_bind_ok (run_load_ok (c := { disk }) hload),
    Script.run_bind_ok run_check, hproblems]
  exact Script.run_fail _

/-- What is left to do once a schema is found to be without problems. -/
def pin (h : Host) (schema : Schema) (output : String) : Script Unit := do
  h.ensureParent "lockfile" output
  let nodes ← Script.ofExcept BuildError.chain (lockSchema Registry.builtin schema)
  let disk ← Script.ofExcept id (Lock.store (← get).disk h.cwd output (Lock.text h.time nodes))
  modify fun c => { c with disk }
  Script.log .info "Lockfile generated successfully" [("lockfile", output)]

theorem run_lock_of_isOk (output : String) (hload : Schema.load disk h.cwd path = .ok schema)
    (hok : (checkSchema Registry.builtin schema).isOk = true) :
    (h.lock path output).run { disk } = (h.pin schema output).run
      { disk, log := findingEntries path (checkSchema Registry.builtin schema) } := by
  rw [lock, Script.run_bind_ok (run_load_ok (c := { disk }) hload),
    Script.run_bind_ok run_check, hok]
  rfl

/-- The lockfile is stored if the disk takes it. -/
theorem run_pin (h : Host) (output : String) (c : Console) {nodes : List NodeLock}
    (hlock : lockSchema Registry.builtin schema = .ok nodes) :
    (∀ stored, c.disk.store h.cwd output (Lock.text h.time nodes) = .ok stored →
      ∃ c', (h.pin schema output).run c = (.ok (), c') ∧ c'.disk = stored) ∧
    ∀ e, c.disk.store h.cwd output (Lock.text h.time nodes) = .error e →
      ∃ chain c', (h.pin schema output).run c = (.error chain, c') := by
  rw [pin]
  rcases h.run_ensureParent "lockfile" output (Lock.text h.time nodes) c with
    ⟨made, hmade, hwrite⟩ | ⟨chain, made, e, hmade, hrefused⟩
  · rw [hwrite, Script.run_bind_ok hmade, Script.run_bind_ok (Script.run_ofExcept_ok hlock),
      Script.run_bind_ok Script.run_get]
    refine ⟨fun stored hstored => ?_, fun e hrefused => ?_⟩
    · have hstore : Lock.store made h.cwd output (Lock.text h.time nodes) = .ok stored := by
        rw [Lock.store, hstored]
        rfl
      rw [Script.run_bind_ok (Script.run_ofExcept_ok hstore)]
      exact ⟨_, rfl, rfl⟩
    · obtain ⟨chain, hstore⟩ :
          ∃ chain, Lock.store made h.cwd output (Lock.text h.time nodes) = .error chain := by
        rw [Lock.store, hrefused]
        exact ⟨_, rfl⟩
      exact ⟨chain, _, Script.run_bind_error (Script.run_ofExcept_error hstore)⟩
  · refine ⟨fun stored hstored => ?_, fun e _ => ⟨_, _, Script.run_bind_error hmade⟩⟩
    rw [hrefused] at hstored
    cases hstored

end Host

/-- A schema without problems can be locked, and a check has found the error with which a lock
fails. So the command `lock` is all or nothing: if the schema cannot be loaded or has problems,
it ends with 1 and the disk is as it was; otherwise, if the disk takes the lockfile, it ends
with 0 and the file lists every node. -/
theorem program_lock_all_or_nothing (h : Host) (disk : Disk) (arguments : List String)
    (path output : String) (hcommand : readCommand arguments = .ok (.lock path output)) :
    (∀ registry schema, (checkSchema registry schema).isOk = true →
      ∃ nodes, lockSchema registry schema = .ok nodes) ∧
    (∀ registry schema e, lockSchema registry schema = .error e →
      Lock.Reported registry schema e) ∧
    (∀ e, Schema.load disk h.cwd path = .error e →
      program h disk arguments =
        ⟨1, "", [], some ("Error: " ++ e.chain.report ++ "\n"), disk⟩) ∧
    (∀ schema, Schema.load disk h.cwd path = .ok schema →
      (checkSchema Registry.builtin schema).isOk = false →
      (program h disk arguments).code = 1 ∧ (program h disk arguments).disk = disk) ∧
    (∀ schema, Schema.load disk h.cwd path = .ok schema →
      (checkSchema Registry.builtin schema).isOk = true →
      ∃ nodes, lockSchema Registry.builtin schema = .ok nodes ∧
        Lock.Covers Registry.builtin schema nodes ∧
        (∀ stored, disk.store h.cwd output (Lock.listing h.time nodes) = .ok stored →
          (program h disk arguments).code = 0 ∧ (program h disk arguments).disk = stored ∧
          stored.readText (FilePath.seenFrom h.cwd output) = .ok (Lock.listing h.time nodes)) ∧
        ∀ e, disk.store h.cwd output (Lock.listing h.time nodes) = .error e →
          (program h disk arguments).code = 1) := by
  have hprogram : program h disk arguments = .ofScript (h.lock path output) disk := by
    rw [program, hcommand]
    rfl
  rw [hprogram]
  refine ⟨fun _ _ => Lock.lockSchema_of_isOk, fun _ _ _ => Lock.reported_of_error, ?unloaded,
    ?problems, ?locked⟩
  case unloaded =>
    intro e hload
    rw [Exit.ofScript, Host.run_lock_of_load_error hload]
  case problems =>
    intro schema hload hproblems
    rw [Exit.ofScript, Host.run_lock_of_problems hload hproblems]
    exact ⟨rfl, rfl⟩
  case locked =>
    intro schema hload hok
    obtain ⟨nodes, hlock⟩ := Lock.lockSchema_of_isOk hok
    have hrun := Host.run_lock_of_isOk output hload hok
    obtain ⟨hstores, hrefuses⟩ := h.run_pin output
      { disk, log := Host.findingEntries path (checkSchema Registry.builtin schema) } hlock
    rw [Lock.text_of_ok h.time hlock] at hstores hrefuses
    refine ⟨nodes, hlock, Lock.covers_of_ok hlock, ?_, ?_⟩
    · intro stored hstored
      obtain ⟨c, hpin, hdisk⟩ := hstores stored hstored
      obtain ⟨made, _, hwrite⟩ := Disk.store_ok hstored
      rw [Exit.ofScript, hrun, hpin]
      exact ⟨rfl, hdisk, Disk.readText_write hwrite⟩
    · intro e hrefused
      obtain ⟨chain, c, hpin⟩ := hrefuses e hrefused
      rw [Exit.ofScript, hrun, hpin]

/-- Asks for a lockfile. -/
def lockArguments : List String := ["lock", "s.json", "s.lock"]

/-- A disk with a schema on it: a synchronizer of a stage whose id looks like a number. -/
def numberedDisk : Disk where
  items := [(["s.json"], .file ("\x7b\"component\":\"synchronizer\",\"children\":[" ++
    "\x7b\"referenceId\":\"7\",\"generator\":\x7b\"name\":\"static\"\x7d," ++
    "\"datajet\":\x7b\"name\":\"discard\"\x7d\x7d]\x7d").toUTF8)]

def numberedNodes : List NodeLock :=
  [⟨.root, .synchronizer, none, []⟩, ⟨⟨[.children 0]⟩, .stage, some "7",
    [⟨.generator, "static",
      "4cc6f16df5f98feb9d74a6782a9ae4b87b9f6d5fee1318ccd406e764c7c343eb"⟩,
    ⟨.datajet, "discard",
      "7be41c4a2fc9989b2d8d3e78211008e766e3f4f1206e7e79cb4ceaa14fadfd58"⟩]⟩]

/-- The lockfile for that schema. -/
def numberedLock : String :=
  "generated_at: ''\n" ++
  "nodes:\n" ++
  "- path: $\n" ++
  "  component: synchronizer\n" ++
  "- path: $.children[0]\n" ++
  "  component: stage\n" ++
  "  reference_id: '7'\n" ++
  "  plugins:\n" ++
  "  - kind: generator\n" ++
  "    name: static\n" ++
  "    config_hash: 4cc6f16df5f98feb9d74a6782a9ae4b87b9f6d5fee1318ccd406e764c7c343eb\n" ++
  "  - kind: datajet\n" ++
  "    name: discard\n" ++
  "    config_hash: 7be41c4a2fc9989b2d8d3e78211008e766e3f4f1206e7e79cb4ceaa14fadfd58\n"

/-- A schema without problems is pinned, and its lockfile lists both nodes. -/
theorem program_lock_numbered : readCommand lockArguments = .ok (.lock "s.json" "s.lock") ∧
    (program rootHost numberedDisk lockArguments).code = 0 ∧
    (program rootHost numberedDisk lockArguments).disk.readText
      (FilePath.seenFrom "/" "s.lock") = .ok numberedLock := by
  have hcommand : readCommand lockArguments = .ok (.lock "s.json" "s.lock") := by decide +kernel
  have hvalid : (Schema.load numberedDisk "/" "s.json").toOption.any (fun schema =>
      (checkSchema Registry.builtin schema).isOk &&
        (lockSchema Registry.builtin schema).toOption = some numberedNodes) = true := by
    decide +kernel
  have hlisting : Lock.listing "" numberedNodes = numberedLock := by decide +kernel
  have hcode : (program rootHost numberedDisk lockArguments).code = 0 := by decide +kernel
  obtain ⟨schema, hload, hok⟩ := (Option.any_eq_true _ _).1 hvalid
  rw [Bool.and_eq_true, decide_eq_true_eq] at hok
  obtain ⟨_, _, _, _, hlocked⟩ :=
    program_lock_all_or_nothing rootHost numberedDisk lockArguments
      "s.json" "s.lock" hcommand
  obtain ⟨nodes, hlock, _, hstores, hrefuses⟩ := hlocked schema (toOption_eq_some.1 hload) hok.1
  cases hlock.symm.trans (toOption_eq_some.1 hok.2)
  refine ⟨hcommand, hcode, ?_⟩
  cases hstore : numberedDisk.store "/" "s.lock" (Lock.listing "" numberedNodes) with
  | error e =>
    rw [hrefuses e hstore] at hcode
    cases hcode
  | ok stored =>
    obtain ⟨_, hdisk, hread⟩ := hstores stored hstore
    rw [hdisk, ← hlisting]
    exact hread

end CommandLine

end DataPipeline

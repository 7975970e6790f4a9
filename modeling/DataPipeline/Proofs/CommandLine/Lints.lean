import DataPipeline.Proofs.CommandLine.Locks

namespace DataPipeline

theorem isOk_mapM {α β ε : Type} {f : α → Except ε β} {as : List α} :
    (as.mapM f).isOk = as.all fun a => (f a).isOk := by
  induction as with
  | nil => rfl
  | cons a as ih =>
    rw [List.mapM_cons, List.all_cons, ← ih]
    cases f a with
    | error e => rfl
    | ok b =>
      cases as.mapM f with
      | error e => rfl
      | ok bs => rfl

namespace FilePattern

/-- A pattern whose text can be read, and each of its segments by itself. -/
def IsValid (pattern : String) : Prop :=
  (tokens pattern).isOk = true ∧ ∀ segment ∈ segments pattern, (tokens segment).isOk = true

instance (pattern : String) : Decidable (IsValid pattern) := inferInstanceAs (Decidable (_ ∧ _))

end FilePattern

namespace Disk

theorem isOk_matching (disk : Disk) (cwd pattern : String) :
    (disk.matching cwd pattern).isOk = true ↔ FilePattern.IsValid pattern := by
  have hread : (disk.matching cwd pattern).isOk = ((FilePattern.tokens pattern).isOk &&
      ((FilePattern.segments pattern).mapM FilePattern.tokens).isOk) := by
    rw [matching]
    cases FilePattern.tokens pattern with
    | error e => rfl
    | ok ts =>
      cases (FilePattern.segments pattern).mapM FilePattern.tokens with
      | error e => rfl
      | ok segments => rfl
  rw [hread, isOk_mapM, Bool.and_eq_true, List.all_eq_true, FilePattern.IsValid]

/-- The paths that match a valid pattern. -/
def found (disk : Disk) (cwd pattern : String) : List String :=
  (disk.matching cwd pattern).toOption.getD []

theorem matching_eq_found_iff {disk : Disk} {cwd pattern : String} :
    disk.matching cwd pattern = .ok (disk.found cwd pattern) ↔ FilePattern.IsValid pattern := by
  rw [← isOk_matching disk cwd, found]
  cases disk.matching cwd pattern with
  | error e => simp [Except.isOk, Except.toBool]
  | ok paths => simp [Except.isOk, Except.toBool, Except.toOption]

end Disk

namespace CommandLine

variable {h : Host} {disk : Disk} {path : String} {patterns : List String} {c : Console}

theorem Script.run_mapM_log {α β : Type} {f : α → Script β} {result : α → β}
    {entries : α → List LogEntry} {as : List α}
    (hf : ∀ a log, (f a).run { c with log } =
      (.ok (result a), { c with log := log ++ entries a })) :
    (as.mapM f).run c =
      (.ok (as.map result), { c with log := c.log ++ as.flatMap entries }) := by
  induction as generalizing c with
  | nil =>
    rw [List.flatMap_nil, List.append_nil]
    rfl
  | cons a as ih =>
    rw [List.mapM_cons, run_bind_ok (hf a c.log),
      run_bind_ok (ih (c := { c with log := c.log ++ entries a }) hf), List.flatMap_cons,
      List.append_assoc]
    rfl

namespace Host

/-- What a command leaves behind. -/
def exit (h : Host) (disk : Disk) (command : Command) : Exit :=
  .ofScript (h.perform command) disk

theorem program_eq {arguments : List String} {command : Command}
    (hcommand : readCommand arguments = .ok command) :
    program h disk arguments = h.exit disk command := by
  rw [program, hcommand]
  rfl

/-- The matches of all patterns, as often as they match. -/
def matched (h : Host) (disk : Disk) (patterns : List String) : List String :=
  patterns.flatMap (disk.found h.cwd)

/-- A warning if nothing matches a pattern. -/
def unmatched (h : Host) (disk : Disk) (pattern : String) : List LogEntry :=
  if (disk.found h.cwd pattern).isEmpty then
    [⟨.warn, "Pattern matched no files", [("pattern", Text.quoted pattern)]⟩]
  else []

theorem run_matching (hvalid : ∀ pattern ∈ patterns, FilePattern.IsValid pattern) :
    (h.matching patterns).run c =
      (.ok (h.matched c.disk patterns),
        { c with log := c.log ++ patterns.flatMap (h.unmatched c.disk) }) := by
  induction patterns generalizing c with
  | nil =>
    rw [List.flatMap_nil, List.append_nil]
    rfl
  | cons pattern rest ih =>
    obtain ⟨hpattern, hrest⟩ := List.forall_mem_cons.1 hvalid
    have hmatching : c.disk.matching h.cwd pattern = .ok (c.disk.found h.cwd pattern) :=
      Disk.matching_eq_found_iff.2 hpattern
    rw [matching, Script.run_bind_ok Script.run_get,
      Script.run_bind_ok (Script.run_ofExcept_ok hmatching), List.flatMap_cons, unmatched,
      matched, List.flatMap_cons]
    split
    next hnone =>
      rw [Script.run_bind_ok (Script.run_log _ _ _), Script.run_bind_ok (ih hrest),
        List.append_assoc]
      rfl
    next hsome =>
      rw [Script.run_bind_ok (ih hrest)]
      rfl

/-- An entry that approves of a schema if it has no problems. -/
def approval (path message : String) (found : Findings) : List LogEntry :=
  if found.isOk then [⟨.info, message, [("file", path)]⟩] else []

/-- What is logged of a match: its findings, or why it cannot be loaded. -/
def examined (h : Host) (disk : Disk) (path : String) : List LogEntry :=
  match Schema.load disk h.cwd path with
  | .error e => [⟨.error, "Failed to load schema: " ++ e.chain.text, [("file", path)]⟩]
  | .ok schema =>
    let found := checkSchema Registry.builtin schema
    findingEntries path found ++ approval path "Lint passed" found

/-- Whether the schema at a path can be loaded and has no problems. -/
def accepts (h : Host) (disk : Disk) (path : String) : Bool :=
  match Schema.load disk h.cwd path with
  | .error _ => false
  | .ok schema => (checkSchema Registry.builtin schema).isOk

theorem run_lintOne (path : String) :
    (h.lintOne path).run c =
      (.ok (h.accepts c.disk path), { c with log := c.log ++ h.examined c.disk path }) := by
  rw [lintOne, Script.run_bind_ok Script.run_get, accepts, examined]
  cases Schema.load c.disk h.cwd path with
  | error e => rfl
  | ok schema =>
    dsimp only
    rw [Script.run_bind_ok run_check, approval]
    split
    next hok =>
      rw [← List.append_assoc]
      rfl
    next hproblems =>
      rw [List.append_nil]
      rfl

theorem run_mapM_lintOne (paths : List String) :
    (paths.mapM h.lintOne).run c =
      (.ok (paths.map (h.accepts c.disk)),
        { c with log := c.log ++ paths.flatMap (h.examined c.disk) }) :=
  Script.run_mapM_log fun path log => run_lintOne (c := { c with log }) path

theorem run_validate_of_load_error {e : LoadError}
    (hload : Schema.load disk h.cwd path = .error e) :
    (h.validate path).run { disk } = (.error e.chain, { disk }) := by
  rw [validate]
  exact Script.run_bind_error (run_load_error (c := { disk }) hload)

theorem run_validate_of_load_ok {schema : Schema} {found : Findings}
    (hload : Schema.load disk h.cwd path = .ok schema)
    (hfound : checkSchema Registry.builtin schema = found) :
    (h.validate path).run { disk } =
      (if found.isOk then .ok ()
        else .error (.of
          ("Schema validation failed with " ++ toString found.problems.length ++ " error(s)")),
        { disk
          log := findingEntries path found ++
            approval path "Schema validation passed" found }) := by
  rw [validate, Script.run_bind_ok (run_load_ok (c := { disk }) hload),
    Script.run_bind_ok run_check, hfound, approval]
  split
  next hok => rfl
  next hproblems =>
    rw [List.append_nil]
    exact Script.run_fail _

/-- What is logged of one of many schemas goes with what the command for it alone leaves behind:
the same findings, and approval where it approves. A schema that cannot be loaded has no
findings; the error with which that command ends is logged in their place. -/
inductive Agrees (h : Host) (disk : Disk) (path : String) (entries : List LogEntry)
    (exit : Exit) : Prop where
  | unloaded {e : LoadError} (hload : Schema.load disk h.cwd path = .error e)
      (hentries : entries =
        [⟨.error, "Failed to load schema: " ++ e.chain.text, [("file", path)]⟩])
      (hexit : exit = ⟨1, "", [], some ("Error: " ++ e.chain.report ++ "\n"), disk⟩)
  | loaded {schema : Schema} {found : Findings}
      (hload : Schema.load disk h.cwd path = .ok schema)
      (hfound : checkSchema Registry.builtin schema = found)
      (hentries : entries = findingEntries path found ++ approval path "Lint passed" found)
      (hlog : exit.log =
        findingEntries path found ++ approval path "Schema validation passed" found)
      (hcode : exit.code = 0 ↔ found.isOk = true)

theorem agrees (h : Host) (disk : Disk) (path : String) :
    h.Agrees disk path (h.examined disk path) (h.exit disk (.validate path)) := by
  change h.Agrees disk path _ (.ofScript (h.validate path) disk)
  rw [examined, Exit.ofScript]
  cases hload : Schema.load disk h.cwd path with
  | error e =>
    rw [run_validate_of_load_error hload]
    exact .unloaded hload rfl rfl
  | ok schema =>
    rw [run_validate_of_load_ok hload rfl]
    cases hok : (checkSchema Registry.builtin schema).isOk with
    | false => exact .loaded hload rfl rfl rfl (by simp [hok])
    | true => exact .loaded hload rfl rfl rfl (by simp [hok])

theorem code_validate :
    (h.exit disk (.validate path)).code = 0 ↔ h.accepts disk path = true := by
  rw [accepts]
  cases h.agrees disk path with
  | unloaded hload hentries hexit => simp [hload, hexit]
  | loaded hload hfound hentries hlog hcode => simp [hload, hfound, hcode]

/-- On how many paths the command for a single schema fails. -/
def failures (h : Host) (disk : Disk) (paths : List String) : Nat :=
  paths.countP fun path => (h.exit disk (.validate path)).code ≠ 0

theorem failures_eq_zero {paths : List String} :
    h.failures disk paths = 0 ↔ ∀ path ∈ paths, (h.exit disk (.validate path)).code = 0 := by
  simp [failures, List.countP_eq_zero]

theorem count_accepts (paths : List String) :
    (paths.map (h.accepts disk)).count false = h.failures disk paths := by
  rw [List.count_eq_countP, List.countP_map, failures]
  apply List.countP_congr
  intro path _
  simp [code_validate]

theorem run_lint_of_unmatched (hvalid : ∀ pattern ∈ patterns, FilePattern.IsValid pattern)
    (hunmatched : h.matched disk patterns = []) :
    (h.lint patterns).run { disk } =
      (.error (.of "No schema files matched the supplied patterns"),
      { disk, log := patterns.flatMap (h.unmatched disk) }) := by
  rw [lint, Script.run_bind_ok (run_matching (c := { disk }) hvalid), hunmatched]
  exact Script.run_fail _

theorem run_lint_of_matched (hvalid : ∀ pattern ∈ patterns, FilePattern.IsValid pattern)
    (hmatched : h.matched disk patterns ≠ []) :
    (h.lint patterns).run { disk } =
      (if h.failures disk (h.matched disk patterns) = 0 then .ok ()
        else .error (.of
          ("Lint failed for " ++ toString (h.failures disk (h.matched disk patterns)) ++
            " of " ++ toString (h.matched disk patterns).length ++ " schema(s)")),
        { disk
          log := patterns.flatMap (h.unmatched disk) ++
            (h.matched disk patterns).flatMap (h.examined disk) ++
            if h.failures disk (h.matched disk patterns) = 0 then
              [⟨.info, "All schema lint checks passed",
                [("count", toString (h.matched disk patterns).length)]⟩]
            else [] }) := by
  rw [lint, Script.run_bind_ok (run_matching (c := { disk }) hvalid),
    List.isEmpty_eq_false_iff.2 hmatched, if_neg Bool.false_ne_true]
  apply (Script.run_bind_ok (run_mapM_lintOne _)).trans
  dsimp only
  rw [count_accepts]
  split
  next hnone => rfl
  next hfailed =>
    rw [List.append_nil]
    exact Script.run_fail _

/-- What the command for many schemas leaves behind, in terms of what the command for a single
one leaves behind at each match: its code, the count in its last word, and its log. -/
structure Linted (h : Host) (disk : Disk) (patterns : List String) (exit : Exit) : Prop where
  code : exit.code = 0 ↔ h.matched disk patterns ≠ [] ∧
    ∀ path ∈ h.matched disk patterns, (h.exit disk (.validate path)).code = 0
  failed : exit.code ≠ 0 → exit.code = 1
  complaint : h.matched disk patterns ≠ [] → exit.code ≠ 0 → exit.complaint = some ("Error: " ++
    ("Lint failed for " ++ toString (h.failures disk (h.matched disk patterns)) ++ " of " ++
      toString (h.matched disk patterns).length ++ " schema(s)") ++ "\n")
  log : exit.log =
    patterns.flatMap (h.unmatched disk) ++
      (h.matched disk patterns).flatMap (h.examined disk) ++
    if exit.code = 0 then
      [⟨.info, "All schema lint checks passed",
        [("count", toString (h.matched disk patterns).length)]⟩]
    else []
  agrees : ∀ path ∈ h.matched disk patterns,
    h.Agrees disk path (h.examined disk path) (h.exit disk (.validate path))

end Host

/-- The command `lint` agrees with the command `validate`. Whatever valid patterns it is given,
it ends with 0 if something matches and `validate` ends with 0 at every match, and otherwise
with 1; if something matched, it then says on how many of the matches `validate` fails. Of every
match it logs what `validate` finds there. -/
theorem program_lint_agrees (h : Host) (disk : Disk) (patterns : List String)
    (hvalid : ∀ pattern ∈ patterns, FilePattern.IsValid pattern) :
    (∀ arguments command, readCommand arguments = .ok command →
      program h disk arguments = h.exit disk command) ∧
    (∀ pattern ∈ patterns, disk.matching h.cwd pattern = .ok (disk.found h.cwd pattern)) ∧
    h.Linted disk patterns (h.exit disk (.lint patterns)) := by
  have hmatching :
      ∀ pattern ∈ patterns, disk.matching h.cwd pattern = .ok (disk.found h.cwd pattern) := by
    intro pattern hpattern
    exact Disk.matching_eq_found_iff.2 (hvalid pattern hpattern)
  have hagrees : ∀ path ∈ h.matched disk patterns,
      h.Agrees disk path (h.examined disk path) (h.exit disk (.validate path)) := by
    intro path _
    exact h.agrees disk path
  have hlinted : h.Linted disk patterns (.ofScript (h.lint patterns) disk) := by
    rw [Exit.ofScript]
    by_cases hmatched : h.matched disk patterns = []
    · rw [Host.run_lint_of_unmatched hvalid hmatched]
      exact {
        code := iff_of_false Nat.one_ne_zero fun hall => hall.1 hmatched
        failed := fun _ => rfl
        complaint := fun hsome => absurd hmatched hsome
        log := by simp [hmatched]
        agrees := hagrees }
    rw [Host.run_lint_of_matched hvalid hmatched]
    by_cases hnone : h.failures disk (h.matched disk patterns) = 0
    · rw [if_pos hnone, if_pos hnone]
      exact {
        code := iff_of_true rfl ⟨hmatched, Host.failures_eq_zero.1 hnone⟩
        failed := fun hfailed => absurd rfl hfailed
        complaint := fun _ hfailed => absurd rfl hfailed
        log := rfl
        agrees := hagrees }
    · rw [if_neg hnone, if_neg hnone]
      exact {
        code := iff_of_false Nat.one_ne_zero fun hall => hnone (Host.failures_eq_zero.2 hall.2)
        failed := fun _ => rfl
        complaint := fun _ _ => rfl
        log := rfl
        agrees := hagrees }
  exact ⟨fun _ _ => Host.program_eq, hmatching, hlinted⟩

/-- A directory, a file without text, a text that breaks off, a node of a kind that there is
not, and a schema with a doubt but no problem. -/
def mixedDisk : Disk where
  items := [(["d.json"], .directory), (["b.json"], .file ⟨#[0xFF]⟩),
    (["t.json"], .file "\x7b".toUTF8),
    (["k.json"], .file "\x7b\"component\":\"fanout\"\x7d".toUTF8),
    (["s.json"], .file "\x7b\"component\":\"synchronizer\"\x7d".toUTF8)]

/-- Patterns of which two match one path and one matches none. -/
def overlappingPatterns : List String := ["*.json", "s.*", "*.yaml"]

/-- Four of six matches fail, and the last of them is none of the four. -/
theorem program_lint_agrees_overlappingPatterns :
    (∀ pattern ∈ overlappingPatterns, FilePattern.IsValid pattern) ∧
    rootHost.matched mixedDisk overlappingPatterns =
      ["b.json", "d.json", "k.json", "s.json", "t.json", "s.json"] ∧
    rootHost.Linted mixedDisk overlappingPatterns
      (program rootHost mixedDisk ("lint" :: overlappingPatterns)) ∧
    (program rootHost mixedDisk ("lint" :: overlappingPatterns)).complaint =
      some "Error: Lint failed for 4 of 6 schema(s)\n" := by
  have hvalid : ∀ pattern ∈ overlappingPatterns, FilePattern.IsValid pattern := by
    decide +kernel
  have hmatched : rootHost.matched mixedDisk overlappingPatterns =
      ["b.json", "d.json", "k.json", "s.json", "t.json", "s.json"] := by decide +kernel
  have hfailures :
      rootHost.failures mixedDisk ["b.json", "d.json", "k.json", "s.json", "t.json", "s.json"] =
        4 := by
    decide +kernel
  obtain ⟨hprogram, _, hlinted⟩ :=
    program_lint_agrees rootHost mixedDisk overlappingPatterns hvalid
  rw [← hprogram ("lint" :: overlappingPatterns) _ (by decide +kernel)] at hlinted
  have hfailed : (program rootHost mixedDisk ("lint" :: overlappingPatterns)).code ≠ 0 := by
    intro hcode
    have hnone := Host.failures_eq_zero.2 (hlinted.code.1 hcode).2
    rw [hmatched, hfailures] at hnone
    cases hnone
  have hcomplaint := hlinted.complaint (by simp [hmatched]) hfailed
  rw [hmatched, hfailures] at hcomplaint
  exact ⟨hvalid, hmatched, hlinted, hcomplaint⟩

end CommandLine

end DataPipeline

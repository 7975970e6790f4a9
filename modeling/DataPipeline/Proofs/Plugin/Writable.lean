import DataPipeline.Proofs.Disk.Walks
import DataPipeline.Proofs.Node.Sinks

namespace DataPipeline

open FilePath (Ancestral Fits Leads NamesLast join place segments)

/-- A workspace with nothing in it. It is a directory, or can be made: no file is on the way to
it, and the way does not lead upward again. -/
structure Disk.Fresh (d : Disk) (root : String) : Prop where
  way : d.isDirectory root = true ∨
    ".." ∉ segments root ∧ ∀ l b, l <:+ place root → d.get? l ≠ some (.file b)
  empty : ∀ l, (place root).Inside l → d.get? l = none

section Fresh

variable {d : Disk} {root path parent : String} {l : Location} {b : ByteArray}
  {names : List String}

theorem Disk.Fresh.ancestral (h : d.Fresh root) (hl : Ancestral root l) :
    d.get? l ≠ some (.file b) ∧ ¬(place root).Inside l := by
  rcases h.way with hdirectory | ⟨hup, hfile⟩
  · obtain ⟨k, rfl⟩ := hl
    have hroot : ∀ s, s <:+ [] → d.get? s = some .directory := by
      intro s hs
      rw [List.suffix_nil.1 hs]
      rfl
    have hget := Disk.get?_of_walk hroot (Disk.walk_of_isDirectory hdirectory) k
    rw [hget]
    refine ⟨nofun, fun hinside => ?_⟩
    rw [h.empty _ hinside] at hget
    cases hget
  · have hsuffix := (FilePath.ancestral_iff hup).1 hl
    refine ⟨hfile l b hsuffix, ?_⟩
    rintro ⟨hin, hne⟩
    exact hne (hsuffix.eq_of_length_le hin.length_le)

theorem ancestral_names (hsegments : segments parent = segments root ++ names)
    (hnames : ∀ name ∈ names, name ≠ "." ∧ name ≠ "..") (hl : Ancestral parent l) :
    Ancestral root l ∨ ∃ k, l = (names.take k).reverse ++ place root := by
  obtain ⟨k, rfl⟩ := hl
  rw [hsegments, List.take_append]
  by_cases hk : k ≤ (segments root).length
  · left
    rw [Nat.sub_eq_zero_of_le hk, List.take_zero, List.append_nil]
    exact ⟨k, rfl⟩
  · right
    refine ⟨k - (segments root).length, ?_⟩
    rw [List.take_of_length_le (by omega), List.foldl_append, ← FilePath.place_eq,
      FilePath.foldl_onward_inward]
    exact fun name hname => hnames name (List.mem_of_mem_take hname)

/-- The directories above an accepted path in a fresh workspace can be made. They lead to the
place of the path, and nothing is there yet. -/
theorem makeAll_fresh (hdefect : pathDefect path = none) (hfits : Fits (join root path))
    (hfresh : d.Fresh root) :
    ∃ parent d', FilePath.parent? (join root path) = some parent ∧
      d.makeAll parent = (.ok (), d') ∧
      (∃ l, d'.walk [] (segments (join root path)).dropLast = .ok l) ∧
      d.Raises (Leads root) d' ∧
      d'.get? (place (join root path)) = none := by
  obtain ⟨hrelative, hne, hup⟩ := pathDefect_segments hdefect
  have hjoin : segments (join root path) = segments root ++ segments path :=
    FilePath.segments_join hrelative
  rcases FilePath.parent?_of_isAbsolute hfits.absolute with ⟨_, hnil⟩
    | ⟨parent, hsome, habsolute, _, hsegments⟩
  · rw [hjoin] at hnil
    exact absurd (List.append_eq_nil_iff.1 hnil).2 hne
  have hnames : ∀ name ∈ (segments path).dropLast, name ≠ "." ∧ name ≠ ".." := by
    intro name hname
    have hmem := (List.dropLast_sublist _).subset hname
    exact ⟨(FilePath.ne_point_of_mem_segments hmem).2, fun heq => hup (heq ▸ hmem)⟩
  have hsplit : segments parent = segments root ++ (segments path).dropLast := by
    rw [hsegments, hjoin, List.dropLast_append_of_ne_nil hne]
  have hopen : ∀ l b, Ancestral parent l → d.get? l ≠ some (.file b) := by
    intro l b hl
    rcases ancestral_names hsplit hnames hl with habove | ⟨k, rfl⟩
    · exact (hfresh.ancestral habove).1
    by_cases hroot : ((segments path).dropLast.take k).reverse ++ place root = place root
    · rw [hroot]
      exact (hfresh.ancestral (FilePath.ancestral_place root)).1
    · rw [hfresh.empty _ ⟨List.suffix_append _ _, hroot⟩]
      exact nofun
  obtain ⟨d', hmade, hwalk⟩ :=
    Disk.makeDirectories_walk parent.length (Nat.le_refl _) (hfits.above hsome)
      (FilePath.parent?_namesLast hfits.absolute hsome) hopen
  have hraises := Disk.raises_ancestral (d := d) habsolute
  have hmake : d.makeAll parent = (.ok (), d') := hmade
  rw [hmake] at hraises
  refine ⟨parent, d', hsome, hmake, hsegments ▸ hwalk, hraises.mono fun l hl => ?_, ?_⟩
  · exact (ancestral_names hsplit hnames hl).imp_right fun ⟨k, heq⟩ =>
      heq ▸ List.suffix_append _ _
  have hinside : (place root).Inside (place (join root path)) := inside_of_pathDefect hdefect
  rcases hraises (place (join root path)) with heq | ⟨_, _, hl⟩
  · rw [heq]
    exact hfresh.empty _ hinside
  rcases ancestral_names hsplit hnames hl with habove | ⟨k, hk⟩
  · exact absurd hinside (hfresh.ancestral (b := .empty) habove).2
  · have hlength := congrArg List.length hk
    rw [FilePath.place_join hrelative hup, List.length_append, List.length_append,
      List.length_reverse, List.length_reverse, List.length_take,
        List.length_dropLast] at hlength
    have := List.length_pos_iff.2 hne
    omega

theorem namesLast_join (hrelative : FilePath.isAbsolute path = false) :
    NamesLast (join root path) ↔ NamesLast path := by
  obtain ⟨before, hsplit⟩ :
      ∃ before, FilePath.split (join root path) = before ++ FilePath.split path :=
    FilePath.split_join hrelative
  constructor
  · rintro ⟨pieces, name, heq, hname⟩
    have hpath := (List.dropLast_concat_getLast (FilePath.split_ne_nil path)).symm
    refine ⟨_, _, hpath, ?_⟩
    rw [hsplit, hpath, ← List.append_assoc] at heq
    obtain ⟨-, hlast⟩ := List.append_inj' heq rfl
    rw [List.singleton_inj.1 hlast]
    exact hname
  · rintro ⟨pieces, name, heq, hname⟩
    exact ⟨before ++ pieces, name, by rw [hsplit, heq, List.append_assoc], hname⟩

end Fresh

section Sink

variable {path parent : String} {d : Disk} {w : World} {ctx : RunContext} {earlier : List Batch}
  {batch : Batch}

theorem run_validate_file (hparent : FilePath.parent? path = some parent)
    (h : w.disk.makeAll parent = (.ok (), d)) :
    ((fileDatajet path).validate ctx).run w = some (.passed, { w with disk := d }) := by
  have hperform : w.perform (.makeDirectories parent) = (.ok (), { w with disk := d }) := by
    rw [World.perform, h]
  rw [fileDatajet]
  dsimp only
  rw [hparent]
  change Activity.run (.act (.makeDirectories parent) _) w = _
  rw [Activity.run, hperform]
  rfl

theorem run_transmit_file (h : w.disk.append path (lines "" batch) = .ok d) :
    ((fileDatajet path).transmit earlier batch ctx).run w =
      some (.ok (), { w with disk := d }) := by
  obtain ⟨d', hopen⟩ := Disk.append_isOk.1 ⟨d, h⟩
  have hopened : w.perform (.openFile path) = (.ok (), { w with disk := d' }) :=
    World.append_ok hopen
  have hwritten : World.perform { w with disk := d' } (.append path (lines "" batch)) =
      (.ok (), { w with disk := d }) := World.append_ok ((Disk.append_opened hopen).trans h)
  change Activity.run (.act (.openFile path) _) w = _
  rw [Activity.run, hopened]
  change Activity.run (.sleep 0 (.act (.append path (lines "" batch)) _)) { w with
    disk := d' } = _
  rw [Activity.run, Activity.run, Nat.add_zero, hwritten]
  rfl

theorem run_transmit_file_error {e : FileError} (h : w.disk.append path "" = .error e) :
    ∃ c, ((fileDatajet path).transmit earlier batch ctx).run w = some (.error c, w) := by
  have hopened : w.perform (.openFile path) = (.error e, w) := World.append_error h
  change ∃ c, Activity.run (.act (.openFile path) _) w = _
  rw [Activity.run, hopened]
  exact ⟨_, rfl⟩

end Sink

section Fresh

variable {d d' : Disk} {root path text : String}

theorem append_fresh (hdefect : pathDefect path = none) (hfits : Fits (join root path))
    (hnames : NamesLast path)
    (hwalk : ∃ l, d.walk [] (segments (join root path)).dropLast = .ok l)
    (hnone : d.get? (place (join root path)) = none) :
    ∃ d', d.append (join root path) text = .ok d' ∧
      ∀ l, d'.get? l = if l = (segments path).reverse ++ place root then
        some (.file text.toUTF8) else d.get? l := by
  obtain ⟨hrelative, hne, hup⟩ := pathDefect_segments hdefect
  obtain ⟨l, hwalk⟩ := hwalk
  have hlast : (segments (join root path)).getLast? ≠ some ".." := by
    rw [FilePath.segments_join hrelative, List.getLast?_append_of_ne_nil _ hne]
    exact fun heq => hup (List.mem_of_getLast? heq)
  have htarget :=
    Disk.target_of_walk hfits ((namesLast_join hrelative).2 hnames) hlast hwalk hnone
  have happend : d.append (join root path) text = .ok _ := Disk.append_of_target htarget
  refine ⟨_, happend, fun l => ?_⟩
  rw [Disk.get?_append happend, ← FilePath.place_join hrelative hup]
  by_cases hl : l = place (join root path)
  · rw [if_pos hl.symm, if_pos hl, hl, Disk.content_of_target htarget, ByteArray.empty_append]
  · rw [if_neg (Ne.symm hl), if_neg hl]

theorem run_transmit_unnamed {w : World} {ctx : RunContext} {earlier : List Batch}
    {batch : Batch} (hrelative : FilePath.isAbsolute path = false) (hnames : ¬NamesLast path) :
    ∃ c, ((fileDatajet (join root path)).transmit earlier batch ctx).run w =
      some (.error c, w) := by
  cases happend : w.disk.append (join root path) "" with
  | error e => exact run_transmit_file_error happend
  | ok d' =>
    obtain ⟨_, _, htarget, _⟩ := Disk.append_ok.1 happend
    exact absurd ((namesLast_join hrelative).1 (Disk.namesLast_of_target htarget)) hnames

end Fresh

/-- In a workspace where nothing is yet, a file sink with an accepted path passes its
validation, which makes only directories, in the workspace or on the way to it. If the last
piece of the path names something, the sink takes any batch after that, and there is one file
more than before: it holds the lines of the batch, and its segments are those of the workspace
and those of the path. If the last piece is empty or a point, no batch is ever taken. -/
theorem accepted_writable (path : String) (context : BuildContext) (sink : Datajet)
    (ctx : RunContext) (w : World) (hsink : fileFactory (fileConfig path) context = .ok sink)
    (hfits : Fits (join context.workspaceRoot path))
    (hfresh : w.disk.Fresh context.workspaceRoot) :
    ∃ d, (sink.validate ctx).run w = some (.passed, { w with disk := d }) ∧
      w.disk.Raises (Leads context.workspaceRoot) d ∧
      ∀ earlier batch,
        (NamesLast path → ∃ d', (sink.transmit earlier batch ctx).run { w with disk := d } =
            some (.ok (), { w with disk := d' }) ∧
          (∀ l, d'.get? l = if l = (segments path).reverse ++ place context.workspaceRoot
            then some (.file (lines "" batch).toUTF8) else d.get? l) ∧
          ∀ l b, d'.get? l = some (.file b) ↔ w.disk.get? l = some (.file b) ∨
            l = (segments path).reverse ++ place context.workspaceRoot ∧
            b = (lines "" batch).toUTF8) ∧
        (¬NamesLast path →
          ∀ w', ∃ c, (sink.transmit earlier batch ctx).run w' = some (.error c, w')) := by
  obtain ⟨hdefect, rfl⟩ := fileFactory_ok.1 hsink
  obtain ⟨hrelative, hne, hup⟩ := pathDefect_segments hdefect
  obtain ⟨parent, d, hparent, hmade, hwalk, hraises, hnone⟩ :=
    makeAll_fresh hdefect hfits hfresh
  refine ⟨d, run_validate_file hparent hmade, hraises,
    fun earlier batch => ⟨fun hnames => ?_, ?_⟩⟩
  · obtain ⟨d', happend, hget⟩ := append_fresh hdefect hfits hnames hwalk hnone
    refine ⟨d', run_transmit_file happend, hget, fun l b => ?_⟩
    have hinside :
        (place context.workspaceRoot).Inside (place (join context.workspaceRoot path)) :=
      inside_of_pathDefect hdefect
    rw [FilePath.place_join hrelative hup] at hinside
    rw [hget]
    by_cases hl : l = (segments path).reverse ++ place context.workspaceRoot
    · rw [if_pos hl, hl, hfresh.empty _ hinside]
      simp [eq_comm]
    · rw [if_neg hl, hraises.file_iff]
      simp [hl]
  · exact fun hnames w' => run_transmit_unnamed hrelative hnames

/-- A batch of two records. -/
def twoRecords : Batch := [.null, .bool true]

theorem fresh_empty : Disk.Fresh {} "/w/" where
  way := by
    refine .inr ⟨by decide +kernel, ?_⟩
    rintro (_ | _) b - <;> exact nofun
  empty := by
    rintro (_ | ⟨name, dir⟩) ⟨hin, hne⟩
    · exact absurd (List.suffix_nil.1 hin).symm hne
    · rfl

theorem accepted_writable_spelledLongWay :
    fileFactory (fileConfig ".//out/./a.jsonl") (.mk "/" "/w/" {} none none) =
      .ok (fileDatajet "/w/.//out/./a.jsonl") ∧
    Fits (join "/w/" ".//out/./a.jsonl") ∧ Disk.Fresh {} "/w/" ∧ NamesLast ".//out/./a.jsonl" ∧
    ∃ d d', ((fileDatajet "/w/.//out/./a.jsonl").validate {}).run {} =
      some (.passed, { disk := d }) ∧
      ((fileDatajet "/w/.//out/./a.jsonl").transmit [] twoRecords {}).run { disk := d } =
        some (.ok (), { disk := d' }) ∧
      d'.get? ["a.jsonl", "out", "w"] = some (.file "null\ntrue\n".toUTF8) := by
  have hsink : fileFactory (fileConfig ".//out/./a.jsonl") (.mk "/" "/w/" {} none none) =
      .ok (fileDatajet "/w/.//out/./a.jsonl") := fileFactory_ok.2 ⟨by decide +kernel, by rfl⟩
  have hfits : Fits (join "/w/" ".//out/./a.jsonl") :=
    ⟨by decide +kernel, by decide +kernel, by decide +kernel, by decide +kernel⟩
  have hnames : NamesLast ".//out/./a.jsonl" :=
    ⟨[".", "", "out", "."], "a.jsonl", by decide +kernel, by decide, by decide⟩
  obtain ⟨d, hvalidate, _, htransmit⟩ := accepted_writable _ _ _ {} {} hsink hfits fresh_empty
  obtain ⟨d', hrun, _, hfile⟩ := (htransmit [] twoRecords).1 hnames
  refine ⟨hsink, hfits, fresh_empty, hnames, d, d', hvalidate, hrun,
    (hfile _ _).2 (.inr ⟨?_, ?_⟩)⟩
  · decide +kernel
  · rfl

/-- A path that ends in a slash is accepted, but no file can be written at it. -/
theorem not_forall_accepted_writable :
    ¬∀ (path : String) (context : BuildContext) (sink : Datajet) (w : World),
    fileFactory (fileConfig path) context = .ok sink → Fits (join context.workspaceRoot path) →
    w.disk.Fresh context.workspaceRoot →
    ∃ d, (sink.validate {}).run w = some (.passed, { w with disk := d }) ∧
      ∀ batch, ∃ d', (sink.transmit [] batch {}).run { w with disk := d } =
        some (.ok (), { w with disk := d' }) ∧
        ∀ l b, d'.get? l = some (.file b) ↔ w.disk.get? l = some (.file b) ∨
          l = (segments path).reverse ++ place context.workspaceRoot ∧
          b = (lines "" batch).toUTF8 := by
  intro h
  have hsink : fileFactory (fileConfig "out/") (.mk "/" "/w/" {} none none) =
      .ok (fileDatajet (join "/w/" "out/")) :=
    fileFactory_ok.2 ⟨by decide +kernel, rfl⟩
  have hfits : Fits (join "/w/" "out/") :=
    ⟨by decide +kernel, by decide +kernel, by decide +kernel, by decide +kernel⟩
  have hnames : ¬NamesLast "out/" := by
    rintro ⟨pieces, name, hsplit, hempty, _⟩
    have hlast : FilePath.split "out/" = ["out"] ++ [""] := by decide +kernel
    obtain ⟨-, hname⟩ := List.append_inj' (hlast.symm.trans hsplit) rfl
    exact hempty (List.singleton_inj.1 hname).symm
  obtain ⟨d, _, htransmit⟩ := h "out/" (.mk "/" "/w/" {} none none) _ {} hsink hfits fresh_empty
  obtain ⟨d', hrun, _⟩ := htransmit twoRecords
  obtain ⟨c, herror⟩ :
      ∃ c, ((fileDatajet (join "/w/" "out/")).transmit [] twoRecords {}).run { disk := d } =
      some (.error c, { disk := d }) := run_transmit_unnamed rfl hnames
  cases herror.symm.trans hrun

end DataPipeline

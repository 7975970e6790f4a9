import DataPipeline.Proofs.Build.Tree
import DataPipeline.Proofs.Disk.Target
import DataPipeline.Proofs.Node.Governed

namespace DataPipeline

/-- Each place that has a file can write it where no other place writes its own, in a directory
that is there. -/
structure Disk.Houses (d : Disk) (file : String → Option String) (location : String → Location)
    (texts : String → ByteArray) : Prop where
  target : ∀ place path, file place = some path →
    d.target path = .ok (location place, texts place)
  parent : ∀ place path parent, file place = some path → FilePath.parent? path = some parent →
    d.isDirectory parent = true
  apart : ∀ place path place' path', file place = some path → file place' = some path' →
    location place = location place' → place = place'

theorem Disk.Houses.append {d : Disk} {file : String → Option String}
    {location : String → Location} {texts : String → ByteArray} {place path : String}
    (h : d.Houses file location texts) (hfile : file place = some path) (text : String) :
    ∃ d', d.append path text = .ok d' ∧
      d'.Houses file location (Function.update texts place (texts place ++ text.toUTF8)) := by
  have htarget := h.target place path hfile
  refine ⟨_, append_of_target htarget, ?_, ?_, h.apart⟩
  · intro other path' hother
    by_cases heq : other = place
    · subst heq
      rw [hfile] at hother
      cases hother
      rw [Function.update_self]
      exact target_set_self htarget
    · have hne : location other ≠ location place := fun hl =>
        heq (h.apart other path' place path hother hfile hl)
      rw [Function.update_of_ne heq]
      exact target_set_of_ne htarget (h.target other path' hother) hne
  · intro other path' parent hother hparent
    exact isDirectory_set_file (not_directory_of_target htarget)
      (h.parent other path' parent hother hparent)

namespace Tenancy

/-- Places that write at the end of a file each. -/
def files (file : String → Option String) : Tenancy where
  State := ByteArray
  answer place text
    | .print _ | .note _ => some ((), text)
    | .makeDirectories parent =>
      if (file place).bind FilePath.parent? = some parent then some (.ok (), text) else none
    | .openFile path => if file place = some path then some (.ok (), text) else none
    | .append path more =>
      if file place = some path then some (.ok (), text ++ more.toUTF8) else none
    | .offer .. | .count .. => none
  Ready _ _ := True
  Holds texts d := ∃ location, d.Houses file location texts
  sound := by
    rintro texts w place op a t hop ⟨location, hholds⟩ hanswer
    have hsame : Function.update texts place (texts place) = texts :=
      Function.update_eq_self place texts
    cases op with
    | offer => cases hop
    | count => cases hop
    | print text =>
      cases hanswer
      exact ⟨rfl, location, hsame.symm ▸ hholds⟩
    | note entry =>
      cases hanswer
      exact ⟨rfl, location, hsame.symm ▸ hholds⟩
    | makeDirectories parent =>
      simp only [Option.ite_none_right_eq_some] at hanswer
      obtain ⟨hparent, hanswer⟩ := hanswer
      cases hanswer
      obtain ⟨path, hfile, hparent⟩ := Option.bind_eq_some_iff.1 hparent
      have hdirectory := hholds.parent place path parent hfile hparent
      rw [World.perform, Disk.makeAll_of_isDirectory hdirectory]
      exact ⟨rfl, location, hsame.symm ▸ hholds⟩
    | openFile path =>
      simp only [Option.ite_none_right_eq_some] at hanswer
      obtain ⟨hfile, hanswer⟩ := hanswer
      cases hanswer
      obtain ⟨d, happend, hhouses⟩ := hholds.append hfile ""
      have hnothing : texts place ++ "".toUTF8 = texts place := ByteArray.append_empty
      rw [hnothing] at hhouses
      rw [World.perform, World.append_ok happend]
      exact ⟨rfl, location, hhouses⟩
    | append path text =>
      simp only [Option.ite_none_right_eq_some] at hanswer
      obtain ⟨hfile, hanswer⟩ := hanswer
      cases hanswer
      obtain ⟨d, happend, hhouses⟩ := hholds.append hfile text
      rw [World.perform, World.append_ok happend]
      exact ⟨rfl, location, hhouses⟩

end Tenancy

/-- A generator that only computes. -/
def Generator.Silent (g : Generator) : Prop :=
  ∀ ctx, (∃ v, g.validate ctx = .done v) ∧ ∀ i, ∃ item, (g.batches ctx).pull i = .done item

theorem incrementGenerator_silent (c : IncrementConfig) : (incrementGenerator c).Silent :=
  fun _ => ⟨⟨_, rfl⟩, fun _ => ⟨_, rfl⟩⟩

theorem staticGenerator_silent (c : StaticConfig) : (staticGenerator c).Silent :=
  fun _ => ⟨⟨_, rfl⟩, fun _ => ⟨_, rfl⟩⟩

theorem libraryGenerator_silent {g : Generator} (h : g.Silent) :
    (libraryGenerator g).Silent := h

/-- A built-in sink; if it writes a file, then the given one. -/
inductive Datajet.Writes (file? : Option String) : Datajet → Prop where
  | stdout (label : Option String) : Writes file? (stdoutDatajet label)
  | discard : Writes file? discardDatajet
  | file {path : String} (h : file? = some path) : Writes file? (fileDatajet path)

theorem Tenancy.files_governs {file : String → Option String} {s : Stage}
    (hg : s.generator.Silent) (hd : s.datajet.Writes (file s.path.text)) :
    (Tenancy.files file).Governs s where
  generator ctx t := by
    obtain ⟨⟨v, hv⟩, _⟩ := hg ctx
    rw [hv]
    exact .done trivial
  pull ctx i t _ := by
    obtain ⟨item, hitem⟩ := (hg ctx).2 i
    rw [hitem]
    exact .done trivial
  datajet ctx t := by
    generalize s.datajet = d at hd
    cases hd with
    | stdout label => exact .done fun _ => trivial
    | discard => exact .done fun _ => trivial
    | @file path h =>
      rw [fileDatajet]
      dsimp only
      split
      · exact .done fun _ => trivial
      next parent hparent =>
        have hmine : (file s.path.text).bind FilePath.parent? = some parent := by
          rw [h]
          exact hparent
        exact .plugin trivial (if_pos hmine) (.sleep (.done fun _ => trivial))
  transmit earlier batch ctx t _ := by
    generalize s.datajet = d at hd
    cases hd with
    | stdout label => exact .plugin trivial rfl (.sleep (.done trivial))
    | discard => exact .done trivial
    | file h =>
      exact .plugin trivial (if_pos h) (.sleep (.plugin trivial (if_pos h)
        (.sleep (.sleep (.done trivial)))))

/-- A node made of built-in plugins: its generators only compute, its sinks are of the three
kinds. -/
structure Node.Plain (n : Node) : Prop where
  silent : ∀ s ∈ n.stages, s.generator.Silent
  writes : ∀ s ∈ n.stages, ∃ file?, s.datajet.Writes file?
  published : ∀ g, n.generator? = some g → g.Silent

namespace Build

variable {context : BuildContext} {path : NodePath} {ref : PluginRef} {n : Node}

theorem create_silent {g : Generator} (hl : ∀ id n, context.library.get? id = some n → n.Plain)
    (h : (Registry.builtin.generators.create ref context).result = .ok g) : g.Silent := by
  obtain ⟨template, ht, h⟩ := Templates.create_ok.1 h
  have hmem := (Templates.get_mem ht).1
  simp only [Registry.builtin, List.mem_cons, List.not_mem_nil, or_false] at hmem
  rcases hmem with rfl | rfl | rfl
  · obtain ⟨c, _, h⟩ := except_bind_ok.1 h
    split at h
    · cases h
    · cases h
      exact incrementGenerator_silent c
  · obtain ⟨c, _, h⟩ := except_bind_ok.1 h
    cases h
    exact staticGenerator_silent c
  · obtain ⟨id, n, g, _, hn, hg, rfl⟩ := libraryFactory_ok h
    exact libraryGenerator_silent ((hl id n hn).published g hg)

theorem makes_builtin_writes {d : Datajet} (h : Registry.builtin.datajets.Makes d) :
    ∃ file?, d.Writes file? := by
  obtain ⟨template, hmem, config, context, h⟩ := h
  simp only [Registry.builtin, List.mem_cons, List.not_mem_nil, or_false] at hmem
  rcases hmem with rfl | rfl | rfl
  · obtain ⟨label, _, h⟩ := except_bind_ok.1 h
    cases h
    exact ⟨none, .stdout label⟩
  · obtain ⟨path, _, h⟩ := except_bind_ok.1 h
    split at h
    · cases h
    · cases h
      exact ⟨_, .file rfl⟩
  · cases h
    exact ⟨none, .discard⟩

theorem plain_of_derive {s : Schema} {entries : List (String × Node)} {id : String}
    (hl : ∀ id n, context.library.get? id = some n → n.Plain)
    (hentries : ∀ published ∈ entries, published.2.Plain)
    (hn : (context.derive s entries).library.get? id = some n) : n.Plain := by
  rw [BuildContext.derive, Library.get?_overlay] at hn
  cases hfind : entries.reverse.find? (·.1 = id) with
  | none =>
    rw [hfind, Option.map_none, Option.none_or] at hn
    exact hl id n hn
  | some published =>
    rw [hfind] at hn
    cases hn
    exact hentries published (List.mem_reverse.1 (List.mem_of_find?_eq_some hfind))

theorem plain_of_ok {s : Schema} (hl : ∀ id n, context.library.get? id = some n → n.Plain)
    (h : (node Registry.builtin s context path).result = .ok n) : n.Plain := by
  induction s using Schema.induction generalizing context path n with
  | node s ihl ihc ihw =>
    obtain ⟨entries, library, hmade⟩ := made_of_ok h
    -- a reference publishes the generator of an entry, so entries have to be plain before the
    -- node is
    have hpublished : ∀ published ∈ entries, published.2.Plain := by
      intro published hmem
      obtain ⟨i, entry, hi, hn⟩ := entry_of_mem_published library hmem
      exact ihl entry (List.mem_of_getElem? hi) hl hn
    have hin : ∀ id n, (context.derive s entries).library.get? id = some n → n.Plain :=
      fun id n hn => plain_of_derive hl hpublished hn
    cases hmade with
    | stage _ _ hg hd =>
      have hsilent := create_silent hin hg
      refine ⟨fun s hs => ?_, fun s hs => ?_, fun g hg => ?_⟩
      · cases List.mem_singleton.1 hs
        exact hsilent
      · cases List.mem_singleton.1 hs
        exact makes_builtin_writes (Templates.makes_of_create hd)
      · cases hg
        exact hsilent
    | @synchronizer nodes fan _ _ hnodes =>
      have hchild : ∀ n ∈ nodes, n.Plain := by
        intro n hmem
        obtain ⟨i, child, hi, hn⟩ := child_of_mem_nodes hnodes hmem
        exact ihc child (List.mem_of_getElem? hi) hin hn
      refine ⟨fun s hs => ?_, fun s hs => ?_, nofun⟩
      · obtain ⟨n, hn, hs⟩ := Node.mem_stages_synchronizer.1 hs
        exact (hchild n hn).silent s hs
      · obtain ⟨n, hn, hs⟩ := Node.mem_stages_synchronizer.1 hs
        exact (hchild n hn).writes s hs
    | wrap _ hc _ hn =>
      have hchild := ihw _ hc hin hn
      exact ⟨hchild.silent, hchild.writes, nofun⟩
    | generator _ _ hg =>
      refine ⟨nofun, nofun, fun g' hg' => ?_⟩
      cases hg'
      exact create_silent hin hg

end Build

theorem plain_built {schema : Schema} {context : BuildContext} {n : Node}
    (hl : context.library.entries = [])
    (hb : (buildPipeline Registry.builtin schema context).result = .ok n) : n.Plain := by
  have hempty : ∀ id n, (context.withRoot schema).library.get? id = some n → n.Plain := by
    intro id n hn
    simp [BuildContext.withRoot, Library.get?, hl] at hn
  exact Build.plain_of_ok hempty hb

end DataPipeline

import DataPipeline.Proofs.Disk.Segments

namespace DataPipeline

namespace Disk

variable {d d' : Disk} {l : Location} {b : ByteArray} {path text : String} {P : Location → Prop}

theorem raises_ancestral (h : FilePath.isAbsolute path = true) :
    Raises (FilePath.Ancestral path) d (d.makeAll path).2 := by
  apply raises_makeDirectories (R := fun path' =>
    FilePath.isAbsolute path' = true ∧
      ∀ l, FilePath.Ancestral path' l → FilePath.Ancestral path l)
  case hplace => exact fun path' h => h.2 _ (FilePath.ancestral_place path')
  case hparent =>
    rintro path' parent ⟨habsolute, hancestral⟩ heq
    rcases FilePath.parent?_of_isAbsolute habsolute with ⟨hnone, _⟩
      | ⟨_, hsome, hparent, _, hsegments⟩
    · rw [hnone] at heq
      cases heq
    · rw [hsome] at heq
      cases heq
      exact ⟨hparent, fun l hl => hancestral l (hl.of_parent hsegments)⟩
  case h => exact ⟨h, fun _ => id⟩

theorem append_ok : d.append path text = .ok d' ↔
    ∃ l b, d.target path = .ok (l, b) ∧ d' = d.set l (.file (b ++ text.toUTF8)) := by
  unfold append
  cases d.target path with
  | error e => simp [bind, Except.bind]
  | ok r =>
    obtain ⟨l, b⟩ := r
    simp [bind, Except.bind, eq_comm]

/-- What the file at a place holds, and nothing if there is none. -/
def content (d : Disk) (l : Location) : ByteArray :=
  match d.get? l with
  | some (.file b) => b
  | some .directory | none => .empty

theorem content_of_get? (h : d'.get? l = d.get? l) :
    d'.content l = d.content l := by rw [content, content, h]

theorem Raises.content (h : Raises P d d') (l : Location) : d'.content l = d.content l := by
  rcases h l with heq | ⟨hnone, hmade, _⟩
  · exact content_of_get? heq
  · rw [Disk.content, Disk.content, hnone, hmade]

theorem Raises.file_iff (h : Raises P d d') :
    d'.get? l = some (.file b) ↔ d.get? l = some (.file b) := by
  rcases h l with heq | ⟨hnone, hmade, _⟩
  · rw [heq]
  · simp [hnone, hmade]

theorem content_of_target (h : d.target path = .ok (l, b)) : d.content l = b := by
  obtain ⟨_, _, _, _, _, _, ⟨hget, rfl⟩ | hget⟩ := target_ok.1 h
  · rw [content, hget]
  · rw [content, hget]

theorem get?_append (h : d.append path text = .ok d') (l : Location) : d'.get? l =
    if FilePath.place path = l then some (.file (d.content l ++ text.toUTF8))
      else d.get? l := by
  obtain ⟨l', b, htarget, rfl⟩ := append_ok.1 h
  have hplace := place_of_target htarget
  obtain ⟨dir, name, _, _, _, hl', _⟩ := target_ok.1 htarget
  rw [hplace]
  by_cases hl : l' = l
  · subst hl
    rw [if_pos rfl, content_of_target htarget,
      get?_set_self (by rw [hl']; exact List.cons_ne_nil _ _)]
  · rw [if_neg hl, get?_set_of_ne (Ne.symm hl)]

end Disk

end DataPipeline

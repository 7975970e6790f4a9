import DataPipeline.Proofs.Disk.Made
import DataPipeline.Proofs.Run.History

namespace DataPipeline

/-- What has been put at the end of a file, and at which path. -/
def Event.appended? : Event → Option (String × String)
  | ⟨_, .append path text, .ok _⟩ => some (path, text)
  | _ => none

/-- The path at which a file has been opened. -/
def Event.opened? : Event → Option String
  | ⟨_, .openFile path, .ok _⟩ => some path
  | _ => none

/-- The texts that have been put at the end of the file at a place. -/
def appendedAt (l : Location) (es : List Event) : List String :=
  ((es.filterMap Event.appended?).filter (FilePath.place ·.1 = l)).map (·.2)

/-- The file at a place has been opened. -/
def openedAt (l : Location) (es : List Event) : Prop :=
  ∃ path ∈ es.filterMap Event.opened?, FilePath.place path = l

theorem appendedAt_cons (l : Location) (e : Event) (es : List Event) :
    appendedAt l (e :: es) = appendedAt l [e] ++ appendedAt l es := by
  rw [appendedAt, ← List.singleton_append, List.filterMap_append, List.filter_append,
    List.map_append]
  rfl

theorem openedAt_cons (l : Location) (e : Event) (es : List Event) :
    openedAt l (e :: es) ↔ openedAt l [e] ∨ openedAt l es := by
  simp only [openedAt, List.mem_filterMap, List.mem_cons, List.not_mem_nil, or_false]
  grind

namespace Disk

variable {d d' d'' : Disk} {l : Location} {opened opened' : Prop} {texts texts' : List String}
  {path text : String} {b : ByteArray}

/-- The file at a place has had texts put at its end. It is there if it was there before, it was
opened or there is any text. -/
structure Extends (l : Location) (opened : Prop) (texts : List String)
    (d d' : Disk) : Prop where
  content : d'.content l = d.content l ++ (String.join texts).toUTF8
  present : (∃ b, d'.get? l = some (.file b)) ↔
    (∃ b, d.get? l = some (.file b)) ∨ opened ∨ texts ≠ []

theorem content_of_file (h : d.get? l = some (.file b)) : d.content l = b := by rw [content, h]

theorem content_of_no_file (h : ¬∃ b, d.get? l = some (.file b)) : d.content l = .empty := by
  rw [content]
  split
  next b hb => exact absurd ⟨b, hb⟩ h
  · rfl
  · rfl

theorem Extends.refl (l : Location) (d : Disk) : Extends l False [] d d where
  content := ByteArray.append_empty.symm
  present := by simp

theorem Extends.trans (h : Extends l opened texts d d') (h' : Extends l opened' texts' d' d'') :
    Extends l (opened ∨ opened') (texts ++ texts') d d'' where
  content := by
    rw [h'.content, h.content, ByteArray.append_assoc, String.join_append]
    rfl
  present := by
    rw [h'.present, h.present]
    simp only [ne_eq, List.append_eq_nil_iff]
    tauto

theorem Extends.congr (h : Extends l opened texts d d') (ho : opened ↔ opened')
    (ht : texts = texts') :
    Extends l opened' texts' d d' := by
  rw [← ht]
  exact ⟨h.content, by rw [h.present, ho]⟩

theorem extends_of_raises {P : Location → Prop} (h : Raises P d d') (l : Location) :
    Extends l False [] d d' where
  content := (h.content l).trans ByteArray.append_empty.symm
  present := by
    rcases h l with heq | ⟨hnone, hmade, _⟩
    · simp [heq]
    · simp [hnone, hmade]

theorem extends_append (h : d.append path text = .ok d') (l : Location) :
    Extends l False (if FilePath.place path = l then [text] else []) d d' := by
  have hget := get?_append h l
  split
  next hplace =>
    rw [if_pos hplace] at hget
    exact ⟨(content_of_file hget).trans (by simp), by simp [hget]⟩
  next hplace =>
    rw [if_neg hplace] at hget
    exact ⟨(content_of_get? hget).trans ByteArray.append_empty.symm, by simp [hget]⟩

theorem extends_open (h : d.append path "" = .ok d') (l : Location) :
    Extends l (FilePath.place path = l) [] d d' := by
  have hextends := extends_append h l
  constructor
  · rw [hextends.content]
    split <;> rfl
  · rw [hextends.present]
    split
    next hplace => simp [hplace]
    next hplace => simp [hplace]

theorem Extends.file_iff (h : Extends l opened [] d d') (b : ByteArray) :
    d'.get? l = some (.file b) ↔
    d.get? l = some (.file b) ∨ (¬∃ b', d.get? l = some (.file b')) ∧ opened ∧ b = .empty := by
  have hcontent : d'.content l = d.content l := h.content.trans ByteArray.append_empty
  have hpresent := h.present
  simp only [ne_eq, not_true_eq_false, or_false] at hpresent
  constructor
  · intro hb
    rw [content_of_file hb] at hcontent
    by_cases hfile : ∃ b', d.get? l = some (.file b')
    · obtain ⟨b', hb'⟩ := hfile
      rw [content_of_file hb'] at hcontent
      exact .inl (hcontent ▸ hb')
    · rw [content_of_no_file hfile] at hcontent
      exact .inr ⟨hfile, (hpresent.1 ⟨b, hb⟩).resolve_left hfile, hcontent⟩
  · rintro (hb | ⟨hfile, hopened, rfl⟩)
    · obtain ⟨b', hb'⟩ := hpresent.2 (.inl ⟨b, hb⟩)
      rw [hb', ← content_of_file hb, ← content_of_file hb', hcontent]
    · obtain ⟨b', hb'⟩ := hpresent.2 (.inr hopened)
      rw [hb', ← content_of_file hb', hcontent, content_of_no_file hfile]

theorem Extends.written (h : Extends l opened texts d d') (htexts : texts ≠ []) :
    d'.get? l = some (.file (d.content l ++ (String.join texts).toUTF8)) := by
  obtain ⟨b, hb⟩ := h.present.2 (.inr (.inr htexts))
  rw [hb, ← content_of_file hb, h.content]

end Disk

theorem extends_of_none {e : Event} {d d' : Disk} {l : Location} (hopened : e.opened? = none)
    (happended : e.appended? = none) (h : d.Extends l False [] d') :
    d.Extends l (openedAt l [e]) (appendedAt l [e]) d' := by
  apply h.congr
  · simp [openedAt, hopened]
  · simp [appendedAt, happended]

/-- An action puts at the end of a file just what it is told to, if that succeeds. -/
theorem extends_perform (w : World) (op : Op) (l : Location) :
    w.disk.Extends l (openedAt l [⟨w.now, op, (w.perform op).1⟩])
      (appendedAt l [⟨w.now, op, (w.perform op).1⟩]) (w.perform op).2.disk := by
  cases op with
  | offer | print | note | count => exact extends_of_none rfl rfl (.refl l _)
  | makeDirectories path =>
    exact extends_of_none rfl rfl (Disk.extends_of_raises Disk.raises_makeAll l)
  | openFile path =>
    rw [World.perform]
    cases hopen : w.disk.append path "" with
    | error e =>
      rw [World.append_error hopen]
      exact extends_of_none rfl rfl (.refl l _)
    | ok d =>
      rw [World.append_ok hopen]
      apply (Disk.extends_open hopen l).congr
      · simp [openedAt, Event.opened?]
      · rfl
  | append path text =>
    rw [World.perform]
    cases happend : w.disk.append path text with
    | error e =>
      rw [World.append_error happend]
      exact extends_of_none rfl rfl (.refl l _)
    | ok d =>
      rw [World.append_ok happend]
      apply (Disk.extends_append happend l).congr
      · simp [openedAt, Event.opened?]
      · by_cases hplace : FilePath.place path = l <;> simp [appendedAt, Event.appended?, hplace]

theorem extends_run {α : Type} {p : Activity α} {w w' : World} {a : α}
    (hrun : p.run w = some (a, w')) (l : Location) :
    w.disk.Extends l (openedAt l (p.history w)) (appendedAt l (p.history w)) w'.disk := by
  induction p generalizing w with
  | done a =>
    cases hrun
    apply (Disk.Extends.refl l _).congr
    · simp [openedAt, Activity.history]
    · rfl
  | act op next ih =>
    apply ((extends_perform w op l).trans (ih _ hrun)).congr
    · exact (openedAt_cons ..).symm
    · exact (appendedAt_cons ..).symm
  | sleep ms next ih => exact @ih { w with now := w.now + ms } hrun
  | stall => cases hrun

end DataPipeline

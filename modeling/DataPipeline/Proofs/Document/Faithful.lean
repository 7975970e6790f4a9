import DataPipeline.Proofs.Document.Proper
import DataPipeline.Proofs.Json.Numeral

namespace DataPipeline.Document

/-- Read as a free-form value, the scalar is null only if it stands for nothing. -/
def Scalar.Faithful (s : Scalar) : Prop :=
  ∀ (r : Reading) (span : Span), r.scalarJson s span = .ok .null → s.absent = .ok true

/-- No scalar in the document is read as null unless it stands for nothing. -/
inductive Doc.Faithful : Doc → Prop
  | scalar {s : Scalar} {span : Span} (faithful : s.Faithful) : Faithful (.scalar s span)
  | sequence {items : List Doc} {ending : Ending} {custom : Bool} {span : Span}
    (items_faithful : ∀ d ∈ items, d.Faithful) : Faithful (.sequence items ending custom span)
  | mapping {entries : List Entry} {ending : Ending} {custom : Bool} {span : Span}
    (values_faithful : ∀ {key place value}, .mk key place value ∈ entries → Faithful value) :
    Faithful (.mapping entries ending custom span)
  | broken {read skipped : Located} {inside : Mark} : Faithful (.broken read skipped inside)

theorem Doc.Faithful.hereditary : Hereditary Doc.Faithful where
  items
    | .sequence hitems => hitems
  values
    | .mapping hvalues => hvalues
  target := nofun

section Read

variable {r : Reading} {d : Doc} {v : Json}

theorem readJsonWithin_scalar {depth : Nat} {s : Scalar} {span : Span}
    (h : Reading.readJsonWithin depth r (.scalar s span) = .ok v) :
    r.scalarJson s span = .ok v := by
  rw [Reading.readJsonWithin] at h
  dsimp only [Reading.target] at h
  split at h
  · cases h
  · exact h

theorem readJsonWithin_sequence {depth : Nat} {items : List Doc} {ending : Ending}
    {custom : Bool} {span : Span}
    (h : Reading.readJsonWithin depth r (.sequence items ending custom span) = .ok v) :
    ∃ vs, v = .array vs := by
  cases depth with
  | zero =>
    rw [Reading.readJsonWithin] at h
    dsimp only [Reading.target] at h
    split at h <;> cases h
  | succ depth =>
    rw [Reading.readJsonWithin] at h
    dsimp only [Reading.target] at h
    split at h
    · cases h
    · obtain ⟨vs, _, h⟩ := except_bind_ok.1 h
      obtain ⟨_, _, h⟩ := except_bind_ok.1 h
      cases h
      exact ⟨vs, rfl⟩

theorem readJsonWithin_mapping {depth : Nat} {entries : List Entry} {ending : Ending}
    {custom : Bool} {span : Span}
    (h : Reading.readJsonWithin depth r (.mapping entries ending custom span) = .ok v) :
    ∃ fields, v = .object fields := by
  cases depth with
  | zero =>
    rw [Reading.readJsonWithin] at h
    dsimp only [Reading.target] at h
    split at h <;> cases h
  | succ depth =>
    rw [Reading.readJsonWithin] at h
    dsimp only [Reading.target] at h
    split at h
    · cases h
    · obtain ⟨fields, _, h⟩ := except_bind_ok.1 h
      obtain ⟨_, _, h⟩ := except_bind_ok.1 h
      cases h
      exact ⟨fields, rfl⟩

theorem readJsonWithin_null {depth : Nat} (hd : d.Faithful)
    (h : Reading.readJsonWithin depth r d = .ok .null) : ∃ s span, d = .scalar s span := by
  cases hd with
  | scalar => exact ⟨_, _, rfl⟩
  | sequence =>
    obtain ⟨vs, heq⟩ := readJsonWithin_sequence h
    cases heq
  | mapping =>
    obtain ⟨fields, heq⟩ := readJsonWithin_mapping h
    cases heq
  | broken =>
    cases depth <;> rw [Reading.readJsonWithin] at h <;> cases h

theorem readOption_ne_null (hd : d.Faithful)
    (h : Reading.readOption Reading.readJson r d = .ok (some v)) : v ≠ .null := by
  rintro rfl
  have hfaithful := hd
  cases hd with
  | @scalar s span hs =>
    obtain ⟨absent, habsent, h⟩ := except_bind_ok.1 h
    cases absent with
    | true => cases h
    | false =>
      have hnull := hs _ _ (readJsonWithin_scalar (some_map_ok h))
      unfold Reading.isAbsent at habsent
      rw [hnull] at habsent
      cases habsent
  | _ =>
    obtain ⟨_, _, heq⟩ := readJsonWithin_null hfaithful (some_map_ok h)
    cases heq

end Read

/-- What a scalar of a JSON text or of a value can hold. -/
def Found.Finite : Found → Prop
  | .double x _ => x.isFinite = true
  | .unit => False
  | _ => True

theorem Doc.faithful_typed (found : Found) (span : Span) (hfound : found.Finite) :
    (Doc.scalar (.typed found) span).Faithful := by
  apply Doc.Faithful.scalar
  intro r span h
  cases found with
  | null => rfl
  | unit => cases hfound
  | int n =>
    change (if Number.fits n then Except.ok (Json.number (.int n))
      else r.fail .numberTooWide span.place) = _ at h
    split at h <;> cases h
  | double x text =>
    change Except.ok (if x.isFinite then Json.number (.double x) else .null) = _ at h
    have hfinite : x.isFinite = true := hfound
    rw [if_pos hfinite] at h
    cases h
  | _ => cases h

theorem Doc.faithful_unreadable (fault : Located) (span : Span) :
    (Doc.scalar (.unreadable fault) span).Faithful := .scalar nofun

section Values

mutual

theorem Doc.faithful_ofJson : ∀ {v : Json}, v.proper = true → (Doc.ofJson v).Faithful
  | .null, _ => Doc.faithful_typed .null _ trivial
  | .bool b, _ => Doc.faithful_typed (.bool b) _ trivial
  | .string s, _ => Doc.faithful_typed (.string s) _ trivial
  | .number (.int n), _ => Doc.faithful_typed (.int n) _ trivial
  | .number (.double x), h => Doc.faithful_typed (.double x _) _ h
  | .array _, h => .sequence (Doc.faithful_ofItems h)
  | .object _, h => .mapping (Doc.faithful_ofFields (Json.proper_object.1 h).2)

theorem Doc.faithful_ofItems : ∀ {items : List Json}, Json.properItems items = true →
    ∀ d ∈ Doc.ofItems items, d.Faithful
  | [], _ => nofun
  | _ :: _, h => by
    obtain ⟨hv, hrest⟩ := Bool.and_eq_true_iff.1 h
    rw [Doc.ofItems, List.forall_mem_cons]
    exact ⟨Doc.faithful_ofJson hv, Doc.faithful_ofItems hrest⟩

theorem Doc.faithful_ofFields :
    ∀ {fields : List (String × Json)}, Json.properFields fields = true →
    ∀ {key place value}, .mk key place value ∈ Doc.ofFields fields → value.Faithful
  | [], _ => nofun
  | _ :: _, h => by
    obtain ⟨hv, hrest⟩ := Bool.and_eq_true_iff.1 h
    intro hmem
    rcases List.mem_cons.1 hmem with heq | hmem
    · cases heq
      exact Doc.faithful_ofJson hv
    · exact Doc.faithful_ofFields hrest hmem

end

end Values

namespace JsonText

theorem faithful_stringDoc (start c : Cursor) : (stringDoc start c).1.Faithful := by
  unfold stringDoc
  dsimp only
  split
  · exact Doc.faithful_typed (.string _) _ trivial
  · split
    · exact Doc.faithful_unreadable _ _
    · exact .broken

theorem faithful_numberDoc (c : Cursor) : (numberDoc c).1.Faithful := by
  unfold numberDoc
  split
  · exact .broken
  · dsimp only
    split
    · exact Doc.faithful_typed (.int _) _ trivial
    next hvalue =>
      exact Doc.faithful_typed (.double _ _) _ (Json.Numeral.isFinite_of_value hvalue)
    · exact Doc.faithful_unreadable _ _

theorem faithful_wordDoc (letters : List Char) (found : Found) (c : Cursor)
    (hfound : found.Finite) :
    (wordDoc letters found c).1.Faithful := by
  unfold wordDoc
  split
  · exact Doc.faithful_typed found _ hfound
  · exact .broken

theorem faithful_colon {c : Cursor} {broken : Doc × Option Cursor}
    (h : colon c = .error broken) :
    broken.1.Faithful := by
  unfold colon at h
  split at h
  · cases h
    exact .broken
  · cases h
  · cases h
    exact .broken

/-- What is read with some fuel is faithful. -/
structure Faithful (fuel : Nat) : Prop where
  value : ∀ c, (value fuel c).1.Faithful
  items : ∀ first c, ∀ d ∈ (items fuel first c).1, d.Faithful
  itemsFrom : ∀ c, ∀ d ∈ (itemsFrom fuel c).1, d.Faithful
  entries : ∀ first c {key place value}, .mk key place value ∈ (entries fuel first c).1 →
    value.Faithful
  entriesFrom : ∀ c {key place value}, .mk key place value ∈ (entriesFrom fuel c).1 →
    value.Faithful

variable {fuel : Nat}

theorem Faithful.value_succ (h : Faithful fuel) (c : Cursor) :
    (JsonText.value (fuel + 1) c).1.Faithful := by
  unfold JsonText.value
  dsimp only
  split
  · exact .broken
  · exact faithful_wordDoc _ .null _ trivial
  · exact faithful_wordDoc _ (.bool true) _ trivial
  · exact faithful_wordDoc _ (.bool false) _ trivial
  · exact faithful_stringDoc _ _
  · exact .sequence (h.items _ _)
  · exact .mapping (h.entries _ _)
  · split
    · exact faithful_numberDoc _
    · exact .broken

theorem Faithful.items_succ (h : Faithful fuel) (first : Bool) (c : Cursor) :
    ∀ d ∈ (JsonText.items (fuel + 1) first c).1, d.Faithful := by
  unfold JsonText.items
  dsimp only
  split
  · nofun
  · nofun
  · split
    · exact h.itemsFrom _
    · split
      · split
        · nofun
        · nofun
        · exact h.itemsFrom _
      · nofun

theorem Faithful.itemsFrom_succ (h : Faithful fuel) (c : Cursor) :
    ∀ d ∈ (JsonText.itemsFrom (fuel + 1) c).1, d.Faithful := by
  have hvalue := h.value c
  unfold JsonText.itemsFrom
  split
  next heq =>
    rw [heq] at hvalue
    exact List.forall_mem_singleton.2 hvalue
  next heq =>
    rw [heq] at hvalue
    exact List.forall_mem_cons.2 ⟨hvalue, h.items _ _⟩

theorem Faithful.entries_succ (h : Faithful fuel) (first : Bool) (c : Cursor) {key : Doc}
    {place : Mark} {value : Doc} :
    .mk key place value ∈ (JsonText.entries (fuel + 1) first c).1 → value.Faithful := by
  unfold JsonText.entries
  dsimp only
  split
  · nofun
  · nofun
  · split
    · split
      · exact h.entriesFrom _
      · nofun
    · split
      · split
        · nofun
        · exact h.entriesFrom _
        · nofun
        · nofun
      · nofun

theorem Faithful.of_colon (h : Faithful fuel) {c : Cursor} {found : Doc × Option Cursor}
    (hbroken : ∀ broken, colon c = .error broken → broken = found)
    (hvalue : ∀ after, colon c = .ok after → JsonText.value fuel after = found) :
    found.1.Faithful := by
  cases hcolon : colon c with
  | error broken =>
    rw [← hbroken broken hcolon]
    exact faithful_colon hcolon
  | ok after =>
    rw [← hvalue after hcolon]
    exact h.value after

theorem Faithful.entriesFrom_succ (h : Faithful fuel) (c : Cursor) {key : Doc} {place : Mark}
    {value : Doc} :
    .mk key place value ∈ (JsonText.entriesFrom (fuel + 1) c).1 → value.Faithful := by
  have hkey := faithful_stringDoc c c.next
  unfold JsonText.entriesFrom
  split
  next heq =>
    rw [heq] at hkey
    intro hmem
    cases List.mem_singleton.1 hmem
    exact hkey
  next mid heq =>
    dsimp only
    split
    next hfound =>
      have hvalue := h.of_colon (fun broken hcolon => by rwa [hcolon] at hfound)
        (fun after hcolon => by rwa [hcolon] at hfound)
      intro hmem
      cases List.mem_singleton.1 hmem
      exact hvalue
    next hfound =>
      have hvalue := h.of_colon (fun broken hcolon => by rwa [hcolon] at hfound)
        (fun after hcolon => by rwa [hcolon] at hfound)
      intro hmem
      rcases List.mem_cons.1 hmem with heq | hmem
      · cases heq
        exact hvalue
      · exact h.entries _ _ hmem

theorem faithful (fuel : Nat) : Faithful fuel := by
  induction fuel with
  | zero => exact ⟨fun _ => .broken, fun _ _ => nofun, fun _ => nofun, fun _ _ => nofun,
      fun _ => nofun⟩
  | succ fuel ih =>
    exact ⟨ih.value_succ, ih.items_succ, ih.itemsFrom_succ, ih.entries_succ,
      ih.entriesFrom_succ⟩

end JsonText

theorem Doc.faithful_ofJsonText (text : String) : (Doc.ofJsonText text).1.Faithful := by
  have hvalue := (JsonText.faithful (3 * text.toList.length + 3)).value ⟨text.toList, ⟨1, 0⟩⟩
  unfold Doc.ofJsonText
  dsimp only
  split
  next heq =>
    rw [heq] at hvalue
    exact hvalue
  next heq =>
    rw [heq] at hvalue
    split <;> exact hvalue

end DataPipeline.Document

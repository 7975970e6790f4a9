import DataPipeline.Outcome.Codec
import DataPipeline.Proofs.Document.JsonText
import DataPipeline.Proofs.Outcome.Leaves

namespace DataPipeline

namespace Document

variable {α β : Type} {r : Reading}

/-- Reading makes `a` of a document if `fits` holds; else containers nest too deep. -/
def Yields (x : Read α) (a : α) (fits : Prop) : Prop :=
  fits ∧ x = .ok a ∨ ¬fits ∧ ∃ f, x = .error f ∧ f.fault = .tooDeep

namespace Yields

variable {x : Read α} {f : α → Read β} {a : α} {b : β} {p q : Prop}

theorem of_eq (h : x = .ok a) : Yields x a True := .inl ⟨trivial, h⟩

theorem congr (h : Yields x a p) (hpq : p ↔ q) : Yields x a q := by
  rwa [← propext hpq]

theorem bind (hx : Yields x a p) (hf : Yields (f a) b q) : Yields (x >>= f) b (p ∧ q) := by
  rcases hx with ⟨hp, rfl⟩ | ⟨hp, failure, rfl, hdeep⟩
  · rcases hf with ⟨hq, hf⟩ | ⟨hq, failure, hf, hdeep⟩
    · exact .inl ⟨⟨hp, hq⟩, hf⟩
    · exact .inr ⟨fun h => hq h.2, failure, hf, hdeep⟩
  · exact .inr ⟨fun h => hp h.1, failure, rfl, hdeep⟩

theorem then_ok (hx : Yields x a p) (hf : f a = .ok b) : Yields (x >>= f) b p :=
  (hx.bind (of_eq hf)).congr (and_iff_left trivial)

theorem eq_ok_iff (h : Yields x a p) : x = .ok a ↔ p := by
  rcases h with ⟨hp, h⟩ | ⟨hp, failure, h, _⟩
  · exact iff_of_true h hp
  · exact iff_of_false (by simp [h]) hp

end Yields

theorem yields_enter (r : Reading) (span : Span) :
    Yields (r.enter span) { r with depth := r.depth - 1, home := span.place }
      (1 ≤ r.depth) := by
  obtain ⟨format, anchors, _ | depth, trail, home⟩ := r
  · exact .inr ⟨by simp, _, rfl, rfl⟩
  · exact .inl ⟨by simp, rfl⟩

theorem yields_readItems {read : Reading → Doc → Read α} {encode : α → Json} {as : List α}
    (h : ∀ a ∈ as, ∀ (r' : Reading) (d : Doc), r'.depth = r.depth → Holds d (encode a) →
      Yields (read r' d) a ((encode a).depth ≤ r'.depth))
    {ds : List Doc} (hds : HoldsItems ds (as.map encode)) (n : Nat) :
    Yields (Reading.readItems read r n ds) as (Json.depthItems (as.map encode) ≤ r.depth) := by
  induction as generalizing ds n with
  | nil =>
    cases hds
    exact (Yields.of_eq rfl).congr (iff_of_true trivial (Nat.zero_le _))
  | cons a as ih =>
    rw [List.map_cons] at hds
    cases hds with
    | cons hd hds =>
      have hitem := h a List.mem_cons_self (r.step (.index n)) _ rfl hd
      have hitems := ih (fun a ha => h a (List.mem_cons_of_mem _ ha)) hds (n + 1)
      apply Yields.congr
      · apply Yields.bind hitem
        apply hitems.then_ok
        rfl
      · rw [List.map_cons, Json.depthItems, Nat.max_le]
        rfl

theorem yields_readList {read : Reading → Doc → Read α} {encode : α → Json}
    {as : List α} {d : Doc}
    (h : ∀ a ∈ as, ∀ (r' : Reading) (d : Doc), r'.depth = r.depth - 1 → Holds d (encode a) →
      Yields (read r' d) a ((encode a).depth ≤ r'.depth))
    (hd : Holds d (.array (as.map encode))) :
    Yields (r.readList read d) as ((Json.array (as.map encode)).depth ≤ r.depth) := by
  cases hd with
  | array span hds =>
    have hitems :=
      yields_readItems (r := { r with depth := r.depth - 1, home := span.place }) h hds 0
    apply Yields.congr
    · apply Yields.bind (yields_enter r span)
      apply hitems.then_ok
      rfl
    change 1 ≤ r.depth ∧ Json.depthItems (as.map encode) ≤ r.depth - 1 ↔
      Json.depthItems (as.map encode) + 1 ≤ r.depth
    omega

theorem yields_readText (r : Reading) (expected s : String) {d : Doc}
    (hd : Holds d (.string s)) :
    Yields (Reading.readText expected r d) s ((Json.string s).depth ≤ r.depth) := by
  cases hd
  exact (Yields.of_eq rfl).congr (iff_of_true trivial (Nat.zero_le _))

theorem yields_readBool (r : Reading) {b : Bool} {d : Doc} (hd : Holds d (.bool b)) :
    Yields (r.readBool d) b ((Json.bool b).depth ≤ r.depth) := by
  cases hd
  exact (Yields.of_eq rfl).congr (iff_of_true trivial (Nat.zero_le _))

namespace Shape

/-- Fields that are read into a value one after another, `depth` containers being left to
each. -/
inductive Reads (shape : Shape α) (depth : Nat) :
    α → List String → List (String × Json) → α → List String → Prop where
  | nil (a : α) (seen : List String) : Reads shape depth a seen [] a seen
  | cons {a b : α} (a' : α) {seen seen' : List String} {key : String} {v : Json}
    {fields : List (String × Json)}
    (hkey : key ∈ shape.fields) (hseen : key ∉ seen)
    (hput : ∀ (r : Reading) (d : Doc), r.depth = depth → Holds d v →
      Yields (shape.put a key r d) a' (v.depth ≤ depth))
    (rest : Reads shape depth a' (key :: seen) fields b seen') :
    Reads shape depth a seen ((key, v) :: fields) b seen'

variable {shape : Shape α} {a b : α} {seen seen' : List String} {fields : List (String × Json)}

theorem Reads.field {read : Reading → Doc → Read β} {value : β} {f : β → α} {depth : Nat}
    {key : String} {v : Json} (hkey : key ∈ shape.fields) (hseen : key ∉ seen)
    (hput : ∀ (r : Reading) (d : Doc), shape.put a key r d =
      read r d >>= fun value => .ok (f value))
    (hread : ∀ (r : Reading) (d : Doc), r.depth = depth → Holds d v →
      Yields (read r d) value (v.depth ≤ r.depth))
    (rest : Reads shape depth (f value) (key :: seen) fields b seen') :
    Reads shape depth a seen ((key, v) :: fields) b seen' := by
  apply Reads.cons (f value) hkey hseen _ rest
  intro r d hr hd
  rw [hput, ← hr]
  apply (hread r d hr hd).then_ok
  rfl

theorem Reads.yields (h : Reads shape r.depth a seen fields b seen') {es : List Entry}
    (hes : HoldsFields es fields) :
    Yields (shape.readEntries r a seen es) (b, seen') (Json.depthFields fields ≤ r.depth) := by
  induction h generalizing es with
  | nil =>
    cases hes
    exact (Yields.of_eq rfl).congr (iff_of_true trivial (Nat.zero_le _))
  | @cons a b a' seen seen' key v fields hkey hseen hput rest ih =>
    cases hes with
    | @cons d _ es _ _ span place hd hes =>
      have hstep :
          shape.readEntries r a seen (.mk (.scalar (.typed (.string key)) span) place d :: es) =
          shape.put a key (r.step (.key key)) d >>=
            fun a => shape.readEntries r a (key :: seen) es := by
        change (if key ∈ shape.fields then _ else _) = _
        rw [if_pos hkey, if_neg hseen]
        rfl
      rw [hstep]
      rw [Json.depthFields, Nat.max_le]
      apply Yields.bind (hput (r.step (.key key)) d rfl hd)
      exact ih hes

theorem Reads.yields_read (h : Reads shape (r.depth - 1) shape.start [] fields a seen)
    (hmissing : shape.missing? seen = none) {d : Doc} (hd : Holds d (.object fields)) :
    Yields (shape.read r d) a ((Json.object fields).depth ≤ r.depth) := by
  cases hd with
  | object span hes =>
    have hentries :=
      Reads.yields (r := { r with depth := r.depth - 1, home := span.place }) h hes
    apply Yields.congr
    · apply Yields.bind (yields_enter r span)
      apply hentries.then_ok
      simp only [hmissing]
      rfl
    change 1 ≤ r.depth ∧ Json.depthFields fields ≤ r.depth - 1 ↔
      Json.depthFields fields + 1 ≤ r.depth
    omega

end Shape

end Document

open Document

variable {r : Reading}

theorem ComponentKind.yields_read (r : Reading) (kind : ComponentKind) {d : Doc}
    (hd : Holds d (.string kind.name)) :
    Yields (ComponentKind.read r d) kind ((Json.string kind.name).depth ≤ r.depth) := by
  cases hd with
  | string _ span =>
    apply (Yields.of_eq _).congr (iff_of_true trivial (Nat.zero_le _))
    change ComponentKind.ofVariant r kind.name span.stop = .ok kind
    rw [ComponentKind.ofVariant, ComponentKind.ofName?_name]

theorem Descriptor.yields_read (x : Descriptor) {d : Doc} (hd : Holds d x.toJson) :
    Yields (Descriptor.shape.read r d) x (x.toJson.depth ≤ r.depth) := by
  have hreads : Descriptor.shape.Reads (r.depth - 1) Descriptor.shape.start []
      [("kind", .string x.kind.name), ("name", .string x.name)] x ["name", "kind"] := by
    apply Shape.Reads.field (by decide) (by decide) (fun r d => rfl)
    · intro r d _ hd
      exact ComponentKind.yields_read r x.kind hd
    apply Shape.Reads.field (by decide) (by decide) (fun r d => rfl)
    · intro r d _ hd
      exact yields_readText r "a string" x.name hd
    exact .nil _ _
  exact hreads.yields_read rfl hd

namespace Outcome

theorem toJsonList_eq (os : List Outcome) : toJsonList os = os.map toJson := by
  induction os with
  | nil => rfl
  | cons o os ih => rw [toJsonList, ih, List.map_cons]

theorem yields_readTexts (r : Reading) (texts : List String) {d : Doc}
    (hd : Holds d (.array (texts.map .string))) :
    Yields (r.readList (Reading.readText "a string") d) texts
      ((Json.array (texts.map .string)).depth ≤ r.depth) :=
  yields_readList (fun s _ r _ _ hd => yields_readText r "a string" s hd) hd

theorem one_le_depth_toJson (o : Outcome) : 1 ≤ o.toJson.depth := by
  obtain ⟨stage, validation, execution, pending, children, errors⟩ := o
  exact Nat.succ_le_succ (Nat.zero_le _)

/-- An outcome is read back if the containers of its text nest no deeper than the reader may
go. -/
theorem yields_readWithin (o : Outcome) {n : Nat} {r : Reading} {d : Doc} (hn : r.depth ≤ n)
    (hd : Holds d o.toJson) : Yields (readWithin n r d) o (o.toJson.depth ≤ r.depth) := by
  induction o using induction generalizing n r d with
  | outcome o ih =>
    cases n with
    | zero =>
      have hdepth := o.one_le_depth_toJson
      exact .inr ⟨by omega, _, rfl, rfl⟩
    | succ n =>
      obtain ⟨stage, validation, execution, pending, children, errors⟩ := o
      rw [toJson, toJsonList_eq] at hd ⊢
      -- The first five fields are always there.
      have hstart : ∀ {fields o seen}, (shape (readWithin n)).Reads (r.depth - 1)
          ⟨stage, validation, execution, pending, children, []⟩
            ["children", "pendingValidators",
            "isExecutionSuccess", "isValidationSuccess", "stage"] fields o seen →
          (shape (readWithin n)).Reads (r.depth - 1) (shape (readWithin n)).start []
            ([("stage", stage.toJson), ("isValidationSuccess", .bool validation),
              ("isExecutionSuccess", .bool execution),
              ("pendingValidators", .array (pending.map .string)),
              ("children", .array (children.map toJson))] ++ fields) o seen := by
        intro fields o seen hfields
        apply Shape.Reads.field (by simp [shape]) (by decide) (fun r d => rfl)
        · intro r d _ hd
          exact stage.yields_read hd
        apply Shape.Reads.field (by simp [shape]) (by decide) (fun r d => rfl)
        · intro r d _ hd
          exact yields_readBool r hd
        apply Shape.Reads.field (by simp [shape]) (by decide) (fun r d => rfl)
        · intro r d _ hd
          exact yields_readBool r hd
        apply Shape.Reads.field (by simp [shape]) (by decide) (fun r d => rfl)
        · intro r d _ hd
          exact yields_readTexts r pending hd
        apply Shape.Reads.field (by simp [shape]) (by decide) (fun r d => rfl)
        · intro r' d hr' hd
          apply yields_readList _ hd
          intro c hc r'' d hr'' hd
          exact ih c hc (by omega) hd
        exact hfields
      cases errors with
      | nil => exact (hstart (.nil _ _)).yields_read rfl hd
      | cons error errors =>
        have herrors : (shape (readWithin n)).Reads (r.depth - 1)
            ⟨stage, validation, execution, pending, children, []⟩
              ["children", "pendingValidators",
              "isExecutionSuccess", "isValidationSuccess", "stage"]
            [("errors", .array ((error :: errors).map .string))]
            ⟨stage, validation, execution, pending, children, error :: errors⟩
              ["errors", "children",
              "pendingValidators", "isExecutionSuccess", "isValidationSuccess", "stage"] := by
          apply Shape.Reads.field (by simp [shape]) (by decide) (fun r d => rfl)
          · intro r d _ hd
            exact yields_readTexts r (error :: errors) hd
          exact .nil _ _
        exact (hstart herrors).yields_read rfl hd

theorem numberless_toJson (o : Outcome) : Json.numberless o.toJson = true := by
  have htexts (texts : List String) : Json.numberlessItems (texts.map .string) = true :=
    Json.numberlessItems_map fun _ _ => rfl
  induction o using induction with
  | outcome o ih =>
    obtain ⟨stage, validation, execution, pending, children, errors⟩ := o
    have hchildren := Json.numberlessItems_map ih
    rw [toJson, toJsonList_eq]
    cases errors <;> simp [Json.numberless, Json.numberlessFields, Json.numberlessItems,
      Descriptor.toJson, htexts, hchildren]

theorem yields_readJsonText (o : Outcome) :
    Yields (readJsonText read o.toJson.pretty) o (o.toJson.depth ≤ 127) := by
  obtain ⟨d, htext, hd⟩ := ofJsonText_pretty o.numberless_toJson
  rw [readJsonText, htext]
  apply Yields.then_ok (x := read _ d)
  · exact yields_readWithin o (Nat.le_succ _) hd
  · rfl

end Outcome

end DataPipeline

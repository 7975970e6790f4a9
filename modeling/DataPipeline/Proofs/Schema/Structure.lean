import DataPipeline.Schema.Spec

namespace DataPipeline

theorem except_bind_ok {α β ε : Type} {x : Except ε α} {f : α → Except ε β} {b : β} :
    (x >>= f) = .ok b ↔ ∃ a, x = .ok a ∧ f a = .ok b := by
  cases x with
  | error e => simp [bind, Except.bind]
  | ok a => simp [bind, Except.bind]

theorem except_bind_error {α β ε : Type} {x : Except ε α} {f : α → Except ε β} {e : ε} :
    (x >>= f) = .error e ↔ x = .error e ∨ ∃ a, x = .ok a ∧ f a = .error e := by
  cases x with
  | error e => simp [bind, Except.bind]
  | ok a => simp [bind, Except.bind]

theorem mapError_ok {α ε ε' : Type} {x : Except ε α} {f : ε → ε'} {a : α} :
    x.mapError f = .ok a ↔ x = .ok a := by
  cases x with
  | error e => constructor <;> intro h <;> cases h
  | ok b => constructor <;> intro h <;> cases h <;> rfl

theorem mapError_error {α ε ε' : Type} {x : Except ε α} {f : ε → ε'} {e : ε'} :
    x.mapError f = .error e ↔ ∃ e', x = .error e' ∧ f e' = e := by
  cases x with
  | error e' =>
    constructor
    · intro h
      cases h
      exact ⟨e', rfl, rfl⟩
    · rintro ⟨_, h, rfl⟩
      cases h
      rfl
  | ok b =>
    constructor
    · intro h
      cases h
    · rintro ⟨_, h, _⟩
      cases h

theorem toOption_bind {α β ε : Type} {x : Except ε α} {f : α → Except ε β} :
    (x >>= f).toOption = x.toOption.bind fun a => (f a).toOption := by
  cases x <;> rfl

theorem toOption_mapError {α ε ε' : Type} {x : Except ε α} {f : ε → ε'} :
    (x.mapError f).toOption = x.toOption := by
  cases x <;> rfl

theorem toOption_eq_some {α ε : Type} {x : Except ε α} {a : α} :
    x.toOption = some a ↔ x = .ok a := by
  cases x <;> simp [Except.toOption]

namespace Schema

variable {s : Schema} {path : String}

/-- Induction over a schema, with a hypothesis for each node of its library, for each of its
children and for its child. -/
@[elab_as_elim]
theorem induction {motive : Schema → Prop}
    (node : ∀ s : Schema, (∀ entry ∈ s.library, motive entry) → (∀ c ∈ s.children, motive c) →
      (∀ c, s.child = some c → motive c) → motive s) (s : Schema) : motive s := by
  refine @Schema.rec motive (fun l => ∀ s ∈ l, motive s) (fun o => ∀ s, o = some s → motive s)
    ?_ ?_ ?_ ?_ ?_ s
  · intro _ _ _ _ _ _ _ _ _ ihl ihc ihw
    exact node _ ihl ihc ihw
  · intro s hs
    cases hs
  · intro a l iha ihl s hs
    rcases List.mem_cons.1 hs with rfl | hs
    · exact iha
    · exact ihl s hs
  · intro s hs
    cases hs
  · intro a iha s hs
    cases hs
    exact iha

/-- A generator, as the entry of a library under an id. -/
def ofGenerator (id : Option String) (generator : PluginRef) : Schema where
  component := some "generator"
  referenceId := id
  generator := some generator

theorem require_ok {α : Type} {d : Defect} {v : Option α} {a : α} :
    require path d v = .ok a ↔ v = some a := by
  cases v <;> simp [require]

theorem require_error {α : Type} {d : Defect} {v : Option α} {e : BuildError} :
    require path d v = .error e ↔ v = none ∧ e = .malformedSchema path d := by
  cases v <;> simp [require, eq_comm]

theorem settings_error {α : Type} {shape : Document.Shape α} {name : String} {v : Option Json}
    {e : BuildError} (h : settings shape path name v = .error e) :
    ∃ fault, e = .malformedSchema path (.field name fault) := by
  unfold settings at h
  split at h
  · cases h
  · cases h
  · obtain ⟨f, _, he⟩ := mapError_error.1 h
    exact ⟨f.fault, he.symm⟩

theorem kind_error {e : BuildError} (h : s.kind = .error e) :
    ∃ name, s.component = some name ∧ e = .unsupportedComponent name := by
  unfold kind at h
  split at h
  · cases h
  · split at h
    · cases h
    · cases h
      exact ⟨_, ‹_›, rfl⟩

/-- What a node has if it resolves to a typed view. -/
def Fits (s : Schema) : Spec → Prop
  | .stage g d _ => s.kind = .ok .stage ∧ s.generator = some g ∧ s.datajet = some d
  | .synchronizer children fan =>
    s.kind = .ok .synchronizer ∧ children = s.children ∧ fan.maxConcurrency ≠ some 0
  | .wrap _ c => s.kind = .ok .wrap ∧ s.child = some c
  | .generator g => s.kind = .ok .generator ∧ s.generator = some g

theorem resolve_fits {spec : Spec} (h : s.resolve path = .ok spec) : s.Fits spec := by
  obtain ⟨k, hk, h⟩ := except_bind_ok.1 h
  cases k with
  | stage =>
    obtain ⟨g, hg, h⟩ := except_bind_ok.1 h
    obtain ⟨d, hd, h⟩ := except_bind_ok.1 h
    obtain ⟨st, _, h⟩ := except_bind_ok.1 h
    cases h
    exact ⟨hk, require_ok.1 hg, require_ok.1 hd⟩
  | synchronizer =>
    obtain ⟨fan, _, h⟩ := except_bind_ok.1 h
    split at h
    · cases h
    · cases h
      exact ⟨hk, rfl, ‹_›⟩
  | wrap =>
    obtain ⟨c, hc, h⟩ := except_bind_ok.1 h
    obtain ⟨_, _, h⟩ := except_bind_ok.1 h
    obtain ⟨_, _, h⟩ := except_bind_ok.1 h
    obtain ⟨_, _, h⟩ := except_bind_ok.1 h
    cases h
    exact ⟨hk, require_ok.1 hc⟩
  | generator =>
    obtain ⟨g, hg, h⟩ := except_bind_ok.1 h
    cases h
    exact ⟨hk, require_ok.1 hg⟩

/-- A node that does not resolve has a component of no known kind, or a defect at its own
place. -/
theorem resolve_error {e : BuildError} (h : s.resolve path = .error e) :
    (∃ name, e = .unsupportedComponent name) ∨
      ∃ d, e = .malformedSchema path d ∧ d ≠ .entryWithoutReference := by
  rcases except_bind_error.1 h with h | ⟨k, _, h⟩
  · obtain ⟨name, _, he⟩ := kind_error h
    exact .inl ⟨name, he⟩
  right
  cases k with
  | stage =>
    rcases except_bind_error.1 h with h | ⟨_, _, h⟩
    · exact ⟨_, (require_error.1 h).2, nofun⟩
    rcases except_bind_error.1 h with h | ⟨_, _, h⟩
    · exact ⟨_, (require_error.1 h).2, nofun⟩
    rcases except_bind_error.1 h with h | ⟨_, _, h⟩
    · obtain ⟨f, he⟩ := settings_error h
      exact ⟨_, he, nofun⟩
    · cases h
  | synchronizer =>
    rcases except_bind_error.1 h with h | ⟨_, _, h⟩
    · obtain ⟨f, he⟩ := settings_error h
      exact ⟨_, he, nofun⟩
    · split at h
      · cases h
        exact ⟨_, rfl, nofun⟩
      · cases h
  | wrap =>
    rcases except_bind_error.1 h with h | ⟨_, _, h⟩
    · exact ⟨_, (require_error.1 h).2, nofun⟩
    rcases except_bind_error.1 h with h | ⟨_, _, h⟩
    · exact ⟨_, (require_error.1 h).2, nofun⟩
    rcases except_bind_error.1 h with h | ⟨_, _, h⟩
    · obtain ⟨f, _, he⟩ := mapError_error.1 h
      exact ⟨_, he.symm, nofun⟩
    rcases except_bind_error.1 h with h | ⟨_, _, h⟩
    · exact ⟨_, (require_error.1 h).2, nofun⟩
    · cases h
  | generator =>
    rcases except_bind_error.1 h with h | ⟨_, _, h⟩
    · exact ⟨_, (require_error.1 h).2, nofun⟩
    · cases h

theorem toOption_require {α : Type} {d : Defect} {v : Option α} :
    (require path d v).toOption = v := by
  cases v <;> rfl

theorem toOption_settings {α : Type} {shape : Document.Shape α} {name : String}
    {v : Option Json} (path path' : String) :
    (settings shape path name v).toOption = (settings shape path' name v).toOption := by
  unfold settings
  split
  · rfl
  · rfl
  · rw [toOption_mapError, toOption_mapError]

theorem toOption_resolve (s : Schema) (path path' : String) :
    (s.resolve path).toOption = (s.resolve path').toOption := by
  rw [resolve, resolve, toOption_bind, toOption_bind]
  congr 1
  funext k
  cases k with
  | stage =>
    simp only [toOption_bind, toOption_require]
    rw [toOption_settings path path']
  | synchronizer =>
    simp only [toOption_bind]
    rw [toOption_settings path path']
    congr 1
    funext fan
    split <;> rfl
  | wrap => simp only [toOption_bind, toOption_require, toOption_mapError]
  | generator => simp only [toOption_bind, toOption_require]

theorem resolve_ok_of_path {path' : String} {spec : Spec} (h : s.resolve path = .ok spec) :
    s.resolve path' = .ok spec := by
  rw [← toOption_eq_some] at h ⊢
  rw [toOption_resolve s path' path, h]

end Schema

/-- A synchronizer of some nodes, with a library. -/
def synchronizerOf (library children : List Schema) : Schema where
  component := some "synchronizer"
  library
  children

/-- A stage that drains an entry of the library around it. -/
def stageOfEntry : Schema :=
  synchronizerOf [.ofGenerator (some "a") ⟨"increment", none⟩]
    [{ generator := some ⟨"library", some [("referenceId", .string "a")]⟩
       datajet := some ⟨"discard", none⟩ }]

end DataPipeline

import DataPipeline.Proofs.Build.Scope
import DataPipeline.Proofs.Node.Place

namespace DataPipeline

/-- A plugin that a node refers to. -/
structure PluginUse where
  place : NodePath
  holder : Schema
  kind : PluginKind
  ref : PluginRef

/-- The plugins that a node at a place refers to itself. -/
def Schema.ownUses (s : Schema) (path : NodePath) (spec : Spec) : List PluginUse :=
  spec.plugins.map fun plugin => ⟨path, s, plugin.1, plugin.2⟩

namespace Schema

mutual

/-- The plugins that a node at a place refers to with all that it holds: first those of its
library, then its own, then those of the nodes inside it. A node that does not resolve refers to
none. -/
def uses : Schema → NodePath → List PluginUse
  | ⟨component, referenceId, library, config, children, child, generator, datajet, stage⟩,
      path =>
    let schema : Schema :=
      ⟨component, referenceId, library, config, children, child, generator, datajet, stage⟩
    match schema.resolve path.text with
    | .error _ => []
    | .ok spec =>
      usesFrom library path .library 0 ++ (schema.ownUses path spec ++
        match spec with
        | .synchronizer .. => usesFrom children path .children 0
        | .wrap .. => usesOfChild child path
        | .stage .. | .generator _ => [])

def usesFrom : List Schema → NodePath → (Nat → Hop) → Nat → List PluginUse
  | [], _, _, _ => []
  | s :: rest, path, hop, index =>
    s.uses (path.hop (hop index)) ++ usesFrom rest path hop (index + 1)

def usesOfChild : Option Schema → NodePath → List PluginUse
  | none, _ => []
  | some s, path => s.uses (path.hop .child)

end

end Schema

/-- What a build does on its way. -/
inductive Task where
  /-- The shape of a node is checked. -/
  | shape (place : NodePath) (s : Schema)
  /-- The id of a library entry is checked against the ids of the entries before it. -/
  | id (place : NodePath) (referenceId : Option String) (taken : List String)
  /-- A plugin is created. -/
  | plugin (use : PluginUse)

namespace Schema

mutual

/-- What it takes to build a node at a place, in order. -/
def tasks : Schema → NodePath → List Task
  | ⟨component, referenceId, library, config, children, child, generator, datajet, stage⟩,
      path =>
    let schema : Schema :=
      ⟨component, referenceId, library, config, children, child, generator, datajet, stage⟩
    .shape path schema ::
      match schema.resolve path.text with
      | .error _ => []
      | .ok spec =>
        libraryTasks library path 0 [] ++ ((schema.ownUses path spec).map .plugin ++
          match spec with
          | .synchronizer .. => childTasks children path 0
          | .wrap .. => wrappedTasks child path
          | .stage .. | .generator _ => [])

/-- What it takes to build the entries of a library from the given position on, after others. -/
def libraryTasks : List Schema → NodePath → Nat → List String → List Task
  | [], _, _, _ => []
  | entry :: rest, path, index, taken =>
    let place := path.hop (.library index)
    .id place entry.referenceId taken ::
      (entry.tasks place ++
        libraryTasks rest path (index + 1) (entry.referenceId.toList ++ taken))

def childTasks : List Schema → NodePath → Nat → List Task
  | [], _, _ => []
  | child :: rest, path, index =>
    child.tasks (path.hop (.children index)) ++ childTasks rest path (index + 1)

def wrappedTasks : Option Schema → NodePath → List Task
  | none, _ => []
  | some child, path => child.tasks (path.hop .child)

end

end Schema

/-- A result of which only matters whether there is one. -/
def Traced.forget {α : Type} (t : Traced α) : Traced Unit := ⟨t.calls, t.result.map fun _ => ()⟩

/-- Creates a plugin of a kind. -/
def Registry.create (r : Registry) (kind : PluginKind) (ref : PluginRef)
    (context : BuildContext) :
    Traced Unit :=
  match kind with
  | .generator => (r.generators.create ref context).forget
  | .wrapper => (r.wrappers.create ref context).forget
  | .datajet => (r.datajets.create ref context).forget

/-- The factory of a plugin is called, with the settings that the node gives and for this
node. -/
structure Registry.Calls (registry : Registry) (use : PluginUse)
    (call : FactoryCall) : Prop where
  name : call.name = use.ref.name
  config : registry.mergedConfig use.kind use.ref = .ok call.config
  holder : call.context.localSchema = some use.holder
  calls : (registry.create use.kind use.ref call.context).calls = [call]

/-- The factory of a plugin is called and makes an instance. -/
def Registry.Makes (registry : Registry) (use : PluginUse) (call : FactoryCall) : Prop :=
  registry.Calls use call ∧ (registry.create use.kind use.ref call.context).result = .ok ()

namespace Task

/-- How a build does one thing in a context. -/
def attempt (registry : Registry) (context : BuildContext) : Task → Traced Unit
  | shape place s => (Traced.of (s.resolve place.text)).forget
  | id place none _ => .error (.malformedSchema place.text .entryWithoutReference)
  | id place (some referenceId) taken =>
    if referenceId ∈ taken then .error (.duplicateReference referenceId place.text) else .ok ()
  | plugin use => registry.create use.kind use.ref context

/-- A plugin is created for the node that refers to it. -/
def InScope (context : BuildContext) : Task → Prop
  | plugin use => context.localSchema = some use.holder
  | shape .. | id .. => True

/-- The plugin that is created. -/
def use? : Task → Option PluginUse
  | plugin use => some use
  | shape .. | id .. => none

def Passes (registry : Registry) (task : Task) : Prop :=
  ∃ context, task.InScope context ∧ (task.attempt registry context).result = .ok ()

/-- A task that cannot be done, after some calls. -/
def Fails (registry : Registry) (task : Task) (calls : List FactoryCall)
    (e : BuildError) : Prop :=
  ∃ context, task.InScope context ∧ task.attempt registry context = ⟨calls, .error e⟩

/-- A node does not resolve, or an entry has no id or one that is taken. -/
def Faulty : Task → Prop
  | shape place s => ∃ e, s.resolve place.text = .error e
  | id _ none _ => True
  | id _ (some referenceId) taken => referenceId ∈ taken
  | plugin _ => False

end Task

/-- Tasks are done one after the other, each in a context of its own, up to the first that
fails. -/
inductive Works (registry : Registry) : List Task → Traced Unit → Prop where
  | done : Works registry [] (.ok ())
  | next (task context) {tasks calls t} (scope : Task.InScope context task)
      (now : task.attempt registry context = ⟨calls, .ok ()⟩) (later : Works registry tasks t) :
      Works registry (task :: tasks) ⟨calls ++ t.calls, t.result⟩
  | stop (task context) {tasks calls e} (scope : Task.InScope context task)
      (now : task.attempt registry context = ⟨calls, .error e⟩) :
      Works registry (task :: tasks) ⟨calls, .error e⟩

variable {registry : Registry} {s : Schema} {context : BuildContext} {path : NodePath}

section Attempt

variable {α β : Type}

theorem Traced.forget_bind {t : Traced α} {f : α → Traced β} :
    (t >>= f).forget = t.forget >>= fun _ =>
      match t.result with
      | .ok a => (f a).forget
      | .error e => .error e := by
  obtain ⟨calls, result⟩ := t
  cases result <;> rfl

theorem Templates.calls_create {t : Templates α} {ref : PluginRef} :
    (∃ e, t.create ref context = .error e) ∨
      ∃ call, (t.create ref context).calls = [call] ∧ call.name = ref.name ∧
        t.mergedConfig ref = .ok call.config ∧ call.context = context := by
  cases hget : t.get ref.name with
  | error e =>
    have hcreate : t.create ref context = .error e := by rw [create, hget]
    exact .inl ⟨e, hcreate⟩
  | ok template =>
    have hcalls : (t.create ref context).calls =
        [⟨t.kind, ref.name, template.mergedConfig ref.config, context⟩] := by rw [create, hget]
    have hconfig : t.mergedConfig ref = .ok (template.mergedConfig ref.config) := by
      rw [mergedConfig, hget]
      rfl
    exact .inr ⟨_, hcalls, rfl, hconfig, rfl⟩

theorem Registry.calls_create (registry : Registry) (kind : PluginKind) (ref : PluginRef)
    (context : BuildContext) :
    (∃ e, registry.create kind ref context = .error e) ∨
      ∃ call, (registry.create kind ref context).calls = [call] ∧ call.name = ref.name ∧
        registry.mergedConfig kind ref = .ok call.config ∧ call.context = context := by
  cases kind with
  | generator =>
    apply registry.generators.calls_create.imp_left
    rintro ⟨e, he⟩
    exact ⟨e, congrArg Traced.forget he⟩
  | wrapper =>
    apply registry.wrappers.calls_create.imp_left
    rintro ⟨e, he⟩
    exact ⟨e, congrArg Traced.forget he⟩
  | datajet =>
    apply registry.datajets.calls_create.imp_left
    rintro ⟨e, he⟩
    exact ⟨e, congrArg Traced.forget he⟩

namespace Task

variable {task : Task} {calls : List FactoryCall} {e : BuildError}

/-- A task calls the factory of its plugin at most, and that once. -/
theorem calls_attempt (registry : Registry) (scope : task.InScope context) :
    ∃ uses, uses <+: task.use?.toList ∧
      List.Forall₂ registry.Calls uses (task.attempt registry context).calls := by
  cases task with
  | shape place s => exact ⟨[], List.nil_prefix, .nil⟩
  | id place referenceId taken =>
    refine ⟨[], List.nil_prefix, ?_⟩
    cases referenceId with
    | none => exact .nil
    | some i =>
      rw [attempt]
      split <;> exact .nil
  | plugin use =>
    rcases registry.calls_create use.kind use.ref context with
      ⟨e, he⟩ | ⟨call, hcalls, hname, hconfig, rfl⟩
    · refine ⟨[], List.nil_prefix, ?_⟩
      rw [attempt, he]
      exact .nil
    · refine ⟨[use], List.prefix_rfl, ?_⟩
      rw [attempt, hcalls]
      exact .cons ⟨hname, hconfig, scope, hcalls⟩ .nil

/-- A task that is done has called the factory of its plugin. -/
theorem makes_attempt (scope : task.InScope context)
    (now : task.attempt registry context = ⟨calls, .ok ()⟩) :
    List.Forall₂ registry.Makes task.use?.toList calls := by
  cases task with
  | shape place s =>
    cases (congrArg Traced.calls now : [] = calls)
    exact .nil
  | id place referenceId taken =>
    cases referenceId with
    | none => cases now
    | some i =>
      rw [attempt] at now
      split at now <;> cases now
      exact .nil
  | plugin use =>
    have now : registry.create use.kind use.ref context = ⟨calls, .ok ()⟩ := now
    rcases registry.calls_create use.kind use.ref context with
      ⟨e, he⟩ | ⟨call, hcalls, hname, hconfig, rfl⟩
    · cases now.symm.trans he
    · rw [now] at hcalls
      cases hcalls
      exact .cons ⟨⟨hname, hconfig, scope, congrArg Traced.calls now⟩,
        congrArg Traced.result now⟩ .nil

theorem Faulty.attempt (h : task.Faulty) :
    ∃ e, task.attempt registry context = ⟨[], .error e⟩ := by
  cases task with
  | shape place s =>
    obtain ⟨e, he⟩ := h
    refine ⟨e, ?_⟩
    rw [Task.attempt, he]
    rfl
  | id place referenceId taken =>
    cases referenceId with
    | none => exact ⟨_, rfl⟩
    | some i => exact ⟨_, if_pos h⟩
  | plugin use => exact h.elim

theorem filterMap_use?_cons (tasks : List Task) :
    (task :: tasks).filterMap use? = task.use?.toList ++ tasks.filterMap use? := by
  rw [List.filterMap_cons]
  cases task.use? <;> rfl

end Task

end Attempt

namespace Works

variable {tasks tasks' : List Task} {t : Traced Unit}

theorem bind {α β : Type} {t : Traced α} {f : α → Traced β} (h : Works registry tasks t.forget)
    (hf : ∀ a, t.result = .ok a → Works registry tasks' (f a).forget) :
    Works registry (tasks ++ tasks') (t >>= f).forget := by
  rw [Traced.forget_bind]
  have hnext (u : Unit) (hu : t.forget.result = .ok u) : Works registry tasks'
      (match t.result with
        | .ok a => (f a).forget
        | .error e => .error e) := by
    cases ht : t.result with
    | ok a => exact hf a ht
    | error e => simp [Traced.forget, ht, Except.map] at hu
  generalize (match t.result with
    | .ok a => (f a).forget
    | .error e => .error e) = later at hnext ⊢
  generalize t.forget = first at h hnext
  induction h with
  | done => exact hnext () rfl
  | @next task context tasks calls u scope now _ ih =>
    have hrest := ih hnext
    obtain ⟨done, result⟩ := u
    cases result with
    | ok a =>
      have hwhole := Works.next _ _ scope now hrest
      change Works registry _ ⟨(calls ++ done) ++ later.calls, later.result⟩
      rw [List.append_assoc]
      exact hwhole
    | error e => exact Works.next _ _ scope now hrest
  | stop _ _ scope now => exact .stop _ _ scope now

theorem finish {α β : Type} {t : Traced α} {f : α → Traced β}
    (h : Works registry tasks t.forget) (hf : ∀ a, (f a).forget = .ok ()) :
    Works registry tasks (t >>= f).forget := by
  have hwhole := h.bind fun a _ => (hf a).symm ▸ Works.done
  rwa [List.append_nil] at hwhole

theorem attempt (task : Task) (scope : task.InScope context) :
    Works registry [task] (task.attempt registry context) := by
  obtain ⟨⟨calls, result⟩, hnow⟩ : ∃ t, t = task.attempt registry context := ⟨_, rfl⟩
  rw [← hnow]
  have hnow := hnow.symm
  cases result with
  | ok u =>
    have hdone := Works.next _ _ scope hnow Works.done
    rwa [Traced.calls_ok, List.append_nil] at hdone
  | error e => exact .stop _ _ scope hnow

theorem makes (h : Works registry tasks t) (ht : t.result = .ok ()) :
    List.Forall₂ registry.Makes (tasks.filterMap Task.use?) t.calls := by
  induction h with
  | done => exact .nil
  | next _ _ scope now _ ih =>
    rw [Task.filterMap_use?_cons]
    exact List.rel_append (Task.makes_attempt scope now) (ih ht)
  | stop => cases ht

theorem stops {e : BuildError} (h : Works registry tasks t) (ht : t.result = .error e) :
    ∃ done task rest made last, tasks = done ++ task :: rest ∧ (∀ u ∈ done, u.Passes registry) ∧
      List.Forall₂ registry.Makes (done.filterMap Task.use?) made ∧ task.Fails registry last e ∧
      t.calls = made ++ last := by
  induction h with
  | done => cases ht
  | @next first context tasks calls u scope now _ ih =>
    obtain ⟨done, task, rest, made, last, rfl, hpass, hmade, hfail, hcalls⟩ := ih ht
    refine ⟨first :: done, task, rest, calls ++ made, last, rfl, ?_, ?_, hfail, ?_⟩
    · rw [List.forall_mem_cons]
      exact ⟨⟨context, scope, congrArg Traced.result now⟩, hpass⟩
    · rw [Task.filterMap_use?_cons]
      exact List.rel_append (Task.makes_attempt scope now) hmade
    · rw [List.append_assoc, ← hcalls]
  | @stop task context tasks calls e' scope now =>
    cases ht
    exact ⟨[], task, tasks, [], calls, rfl, List.forall_mem_nil _, .nil,
      ⟨context, scope, now⟩, rfl⟩

theorem calls_prefix (h : Works registry tasks t) :
    ∃ uses, uses <+: tasks.filterMap Task.use? ∧ List.Forall₂ registry.Calls uses t.calls := by
  induction h with
  | done => exact ⟨[], List.nil_prefix, .nil⟩
  | next _ _ scope now _ ih =>
    obtain ⟨uses, hprefix, hcalls⟩ := ih
    rw [Task.filterMap_use?_cons]
    refine ⟨_, (List.prefix_append_right_inj _).2 hprefix, List.rel_append ?_ hcalls⟩
    exact (Task.makes_attempt scope now).imp fun _ _ hmake => hmake.1
  | @stop task context tasks calls e scope now =>
    obtain ⟨uses, hprefix, hcalls⟩ := Task.calls_attempt registry scope
    rw [now] at hcalls
    rw [Task.filterMap_use?_cons]
    exact ⟨uses, hprefix.trans (List.prefix_append _ _), hcalls⟩

/-- Work does not get past a fault, and calls nothing for it. -/
theorem faulty {done rest : List Task} {task : Task} (hfault : task.Faulty)
    (h : Works registry (done ++ task :: rest) t) :
    (∃ e, t.result = .error e) ∧ ∃ uses, uses <+: done.filterMap Task.use? ∧
      List.Forall₂ registry.Calls uses t.calls := by
  induction done generalizing t with
  | nil =>
    cases h with
    | next _ _ scope now later =>
      obtain ⟨e, he⟩ := hfault.attempt
      cases now.symm.trans he
    | stop _ _ scope now =>
      obtain ⟨e, he⟩ := hfault.attempt
      cases now.symm.trans he
      exact ⟨⟨_, rfl⟩, [], List.nil_prefix, .nil⟩
  | cons first done ih =>
    rw [Task.filterMap_use?_cons]
    cases h with
    | next _ _ scope now later =>
      obtain ⟨hfail, uses, hprefix, hcalls⟩ := ih later
      refine ⟨hfail, _, (List.prefix_append_right_inj _).2 hprefix, List.rel_append ?_ hcalls⟩
      exact (Task.makes_attempt scope now).imp fun _ _ hmake => hmake.1
    | @stop _ _ _ calls e scope now =>
      obtain ⟨uses, hprefix, hcalls⟩ := Task.calls_attempt registry scope
      rw [now] at hcalls
      exact ⟨⟨e, rfl⟩, uses, hprefix.trans (List.prefix_append _ _), hcalls⟩

end Works

namespace Schema

/-- The tasks of the nodes inside a node. -/
def innerTasks (s : Schema) (path : NodePath) : Spec → List Task
  | .synchronizer .. => childTasks s.children path 0
  | .wrap .. => wrappedTasks s.child path
  | .stage .. | .generator _ => []

theorem tasks_of_ok {spec : Spec} (hs : s.resolve path.text = .ok spec) :
    s.tasks path = .shape path s :: (libraryTasks s.library path 0 [] ++
      ((s.ownUses path spec).map .plugin ++ s.innerTasks path spec)) := by
  cases s
  rw [tasks, hs]
  cases spec <;> rfl

theorem tasks_of_error {e : BuildError} (hs : s.resolve path.text = .error e) :
    s.tasks path = [.shape path s] := by
  cases s
  rw [tasks, hs]

end Schema

namespace Build

theorem libraryEntries_works {library : List Schema} {index : Nat} {taken : List String}
    (h : ∀ entry ∈ library,
      ∀ path, Works registry (entry.tasks path) (node registry entry context path).forget) :
    Works registry (Schema.libraryTasks library path index taken)
      (libraryEntries registry library context path index taken).forget := by
  induction library generalizing index taken with
  | nil => exact .done
  | cons entry library ih =>
    rw [List.forall_mem_cons] at h
    rw [Schema.libraryTasks, libraryEntries]
    cases href : entry.referenceId with
    | none => exact .stop (.id _ none _) context trivial rfl
    | some id =>
      by_cases htaken : id ∈ taken
      · simp only [List.contains_eq_mem, htaken, decide_true, ↓reduceIte]
        exact .stop (.id _ (some id) _) context trivial (if_pos htaken)
      · simp only [List.contains_eq_mem, htaken, decide_false, Bool.false_eq_true, ↓reduceIte]
        have hrest : Works registry _ (do
            let n ← node registry entry context (path.hop (.library index))
            let entries ← libraryEntries registry library context path (index + 1) (id :: taken)
            Traced.ok ((id, n) :: entries)).forget :=
          (h.1 _).bind fun n _ => (ih h.2).finish fun _ => rfl
        exact .next (.id _ (some id) _) context trivial (if_neg htaken) hrest

theorem childNodes_works {children : List Schema} {index : Nat}
    (h : ∀ c ∈ children,
      ∀ path, Works registry (c.tasks path) (node registry c context path).forget) :
    Works registry (Schema.childTasks children path index)
      (childNodes registry children context path index).forget := by
  induction children generalizing index with
  | nil => exact .done
  | cons child children ih =>
    rw [List.forall_mem_cons] at h
    rw [Schema.childTasks, childNodes]
    apply (h.1 _).bind
    intro n _
    exact (ih h.2).finish fun _ => rfl

/-- A build works through the tasks of its schema. -/
theorem node_works (registry : Registry) (s : Schema) (context : BuildContext)
    (path : NodePath) :
    Works registry (s.tasks path) (node registry s context path).forget := by
  induction s using Schema.induction generalizing context path with
  | node s ihl ihc ihw =>
    rw [node_eq]
    have hscope : Task.InScope context (.shape path s) := trivial
    have hshape : Works registry [.shape path s] (Traced.of (s.resolve path.text)).forget :=
      Works.attempt (.shape path s) hscope
    cases hs : s.resolve path.text with
    | error e =>
      rw [Schema.tasks_of_error hs]
      rw [hs] at hshape
      exact hshape
    | ok spec =>
      rw [Schema.tasks_of_ok hs]
      rw [hs] at hshape
      apply hshape.bind
      rintro _ ⟨⟩
      apply (libraryEntries_works fun entry hentry path => ihl entry hentry context path).bind
      intro entries _
      obtain ⟨inner, hinner⟩ : ∃ inner, inner = context.derive s entries := ⟨_, rfl⟩
      have hlocal : inner.localSchema = some s := by
        rw [hinner]
        rfl
      rw [← hinner]
      have hcreate (kind : PluginKind) (ref : PluginRef) :
          Works registry [.plugin ⟨path, s, kind, ref⟩] (registry.create kind ref inner) :=
        Works.attempt (.plugin ⟨path, s, kind, ref⟩) hlocal
      have hfits := Schema.resolve_fits hs
      cases spec with
      | stage g d settings =>
        apply (hcreate .generator g).bind
        intro generator _
        exact (hcreate .datajet d).finish fun _ => rfl
      | synchronizer children fan =>
        exact (childNodes_works fun c hc path => ihc c hc inner path).finish fun _ => rfl
      | wrap w c =>
        apply (hcreate .wrapper w).bind
        intro wrapper _
        rw [Schema.innerTasks, hfits.2, Schema.wrappedTasks, childNode]
        exact (ihw c hfits.2 inner _).finish fun _ => rfl
      | generator g => exact (hcreate .generator g).finish fun _ => rfl

end Build

namespace Schema

/-- What the nodes inside a node refer to. -/
def innerUses (s : Schema) (path : NodePath) : Spec → List PluginUse
  | .synchronizer .. => usesFrom s.children path .children 0
  | .wrap .. => usesOfChild s.child path
  | .stage .. | .generator _ => []

theorem uses_of_ok {spec : Spec} (hs : s.resolve path.text = .ok spec) :
    s.uses path = usesFrom s.library path .library 0 ++ (s.ownUses path spec ++
      s.innerUses path spec) := by
  cases s
  rw [uses, hs]
  cases spec <;> rfl

theorem uses_of_error {e : BuildError} (hs : s.resolve path.text = .error e) :
    s.uses path = [] := by
  cases s
  rw [uses, hs]

section Listed

variable {l : List Schema} {hop : Nat → Hop} {index : Nat} {use : PluginUse}

theorem filterMap_libraryTasks {taken : List String}
    (h : ∀ entry ∈ l, ∀ path, (entry.tasks path).filterMap Task.use? = entry.uses path) :
    (libraryTasks l path index taken).filterMap Task.use? = usesFrom l path .library index := by
  induction l generalizing index taken with
  | nil => rfl
  | cons entry l ih =>
    rw [List.forall_mem_cons] at h
    rw [libraryTasks, usesFrom, Task.filterMap_use?_cons, List.filterMap_append, h.1, ih h.2]
    rfl

theorem filterMap_childTasks
    (h : ∀ c ∈ l, ∀ path, (c.tasks path).filterMap Task.use? = c.uses path) :
    (childTasks l path index).filterMap Task.use? = usesFrom l path .children index := by
  induction l generalizing index with
  | nil => rfl
  | cons child l ih =>
    rw [List.forall_mem_cons] at h
    rw [childTasks, usesFrom, List.filterMap_append, h.1, ih h.2]

/-- The plugins that a build creates are those that the schema refers to, in the same order. -/
theorem filterMap_tasks (s : Schema) (path : NodePath) :
    (s.tasks path).filterMap Task.use? = s.uses path := by
  induction s using Schema.induction generalizing path with
  | node s ihl ihc ihw =>
    cases hs : s.resolve path.text with
    | error e =>
      rw [tasks_of_error hs, uses_of_error hs]
      rfl
    | ok spec =>
      have hinner : (s.innerTasks path spec).filterMap Task.use? = s.innerUses path spec := by
        cases spec with
        | stage g d settings => rfl
        | synchronizer children fan => exact filterMap_childTasks ihc
        | wrap w c =>
          rw [innerTasks, innerUses, (resolve_fits hs).2]
          exact ihw c (resolve_fits hs).2 _
        | generator g => rfl
      have hown : ((s.ownUses path spec).map Task.plugin).filterMap Task.use? =
          s.ownUses path spec := by
        rw [List.filterMap_map]
        exact List.filterMap_some
      rw [tasks_of_ok hs, uses_of_ok hs, Task.filterMap_use?_cons, List.filterMap_append,
        List.filterMap_append, filterMap_libraryTasks ihl, hown, hinner]
      rfl

theorem mem_usesFrom : use ∈ usesFrom l path hop index ↔
    ∃ i, ∃ s : Schema, l[i]? = some s ∧ use ∈ s.uses (path.hop (hop (index + i))) := by
  induction l generalizing index with
  | nil => simp [usesFrom]
  | cons s l ih =>
    rw [usesFrom, List.mem_append, ih]
    constructor
    · rintro (hu | ⟨i, t, ht, hu⟩)
      · exact ⟨0, s, rfl, hu⟩
      · refine ⟨i + 1, t, ht, ?_⟩
        rwa [show index + (i + 1) = index + 1 + i by omega]
    · rintro ⟨i, t, ht, hu⟩
      cases i with
      | zero =>
        cases ht
        exact .inl hu
      | succ i =>
        rw [show index + (i + 1) = index + 1 + i by omega] at hu
        exact .inr ⟨i, t, ht, hu⟩

theorem mem_usesOfChild {child : Option Schema} :
    use ∈ usesOfChild child path ↔ ∃ s, child = some s ∧ use ∈ s.uses (path.hop .child) := by
  cases child <;> simp [usesOfChild]

theorem place_of_mem_ownUses {spec : Spec} (hu : use ∈ s.ownUses path spec) :
    use.place = path := by
  obtain ⟨_, _, rfl⟩ := List.mem_map.1 hu
  rfl

/-- What is referred to inside a node is referred to at the place of the node or inside it. -/
theorem suffix_of_mem_uses (hu : use ∈ s.uses path) : path.hops <:+ use.place.hops := by
  induction s using Schema.induction generalizing path with
  | node s ihl ihc ihw =>
    have hinside (h : Hop) : path.hops <:+ (path.hop h).hops := List.suffix_cons h path.hops
    cases hs : s.resolve path.text with
    | error e =>
      rw [uses_of_error hs] at hu
      cases hu
    | ok spec =>
      rw [uses_of_ok hs, List.mem_append, List.mem_append] at hu
      rcases hu with hu | hu | hu
      · obtain ⟨i, entry, hi, hu⟩ := mem_usesFrom.1 hu
        exact (hinside _).trans (ihl entry (List.mem_of_getElem? hi) hu)
      · have hplace := place_of_mem_ownUses hu
        exact hplace ▸ List.suffix_rfl
      · cases spec with
        | stage g d settings => cases hu
        | synchronizer children fan =>
          obtain ⟨i, c, hi, hu⟩ := mem_usesFrom.1 hu
          exact (hinside _).trans (ihc c (List.mem_of_getElem? hi) hu)
        | wrap w c =>
          obtain ⟨c, hc, hu⟩ := mem_usesOfChild.1 hu
          exact (hinside _).trans (ihw c hc hu)
        | generator g => cases hu

end Listed

end Schema

namespace PluginUse

/-- No node refers to two plugins of one kind. -/
def Apart (use use' : PluginUse) : Prop := use.place = use'.place → use.kind ≠ use'.kind

variable {use use' : PluginUse} {t : Schema} {h h' : Hop}

theorem apart_of_hop_ne (hne : h ≠ h') (hu : use ∈ s.uses (path.hop h))
    (hu' : use' ∈ t.uses (path.hop h')) : use.Apart use' := by
  intro hplace
  have hs := Schema.suffix_of_mem_uses hu
  rw [hplace] at hs
  exact absurd (NodePath.hop_eq_of_suffix hs (Schema.suffix_of_mem_uses hu')) hne

theorem place_ne_of_mem_hop (hu : use ∈ s.uses (path.hop h)) : use.place ≠ path := by
  intro hplace
  have hs := Schema.suffix_of_mem_uses hu
  rw [hplace] at hs
  exact NodePath.not_hop_suffix hs

theorem pairwise_usesFrom {l : List Schema} (path : NodePath) {hop : Nat → Hop} (index : Nat)
    (hhop : ∀ i j, hop i = hop j → i = j) (hl : ∀ s ∈ l, ∀ path, (s.uses path).Pairwise Apart) :
    (Schema.usesFrom l path hop index).Pairwise Apart := by
  induction l generalizing index with
  | nil => exact .nil
  | cons s l ih =>
    rw [List.forall_mem_cons] at hl
    rw [Schema.usesFrom, List.pairwise_append]
    refine ⟨hl.1 _, ih _ hl.2, ?_⟩
    intro use hu use' hu'
    obtain ⟨i, t, _, hu'⟩ := Schema.mem_usesFrom.1 hu'
    apply apart_of_hop_ne _ hu hu'
    intro heq
    have hindex := hhop _ _ heq
    omega

theorem pairwise_ownUses (s : Schema) (path : NodePath) (spec : Spec) :
    (s.ownUses path spec).Pairwise Apart := by
  cases spec with
  | stage g d settings => simp [Schema.ownUses, Spec.plugins, Apart]
  | synchronizer children fan => exact .nil
  | wrap w c => exact List.pairwise_singleton _ _
  | generator g => exact List.pairwise_singleton _ _

/-- Each reference of a schema is listed once. -/
theorem pairwise_uses (s : Schema) (path : NodePath) : (s.uses path).Pairwise Apart := by
  induction s using Schema.induction generalizing path with
  | node s ihl ihc ihw =>
    cases hs : s.resolve path.text with
    | error e =>
      rw [Schema.uses_of_error hs]
      exact .nil
    | ok spec =>
      -- The nodes inside a node are at hops that lead to no library entry.
      have hinner : (s.innerUses path spec).Pairwise Apart ∧ ∀ use ∈ s.innerUses path spec,
          ∃ h, ∃ t : Schema, use ∈ t.uses (path.hop h) ∧ ∀ i, h ≠ .library i := by
        cases spec with
        | stage g d settings => exact ⟨.nil, List.forall_mem_nil _⟩
        | synchronizer children fan =>
          refine ⟨pairwise_usesFrom path 0 (fun _ _ => Hop.children.inj) ihc, fun use hu => ?_⟩
          obtain ⟨i, c, _, hu⟩ := Schema.mem_usesFrom.1 hu
          exact ⟨_, c, hu, nofun⟩
        | wrap w c =>
          rw [Schema.innerUses, (Schema.resolve_fits hs).2]
          exact ⟨ihw c (Schema.resolve_fits hs).2 _, fun use hu => ⟨_, c, hu, nofun⟩⟩
        | generator g => exact ⟨.nil, List.forall_mem_nil _⟩
      rw [Schema.uses_of_ok hs, List.pairwise_append, List.pairwise_append]
      refine ⟨pairwise_usesFrom path 0 (fun _ _ => Hop.library.inj) ihl,
        ⟨pairwise_ownUses s path spec, hinner.1, ?_⟩, ?_⟩
      · intro use hu use' hu' hplace
        obtain ⟨h, t, hu', _⟩ := hinner.2 use' hu'
        rw [Schema.place_of_mem_ownUses hu] at hplace
        exact absurd hplace.symm (place_ne_of_mem_hop hu')
      · intro use hu use' hu'
        obtain ⟨i, entry, _, hu⟩ := Schema.mem_usesFrom.1 hu
        rcases List.mem_append.1 hu' with hu' | hu'
        · intro hplace
          rw [Schema.place_of_mem_ownUses hu'] at hplace
          exact absurd hplace (place_ne_of_mem_hop hu)
        · obtain ⟨h, t, hu', hne⟩ := hinner.2 use' hu'
          exact apart_of_hop_ne (hne _).symm hu hu'

end PluginUse

/-- A build calls the factories of the plugins that the schema refers to, each reference once,
in the order of the document. If it succeeds, each of them was called and made an instance. If
it fails, all that comes before one task could be done, this task fails with the error of the
build, and nothing after it is called. So nothing is called from a node that does not resolve
on, nor from a library entry on that has no id or that of an entry before it. -/
theorem buildPipeline_ordered (registry : Registry) (s : Schema) (context : BuildContext) :
    (s.tasks .root).filterMap Task.use? = s.uses .root ∧
    (s.uses .root).Pairwise PluginUse.Apart ∧
    (∀ n, (buildPipeline registry s context).result = .ok n →
      List.Forall₂ registry.Makes (s.uses .root) (buildPipeline registry s context).calls) ∧
    (∀ e, (buildPipeline registry s context).result = .error e →
      ∃ done task rest made last, s.tasks .root = done ++ task :: rest ∧
        (∀ t ∈ done, t.Passes registry) ∧
        List.Forall₂ registry.Makes (done.filterMap Task.use?) made ∧
        task.Fails registry last e ∧
        (buildPipeline registry s context).calls = made ++ last) ∧
    (∃ uses, uses <+: s.uses .root ∧
      List.Forall₂ registry.Calls uses (buildPipeline registry s context).calls) ∧
    ∀ done task rest, s.tasks .root = done ++ task :: rest → task.Faulty →
      (∃ e, (buildPipeline registry s context).result = .error e) ∧
        ∃ uses, uses <+: done.filterMap Task.use? ∧
          List.Forall₂ registry.Calls uses (buildPipeline registry s context).calls := by
  obtain ⟨build, hbuild⟩ : ∃ build, build = buildPipeline registry s context := ⟨_, rfl⟩
  have hworks : Works registry (s.tasks .root) build.forget := by
    rw [hbuild]
    exact Build.node_works registry s _ _
  rw [← hbuild, ← Schema.filterMap_tasks]
  refine ⟨rfl, ?_, fun n hn => ?_, fun e he => ?_, hworks.calls_prefix,
    fun done task rest hsplit hfault => ?_⟩
  · rw [Schema.filterMap_tasks]
    exact PluginUse.pairwise_uses s .root
  · have hdone : build.forget.result = .ok () := by rw [Traced.forget, hn, Except.map]
    exact hworks.makes hdone
  · have hfailed : build.forget.result = .error e := by rw [Traced.forget, he, Except.map]
    exact hworks.stops hfailed
  · rw [hsplit] at hworks
    obtain ⟨⟨e, he⟩, hcalls⟩ := hworks.faulty hfault
    refine ⟨?_, hcalls⟩
    cases hresult : build.result with
    | error e' => exact ⟨e', rfl⟩
    | ok n => simp [Traced.forget, hresult, Except.map] at he

/-- A library of which the second entry has the id of the first. -/
def repeatedEntry : Schema :=
  synchronizerOf
    [.ofGenerator (some "a") ⟨"increment", none⟩, .ofGenerator (some "a") ⟨"static", none⟩] []

theorem buildPipeline_ordered_repeatedEntry :
    (∃ n, (buildPipeline Registry.builtin stageOfEntry (.mk "" "" {} none none)).result =
      .ok n ∧
      (buildPipeline Registry.builtin stageOfEntry (.mk "" "" {} none none)).calls.length = 3) ∧
    ∃ e, (buildPipeline Registry.builtin repeatedEntry (.mk "" "" {} none none)).result =
      .error e ∧
      (buildPipeline Registry.builtin repeatedEntry (.mk "" "" {} none none)).calls.length ≤
        1 := by
  constructor
  · obtain ⟨n, hn⟩ :
        ∃ n, (buildPipeline Registry.builtin stageOfEntry (.mk "" "" {} none none)).result =
        .ok n := ⟨_, rfl⟩
    have hordered :=
      buildPipeline_ordered Registry.builtin stageOfEntry (.mk "" "" {} none none)
    exact ⟨n, hn, (hordered.2.2.1 n hn).length_eq.symm⟩
  · have hordered :=
      buildPipeline_ordered Registry.builtin repeatedEntry (.mk "" "" {} none none)
    obtain ⟨⟨e, he⟩, uses, hprefix, hcalls⟩ := hordered.2.2.2.2.2
      [.shape .root repeatedEntry, .id ⟨[.library 0]⟩ (some "a") [],
        .shape ⟨[.library 0]⟩ (.ofGenerator (some "a") ⟨"increment", none⟩),
        .plugin ⟨⟨[.library 0]⟩, .ofGenerator (some "a") ⟨"increment", none⟩, .generator,
          ⟨"increment", none⟩⟩]
      (.id ⟨[.library 1]⟩ (some "a") ["a"]) _ rfl List.mem_cons_self
    refine ⟨e, he, ?_⟩
    rw [← hcalls.length_eq]
    exact hprefix.length_le

end DataPipeline

import DataPipeline.Build.Context

namespace DataPipeline

/-- Why a factory makes no instance: an error of its own, or an error of the build. -/
inductive Refusal where
  | own (error : Chain)
  | build (error : BuildError)
  deriving DecidableEq, Inhabited, Repr

abbrev Factory (α : Type) := Fields → BuildContext → Except Refusal α

structure Template (α : Type) where
  name : String
  defaults : Fields
  factory : Factory α

def Template.mergedConfig {α : Type} (t : Template α) (supplied : Option Fields) : Fields :=
  Fields.merge t.defaults (supplied.getD [])

/-- A factory at work: what was asked of it, and what it could see. -/
structure FactoryCall where
  kind : PluginKind
  name : String
  config : Fields
  context : BuildContext

/-- The factories called on the way to a result, in order. -/
structure Traced (α : Type) where
  calls : List FactoryCall
  result : Except BuildError α

namespace Traced

variable {α β : Type}

def ok (a : α) : Traced α := ⟨[], .ok a⟩

def error (e : BuildError) : Traced α := ⟨[], .error e⟩

def of (result : Except BuildError α) : Traced α := ⟨[], result⟩

def bind (t : Traced α) (f : α → Traced β) : Traced β :=
  match t.result with
  | .ok a => ⟨t.calls ++ (f a).calls, (f a).result⟩
  | .error e => ⟨t.calls, .error e⟩

instance : Monad Traced where
  pure := ok
  bind := bind

end Traced

/-- The templates of one kind, in the order of their registration. -/
structure Templates (α : Type) where
  kind : PluginKind
  templates : List (Template α) := []

namespace Templates

variable {α : Type}

def find? (t : Templates α) (name : String) : Option (Template α) :=
  t.templates.find? (·.name = name)

def contains (t : Templates α) (name : String) : Bool := t.templates.any (·.name = name)

def known (t : Templates α) : List String := Text.sorted (t.templates.map (·.name))

def register (t : Templates α) (name : String) (defaults : Fields) (factory : Factory α) :
    Except BuildError (Templates α) :=
  if t.contains name then .error (.duplicatePlugin t.kind name)
  else .ok { t with templates := t.templates ++ [⟨name, defaults, factory⟩] }

def get (t : Templates α) (name : String) : Except BuildError (Template α) :=
  match t.find? name with
  | some template => .ok template
  | none => .error (.pluginNotFound t.kind name t.known)

def mergedConfig (t : Templates α) (ref : PluginRef) : Except BuildError Fields :=
  (t.get ref.name).map (·.mergedConfig ref.config)

/-- What a refusal means for the build: an error of the build is passed on as it is. -/
def refuse (t : Templates α) (name : String) : Refusal → BuildError
  | .build e => e
  | .own c => .pluginFactory t.kind name c

/-- Makes an instance with the merged settings. -/
def create (t : Templates α) (ref : PluginRef) (context : BuildContext) : Traced α :=
  match t.get ref.name with
  | .error e => .error e
  | .ok template =>
    let config := template.mergedConfig ref.config
    ⟨[⟨t.kind, ref.name, config, context⟩],
      (template.factory config context).mapError (t.refuse ref.name)⟩

end Templates

structure Registry where
  generators : Templates Generator := { kind := .generator }
  wrappers : Templates Wrapper := { kind := .wrapper }
  datajets : Templates Datajet := { kind := .datajet }

namespace Registry

def known (r : Registry) : PluginKind → List String
  | .generator => r.generators.known
  | .wrapper => r.wrappers.known
  | .datajet => r.datajets.known

def contains (r : Registry) (kind : PluginKind) (name : String) : Bool :=
  match kind with
  | .generator => r.generators.contains name
  | .wrapper => r.wrappers.contains name
  | .datajet => r.datajets.contains name

def mergedConfig (r : Registry) (kind : PluginKind) (ref : PluginRef) :
    Except BuildError Fields :=
  match kind with
  | .generator => r.generators.mergedConfig ref
  | .wrapper => r.wrappers.mergedConfig ref
  | .datajet => r.datajets.mergedConfig ref

end Registry

end DataPipeline

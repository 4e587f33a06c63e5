import LintHub.Hub.Basic

/-! # The registry

Which kinds of tool there are: a name leads to a factory that makes a new tool each time it is asked.
Hubs are built from it; names that lead nowhere are left out.
-/

namespace LintHub

/-- Something that makes tools, unless it fails. -/
inductive Factory where
  | makes (t : Tool)
  | fails (f : Fault)
  deriving Repr

/-- Factories by name. -/
structure Registry where
  factories : List (String × Factory)
  deriving Repr

namespace Registry

def empty : Registry := ⟨[]⟩

def factory? (g : Registry) (name : String) : Option Factory :=
  g.factories.lookup name

/-- Registers a factory under a name that is not empty; what is no factory is refused. -/
def register (g : Registry) (name : String) (f : Option Factory) : Except Fault Registry :=
  if name.isEmpty then .error .emptyToolName
  else
    match f with
    | none => .error (.notAFactory name)
    | some f => .ok ⟨setNamed g.factories name f⟩

def clear (_g : Registry) : Registry := empty

def isRegistered (g : Registry) (name : String) : Bool :=
  (g.factory? name).isSome

/-- The registered names in order. -/
def list (g : Registry) : List String :=
  (g.factories.map (·.1)).mergeSort fun a b => decide (a ≤ b)

/-- A new tool of a registered kind. A factory that fails is reported and gives none. -/
def create (g : Registry) (name : String) : Act World (Option Tool) := do
  match g.factory? name with
  | none => return none
  | some (.makes t) => return some t
  | some (.fails f) =>
    report ⟨.error, .registry, "Failed to create tool " ++ name, some name, none, some f⟩
    return none

/-- The tools that come with the library. -/
def builtin : Registry :=
  ⟨Adapter.all.map fun a => (a.name, .makes (.external (Runner.new a)))⟩

end Registry

namespace Hub

/-- Registers a new tool of a kind, if there is one. -/
def registerFrom (g : Registry) (name : String) : Act Hub Unit := do
  match ← inWorld (g.create name) with
  | some t => register (some t)
  | none => say .warning name ("No tool registered as " ++ name)

/-- Registers new tools of the named kinds. -/
def registerAll (g : Registry) (names : List String) : Act Hub Unit :=
  names.forM (registerFrom g)

/-- Gives every tool its default configuration. -/
def configureAll : Act Hub Unit := do
  (← get).names.forM fun (_, i) => do
    let settings := (← get).world.settings
    configureAt i (.config ((← toolAt i).defaultConfig settings))

/-- Registers the named ones of the tools that come with the library, each with its default
configuration. -/
def registerBuiltin (names : List String) : Act Hub Unit := do
  registerAll .builtin (names.filter Registry.builtin.isRegistered)
  configureAll

/-- Registers all tools that come with the library. -/
def registerDefault : Act Hub Unit :=
  registerBuiltin (Adapter.all.map (·.name))

end Hub

end LintHub

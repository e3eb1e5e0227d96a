import Pkgset.Compose.Descriptor

/-!
# Environments and overlays

An environment has a base layer and one layer for each overlay. Each name has a
stack of definitions, at most one for each layer, the latest layer first. Every
definition is evaluated against the same final environment; `below` looks at what
earlier layers made of a name.
-/

namespace Pkgset

/-- What an overlay's definition of an entry sees: the environment, its own layer
    and the entry's name. -/
structure Scope where
  env : EnvId
  layer : Nat
  name : String

namespace Scope

/-- The final entry of a name. -/
def get (scope : Scope) (name : String) : Demand := .get (.whole scope.env) name .done

/-- The entry of a name as earlier layers define it. -/
def prev (scope : Scope) (name : String) : Demand := .prior scope.env name scope.layer .done

/-- Injects and constructs a call site in the final environment. -/
def call (scope : Scope) (site : CallSite) : Demand := site.call (.whole scope.env)

/-- The error that a definition raises by its own logic. -/
def failure (scope : Scope) (message : String) : ComposeError := .constructorFailed scope.name message

end Scope

/-- How a layer defines an entry. -/
inductive Definition where
  /-- By injecting and constructing a descriptor. -/
  | call (site : CallSite)
  /-- By a computation over the final environment and the earlier layers. -/
  | thunk (compute : Scope → Demand)
  /-- As a component. -/
  | value (component : Component)
  /-- As what another name stands for in the final environment. -/
  | aliasOf (target : String)

namespace Definition

/-- What evaluating a definition demands. -/
def demand (definition : Definition) (scope : Scope) : Demand :=
  match definition with
  | .call site => scope.call site
  | .thunk compute => compute scope
  | .value component => .pure component
  | .aliasOf target => scope.get target

end Definition

/-- One definition of a name, with its layer and role. -/
structure Slot where
  layer : Nat
  role : Role
  definition : Definition

/-- A definition that an overlay or a builder adds. Without a role of its own, it
    takes over the role of what it replaces. -/
structure Entry where
  name : String
  role : Option Role
  definition : Definition

/-- One layer of definitions. -/
structure Overlay where
  name : String
  entries : List Entry

namespace Entry

/-- Defines a name by a computation. -/
def define (name : String) (role : Option Role) (compute : Scope → Demand) : Entry := ⟨name, role, .thunk compute⟩

/-- Defines a name as a component. -/
def value (name : String) (component : Component) : Entry := ⟨name, none, .value component⟩

/-- Defines a name as another name. -/
def aliasOf (name target : String) : Entry := ⟨name, none, .aliasOf target⟩

/-- Defines a name by a call site, with the role of its descriptor. -/
def call (name : String) (site : CallSite) : Entry := ⟨name, some site.descriptor.role, .call site⟩

/-- Defines the name of a call site's descriptor. -/
def descriptor (site : CallSite) : Entry := call site.descriptor.name site

end Entry

/-- A label, the labels of the layers from the base upwards, and for each name its
    definitions, the latest layer first. -/
structure Environment where
  label : String
  layers : List String
  entries : Dict (List Slot)

namespace Environment

/-- The environment with an empty base layer. -/
def empty (label : String) : Environment := ⟨label, ["base"], []⟩

/-- The definitions of a name, the latest layer first. -/
def stack (environment : Environment) (name : String) : List Slot :=
  (Dict.get? environment.entries name).getD []

/-- Adds a definition to the base layer, in place of an earlier one. -/
def base (environment : Environment) (name : String) (role : Role) (definition : Definition) : Environment :=
  let upper := (environment.stack name).filter (·.layer != 0)
  { environment with entries := Dict.insert environment.entries name (upper ++ [⟨0, role, definition⟩]) }

/-- The role of the latest definition of a name. -/
def currentRole? (environment : Environment) (name : String) : Option Role :=
  (environment.stack name).head?.map (·.role)

/-- The role of a new entry: its own, else that of what it replaces, else that of
    an alias target, else library. -/
def roleFor (environment : Environment) (entry : Entry) : Role :=
  match entry.role, environment.currentRole? entry.name, entry.definition with
  | some role, _, _ => role
  | none, some role, _ => role
  | none, none, .aliasOf target => (environment.currentRole? target).getD .library
  | none, none, _ => .library

/-- Adds an entry to a layer, in place of an earlier one of the same layer. -/
def define (layer : Nat) (environment : Environment) (entry : Entry) : Environment :=
  let role := environment.roleFor entry
  let lower := (environment.stack entry.name).dropWhile (·.layer == layer)
  { environment with
    entries := Dict.insert environment.entries entry.name (⟨layer, role, entry.definition⟩ :: lower) }

/-- Stacks a new layer on top. -/
def pushLayer (environment : Environment) (label : String) (entries : List Entry) : Environment :=
  entries.foldl (define environment.layers.length)
    { environment with layers := environment.layers ++ [label] }

/-- The base layer of a registry: one call site for each descriptor. -/
def ofRegistry (label : String) (registry : Registry) : Environment :=
  registry.descriptors.foldl
    (fun environment (name, descriptor) =>
      environment.base name descriptor.role (.call (.new descriptor)))
    (empty label)

/-- Stacks overlays in their order. -/
def apply (environment : Environment) (overlays : List Overlay) : Environment :=
  overlays.foldl (fun lower overlay => lower.pushLayer overlay.name overlay.entries) environment

/-- The environment of a registry and overlays. -/
def compose (label : String) (registry : Registry) (overlays : List Overlay) : Environment :=
  (ofRegistry label registry).apply overlays

/-! ## Looking up -/

/-- Whether a view of a role shows a definition. -/
def admits (role : Option Role) (slot : Slot) : Bool :=
  match role with
  | none => true
  | some role => slot.role = role

/-- The final definition of a name, if the view shows it. -/
def top? (environment : Environment) (role : Option Role) (name : String) : Option Slot :=
  (environment.stack name).head?.filter (admits role)

/-- The latest definition of a name strictly below a layer. -/
def below? (environment : Environment) (name : String) (layer : Nat) : Option Slot :=
  (environment.stack name).find? fun slot => slot.layer < layer

/-- Whether a name is visible. -/
def contains (environment : Environment) (role : Option Role) (name : String) : Bool :=
  (environment.top? role name).isSome

/-- The visible names, in ascending order. -/
def names (environment : Environment) (role : Option Role) : List String :=
  (environment.entries.filter fun entry => entry.2.head?.any (admits role)).map (·.1)

/-- The role of a visible entry. -/
def roleOf? (environment : Environment) (role : Option Role) (name : String) : Option Role :=
  (environment.top? role name).map (·.role)

/-- The label of the layer that defines a visible entry. -/
def definedBy? (environment : Environment) (role : Option Role) (name : String) : Option String :=
  (environment.top? role name).bind fun slot => environment.layers[slot.layer]?

/-- Whether the inputs that a definition declares are there. -/
def checkDefinition (environment : Environment) (name : String) : Definition → Except ComposeError Unit
  | .call site => (site.sources (environment.contains none)).map fun _ => ()
  | .aliasOf target =>
    if environment.contains none target then .ok () else .error (.missingInput name target)
  | _ => .ok ()

/-- Checks the declared inputs of every visible entry, in the order of their names,
    without computing any. -/
def checkInputs (environment : Environment) (role : Option Role) : Except ComposeError Unit :=
  (environment.names role).forM fun name =>
    match environment.top? role name with
    | some slot => environment.checkDefinition name slot.definition
    | none => .ok ()

end Environment
end Pkgset

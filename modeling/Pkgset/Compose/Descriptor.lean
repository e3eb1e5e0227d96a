import Pkgset.Compose.Demand
import Pkgset.Text.Quoted

/-!
# Descriptors, call sites and injection

A descriptor declares the inputs of a component and constructs the component from
them. A call site is a descriptor with some inputs pinned. Injection binds every
declared input to a source; it looks at which names are visible and computes none.
-/

namespace Pkgset

/-- Where a bound input comes from. -/
inductive Binding where
  | entry (name : String)
  | ready (component : Component)
  | default (cell : CellId)

/-- The bound inputs that a constructor receives. -/
structure Inputs where
  component : String
  view : View
  bindings : Dict Binding

namespace Inputs

/-- The error of asking for an input that is not declared. -/
def undeclared (inputs : Inputs) (input : String) : ComposeError := .undeclaredInput inputs.component input

/-- The component of an input. -/
def get (inputs : Inputs) (input : String) : Demand :=
  match Dict.get? inputs.bindings input with
  | none => .fail (inputs.undeclared input)
  | some (.entry name) => .get inputs.view name .done
  | some (.ready component) => .pure component
  | some (.default cell) => .force (.default input cell) .done

/-- A lazy reference to an input. -/
def lazy (inputs : Inputs) (input : String) : Demand :=
  match Dict.get? inputs.bindings input with
  | none => .fail (inputs.undeclared input)
  | some (.entry name) => .pure (.lazy (.entry inputs.view name))
  | some (.ready component) => .pure (.lazy (.ready component))
  | some (.default cell) => .pure (.lazy (.default input cell))

/-- An input that has to be of a kind. -/
def expecting (inputs : Inputs) (kind : Kind) (input : String) : Demand :=
  .expecting kind input (inputs.get input)

/-- The error that a constructor raises by its own logic. -/
def failure (inputs : Inputs) (message : String) : ComposeError := .constructorFailed inputs.component message

end Inputs

/-- The definition of a component: its declared inputs, the defaults of some of
    them, and its constructor. -/
structure Descriptor where
  name : String
  role : Role
  inputs : List String
  defaults : Dict (View → Demand)
  construct : Inputs → Demand

namespace Descriptor

/-- A descriptor without inputs. -/
def new (name : String) (role : Role) (construct : Inputs → Demand) : Descriptor :=
  ⟨name, role, [], [], construct⟩

/-- Declares an input; declaring it again changes nothing. -/
def requires (descriptor : Descriptor) (input : String) : Descriptor :=
  if descriptor.inputs.contains input then descriptor
  else { descriptor with inputs := descriptor.inputs ++ [input] }

/-- Declares an input and its default, in place of an earlier default. -/
def optional (descriptor : Descriptor) (input : String) (default : View → Demand) : Descriptor :=
  { descriptor.requires input with defaults := Dict.insert descriptor.defaults input default }

/-- Whether an input is declared. -/
def declares (descriptor : Descriptor) (input : String) : Bool := descriptor.inputs.contains input

/-- Whether an input has a default. -/
def hasDefault (descriptor : Descriptor) (input : String) : Bool := Dict.contains descriptor.defaults input

/-- The inspection text of a descriptor. -/
def inspect (descriptor : Descriptor) : String :=
  "Descriptor \x7b name: " ++ Quoted.quote descriptor.name ++ ", role: " ++ descriptor.role.title ++
    ", required_inputs: " ++ Quoted.list descriptor.inputs ++
    ", optional_inputs: " ++ Quoted.list (Dict.keys descriptor.defaults) ++ ", .. \x7d"

end Descriptor

/-- What an input is pinned to: another entry, or a component. -/
inductive Pin where
  | entry (name : String)
  | value (component : Component)

/-- A descriptor with pinned inputs. -/
structure CallSite where
  descriptor : Descriptor
  pins : Dict Pin

/-- Where an input would be taken from, before cells for defaults are made. -/
inductive Source where
  | entry (name : String)
  | ready (component : Component)
  | default (body : View → Demand)

namespace CallSite

/-- A call site without pins. -/
def new (descriptor : Descriptor) : CallSite := ⟨descriptor, []⟩

/-- Pins an input, in place of an earlier pin. -/
def pin (site : CallSite) (input : String) (pin : Pin) : CallSite :=
  { site with pins := Dict.insert site.pins input pin }

/-- The least pinned name that the descriptor does not declare. -/
def undeclaredPin? (site : CallSite) : Option String :=
  (Dict.keys site.pins).find? fun input => !site.descriptor.declares input

/-- The entry that an input is taken from, unless it is pinned to a component. -/
def entryFor (site : CallSite) (input : String) : String :=
  match Dict.get? site.pins input with
  | some (.entry name) => name
  | _ => input

/-- The source of one input, given which names are visible. -/
def source (site : CallSite) (visible : String → Bool) (input : String) : Except ComposeError Source :=
  match Dict.get? site.pins input with
  | some (.value component) => .ok (.ready component)
  | _ =>
    let entry := site.entryFor input
    if visible entry then .ok (.entry entry)
    else match Dict.get? site.descriptor.defaults input with
      | some body => .ok (.default body)
      | none => .error (.missingInput site.descriptor.name entry)

/-- The sources of all declared inputs, in declaration order, given which names are
    visible. A pin of an undeclared input comes before a missing input. -/
def sources (site : CallSite) (visible : String → Bool) : Except ComposeError (List (String × Source)) :=
  match site.undeclaredPin? with
  | some input => .error (.undeclaredInput site.descriptor.name input)
  | none => site.descriptor.inputs.mapM fun input => do
    let source ← site.source visible input
    .ok (input, source)

/-- Binds inputs one after another, asking for each name when its turn comes. -/
def bindInputs (site : CallSite) (view : View) (next : Except ComposeError Inputs → Demand) :
    List String → Dict Binding → Demand
  | [], bindings => next (.ok ⟨site.descriptor.name, view, bindings⟩)
  | input :: rest, bindings =>
    match Dict.get? site.pins input with
    | some (.value component) => bindInputs site view next rest (Dict.insert bindings input (.ready component))
    | _ =>
      let entry := site.entryFor input
      .has view entry fun
        | true => bindInputs site view next rest (Dict.insert bindings input (.entry entry))
        | false =>
          match Dict.get? site.descriptor.defaults input with
          | some body => .allot input view (body view) fun cell =>
            bindInputs site view next rest (Dict.insert bindings input (.default cell))
          | none => next (.error (.missingInput site.descriptor.name entry))

/-- Injects the inputs of a call site from an environment. -/
def resolve (site : CallSite) (view : View) (next : Except ComposeError Inputs → Demand) : Demand :=
  match site.undeclaredPin? with
  | some input => next (.error (.undeclaredInput site.descriptor.name input))
  | none => site.bindInputs view next site.descriptor.inputs []

/-- Injects the inputs and constructs the component. -/
def call (site : CallSite) (view : View) : Demand :=
  site.resolve view fun
    | .ok inputs => site.descriptor.construct inputs
    | .error error => .fail error

end CallSite

/-! ## Registries

A registry is the catalogue of descriptors that a composition starts from. A name
is registered once.
-/

/-- Descriptors by their names. -/
structure Registry where
  descriptors : Dict Descriptor

namespace Registry

/-- The registry without descriptors. -/
def empty : Registry := ⟨[]⟩

/-- Whether a name is registered. -/
def contains (registry : Registry) (name : String) : Bool := Dict.contains registry.descriptors name

/-- The registered names, in ascending order. -/
def names (registry : Registry) : List String := Dict.keys registry.descriptors

/-- The descriptor of a name. -/
def lookup (registry : Registry) (name : String) : Except ComposeError Descriptor :=
  match Dict.get? registry.descriptors name with
  | some descriptor => .ok descriptor
  | none => .error (.notFound name)

/-- Adds a descriptor, unless its name is registered. -/
def register (registry : Registry) (descriptor : Descriptor) : Except ComposeError Registry :=
  if registry.contains descriptor.name then .error (.duplicateName descriptor.name)
  else .ok ⟨Dict.insert registry.descriptors descriptor.name descriptor⟩

/-- Adds descriptors up to the first whose name is registered. What was added before
    stays in the registry, and the error is given beside it. -/
def registerAll (registry : Registry) : List Descriptor → Registry × Except ComposeError Unit
  | [] => (registry, .ok ())
  | descriptor :: rest =>
    match registry.register descriptor with
    | .ok larger => registerAll larger rest
    | .error error => (registry, .error error)

end Registry
end Pkgset

import Pkgset.Compose.Expression
import Pkgset.Derivation.Recipe

/-!
# Reading compositions out of JSON values

An expression is a list that starts with the name of its form; any other value
stands for itself. Descriptors, call sites and overlays are written with
expressions. Call sites may refer to descriptors of a registry by name. The constants
of call sites, definitions and overlays are evaluated as they are read, so reading
one gives labels for the journal too.
-/

namespace Pkgset

/-- Reads the name of a role. -/
def Role.ofJson? (value : Json) : Option Role := value.text?.bind Role.parse?

/-- Reads a handle: the place of an environment, counted from zero, and a role. -/
def View.ofJson? (place role : Json) : Option View := do
  let place ← place.natural?
  let role ← role.optional? Role.ofJson?
  some ⟨place + 1, role⟩

/-- A reading that evaluates constants and collects the labels of their journal. -/
abbrev Noting := StateT (List String) Option

namespace Reader

/-- Evaluates an expression that needs no environment. -/
def constant (body : Expression) : Noting Component := do
  let (labels, component) ← liftM body.constant?
  modify (· ++ labels)
  return component

mutual

/-- Reads an expression within a number of levels. -/
def expression? (registry : Registry) : Nat → Json → Option Expression
  | 0, _ => none
  | levels + 1, value =>
    let read := expression? registry levels
    match value with
    | .list [.text "lit", data] => some (.literal data)
    | .list [.text "get", .text name] => some (.get name)
    | .list [.text "prev", .text name] => some (.prev name)
    | .list [.text "has_prev", .text name] => some (.hasPrev name)
    | .list [.text "has", .text name] => some (.has name)
    | .list [.text "name"] => some .ownName
    | .list [.text "lazy", .text name] => some (.lazy name)
    | .list [.text "value", .text name] => some (.expecting .value name)
    | .list [.text "scope", .text name] => some (.expecting .scope name)
    | .list [.text "derivation", .text name] => some (.expecting .derivation name)
    | .list [.text "env_get", .text name] => some (.outer name)
    | .list (.text "env" :: place :: role) => do some (.environment (← View.ofJson? place (role.headD .null)))
    | .list [.text "force", operand] => do some (.force (← read operand))
    | .list [.text "kind", operand] => do some (.kindOf (← read operand))
    | .list [.text "attrs", .record fields] => do
      let fields ← fields.mapM fun (key, operand) => do some (key, ← read operand)
      some (.attrs fields)
    | .list [.text "attr", operand, .text key] => do some (.attr (← read operand) key)
    | .list [.text "in", operand, .text name] => do some (.inside (← read operand) name)
    | .list [.text "in_lazy", operand, .text name] => do some (.insideLazy (← read operand) name)
    | .list (.text "sum" :: operands) => do some (.sum (← operands.mapM read))
    | .list (.text "cat" :: operands) => do some (.concat (← operands.mapM read))
    | .list [.text "if", condition, yes, no] => do some (.choose (← read condition) (← read yes) (← read no))
    | .list (.text "seq" :: operands) => do some (.sequence (← operands.mapM read))
    | .list [.text "try", first, second] => do some (.orElse (← read first) (← read second))
    | .list [.text "catch", operand] => do some (.caught (← read operand))
    | .list [.text "trace", .text label, operand] => do some (.traced label (← read operand))
    | .list [.text "pause", operand] => do some (.paused (← read operand))
    | .list [.text "fail", .text message] => some (.failure message)
    | .list (.text "panic" :: _) => some .crash
    | .list [.text "call", site] => do
      let (site, labels) ← (site? registry levels site).run []
      some (.call labels site)
    | .list [.text "drv", recipe] => do
      some (.derivation (← Recipe.ofJson? recipe) (← (recipe.field "inputs").items.mapM read))
    | .list _ => none
    | data => some (.literal data)

/-- Declares an input, with a default if one is given. A default that is a list is
    evaluated when it is used, any other is plain data. -/
def input? (registry : Registry) : Nat → Descriptor → Json → Option Descriptor
  | 0, _, _ => none
  | levels + 1, descriptor, value =>
    match value with
    | .text name => some (descriptor.requires name)
    | .list [.text name, .list body] => do
      let body ← expression? registry levels (.list body)
      some (descriptor.optional name (body.default name))
    | .list [.text name, data] => some (descriptor.optional name fun _ => .pure (.value data))
    | _ => none

/-- Reads a descriptor within a number of levels. -/
def descriptor? (registry : Registry) : Nat → Json → Option Descriptor
  | 0, _ => none
  | levels + 1, value => do
    let name ← (value.field "name").text?
    let role ← (value.field "role").optional? Role.ofJson?
    let body ← expression? registry levels (value.field "build")
    let declared ← (value.field "inputs").items.foldlM (input? registry levels)
      (Descriptor.new name (role.getD .library) body.construct)
    let required ← (value.field "requires_all").texts?
    let complete := required.foldl Descriptor.requires declared
    let renamed ← (value.field "renamed").optional? Json.text?
    let newRole ← (value.field "with_role").optional? Role.ofJson?
    some { complete with name := renamed.getD complete.name, role := newRole.getD complete.role }

/-- Pins an input of a call site. -/
def pin? (registry : Registry) : Nat → CallSite → Json → Noting CallSite
  | 0, _, _ => failure
  | levels + 1, site, value =>
    match value with
    | .list [.text "rename", .text input, .text entry] => return site.pin input (.entry entry)
    | .list [.text "pin", .text input, body] => do
      let body ← liftM (expression? registry levels body)
      return site.pin input (.value (← constant body))
    | _ => failure

/-- Reads a call site within a number of levels. -/
def site? (registry : Registry) : Nat → Json → Noting CallSite
  | 0, _ => failure
  | levels + 1, value => do
    let descriptor ← liftM (match value.field "ref" with
      | .text name => (registry.lookup name).toOption
      | _ => descriptor? registry levels (value.field "desc"))
    (value.field "pins").items.foldlM (pin? registry levels) (.new descriptor)

end

end Reader

/-- Reads an expression. -/
def Expression.ofJson? (registry : Registry) (value : Json) : Option Expression :=
  Reader.expression? registry (2 * value.depth) value

/-- Reads an expression that needs no environment, and gives its component. -/
def Component.ofJson? (registry : Registry) (value : Json) : Noting Component := do
  Reader.constant (← liftM (Expression.ofJson? registry value))

/-- Reads a descriptor. -/
def Descriptor.ofJson? (registry : Registry) (value : Json) : Option Descriptor :=
  Reader.descriptor? registry (2 * value.depth + 2) value

/-- Reads a call site. -/
def CallSite.ofJson? (registry : Registry) (value : Json) : Noting CallSite :=
  Reader.site? registry (2 * value.depth + 2) value

/-- Reads a definition. -/
def Definition.ofJson? (registry : Registry) : Json → Noting Definition
  | .list [.text "value", body] => return .value (← Component.ofJson? registry body)
  | .list [.text "alias", .text target] => return .aliasOf target
  | .list [.text "thunk", body] => return .thunk (← liftM (Expression.ofJson? registry body)).define
  | .list [.text "call", site] => return .call (← CallSite.ofJson? registry site)
  | _ => failure

/-- Reads an entry of an overlay. -/
def Entry.ofJson? (registry : Registry) : Json → Noting Entry
  | .list (.text "define" :: .text name :: body :: role) => do
    let body ← liftM (Expression.ofJson? registry body)
    let role ← liftM ((role.headD .null).optional? Role.ofJson?)
    return .define name role body.define
  | .list [.text "value", .text name, body] => return .value name (← Component.ofJson? registry body)
  | .list [.text "alias", .text name, .text target] => return .aliasOf name target
  | .list [.text "descriptor", site] => return .descriptor (← CallSite.ofJson? registry site)
  | .list [.text "call", .text name, site] => return .call name (← CallSite.ofJson? registry site)
  | _ => failure

/-- Reads an overlay. -/
def Overlay.ofJson? (registry : Registry) (value : Json) : Noting Overlay := do
  let name ← liftM (value.field "name").text?
  let entries ← (value.field "entries").items.mapM (Entry.ofJson? registry)
  return ⟨name, entries⟩

/-- Reads a registry; its descriptors are registered in their order. -/
def Registry.ofJson? (value : Json) : Option (Except ComposeError Registry) := do
  let descriptors ← value.items.mapM (Descriptor.ofJson? .empty)
  let (registry, result) := Registry.empty.registerAll descriptors
  some (result.map fun _ => registry)

namespace Environment

/-- Reads an addition to an environment: a base entry, or a layer of definitions. -/
def add? (registry : Registry) (environment : Environment) : Json → Noting Environment
  | .list [.text "base", .text name, role, definition] => do
    let role ← liftM (Role.ofJson? role)
    return environment.base name role (← Definition.ofJson? registry definition)
  | .list [.text "layer", .text label, entries] => do
    let entries ← entries.items.mapM fun
      | .list [.text name, role, definition] => do
        let role ← liftM (role.optional? Role.ofJson?)
        return Entry.mk name role (← Definition.ofJson? registry definition)
      | _ => failure
    return environment.pushLayer label entries
  | _ => failure

/-- Reads an environment over a registry: additions first, then overlays. -/
def ofJson? (registry : Registry) (value : Json) : Noting Environment := do
  let label ← liftM ((value.field "label").optional? Json.text?)
  let base ← (value.field "builder").items.foldlM (add? registry) (ofRegistry (label.getD "native") registry)
  let overlays ← (value.field "overlays").items.mapM (Overlay.ofJson? registry)
  return base.apply overlays

end Environment
end Pkgset

import Pkgset.Compose.Machine

/-!
# Comparing and inspecting components

Scopes are compared by shape: two views of one environment, or views of equal
label, role and names. Default cells and entries are compared by identity.
-/

namespace Pkgset.Machine

/-- The label of an environment. -/
def label (machine : Machine) (env : EnvId) : String :=
  match machine.environment? env with
  | some environment => environment.label
  | none => ""

/-- The names that a view shows. -/
def names (machine : Machine) (view : View) : List String :=
  match machine.environment? view.env with
  | some environment => environment.names view.role
  | none => []

/-- Whether two views are equal, or have the same label, role and names. -/
def sameShape (machine : Machine) (a b : View) : Bool :=
  a = b || (machine.label a.env = machine.label b.env && a.role = b.role && machine.names a = machine.names b)

mutual

/-- Whether two components are equal. -/
def same (machine : Machine) : Component → Component → Bool
  | .value a, .value b => Json.same a b
  | .derivation a, .derivation b => a.same b
  | .scope a, .scope b => machine.sameShape a b
  | .attrs a, .attrs b => sameFields machine a b
  | .lazy a, .lazy b => sameReference machine a b
  | _, _ => false

/-- Whether two records have equal fields. -/
def sameFields (machine : Machine) : List (String × Component) → List (String × Component) → Bool
  | [], [] => true
  | (m, a) :: as, (n, b) :: bs => m == n && same machine a b && sameFields machine as bs
  | _, _ => false

/-- Whether two references lead to the same place. -/
def sameReference (machine : Machine) : LazyRef → LazyRef → Bool
  | .entry a m, .entry b n => a.env = b.env && m = n
  | .ready a, .ready b => same machine a b
  | .default _ a, .default _ b => a = b
  | _, _ => false

end

/-- The inspection text of a view. -/
def inspectView (machine : Machine) (view : View) : String :=
  "Env(" ++ machine.label view.env ++ "#" ++ toString view.env ++
    (match view.role with
      | some role => " [" ++ role.name ++ "])"
      | none => ")")

mutual

/-- The inspection text of a component. -/
def inspect (machine : Machine) : Component → String
  | .value data => "Value(" ++ data.toText ++ ")"
  | .derivation derivation => "Derivation(" ++ derivation.name ++ " " ++ derivation.fingerprint.short ++ ")"
  | .scope view => "Scope(" ++ machine.inspectView view ++ ")"
  | .attrs fields => Quoted.map (inspectFields machine fields)
  | .lazy reference => inspectReference machine reference

/-- The names of fields with the inspection texts of their components. -/
def inspectFields (machine : Machine) : List (String × Component) → List (String × String)
  | [] => []
  | (name, component) :: rest => (name, inspect machine component) :: inspectFields machine rest

/-- The inspection text of a reference. -/
def inspectReference (machine : Machine) : LazyRef → String
  | .entry _ name => "Lazy(" ++ name ++ ")"
  | .ready component => "Lazy(" ++ inspect machine component ++ ")"
  | .default input _ => "Lazy(default " ++ input ++ ")"

end

/-- The inspection text of a pin. -/
def inspectPin (machine : Machine) : Pin → String
  | .entry name => "Entry(" ++ Quoted.quote name ++ ")"
  | .value component => "Value(" ++ machine.inspect component ++ ")"

/-- The inspection text of a call site. -/
def inspectSite (machine : Machine) (site : CallSite) : String :=
  "CallSite \x7b descriptor: " ++ Quoted.quote site.descriptor.name ++ ", pins: " ++
    Quoted.map (Dict.mapValues machine.inspectPin site.pins) ++ " \x7d"

/-- The inspection text of a definition. -/
def inspectDefinition (machine : Machine) : Definition → String
  | .call site => "Call(" ++ site.descriptor.name ++ ")"
  | .thunk _ => "Thunk"
  | .value component => "Value(" ++ machine.inspect component ++ ")"
  | .aliasOf target => "Alias(" ++ target ++ ")"

end Pkgset.Machine

import Pkgset.Proofs.Compose.Course

/-!
# Demands that keep to what they see

A constructor looks at environments through handles that it is given: a role's handle
shows the entries of that role only, and nothing is looked at in any other way. So a
demand that starts with some handles never gets at others, unless an answer has them.
-/

namespace Pkgset

mutual

/-- The handles on environments that a component refers to. -/
def Component.views : Component → List View
  | .scope view => [view]
  | .attrs fields => viewsOfFields fields
  | .lazy reference => LazyRef.views reference
  | _ => []

/-- The handles that the fields of a record refer to. -/
def viewsOfFields : List (String × Component) → List View
  | [] => []
  | (_, component) :: rest => Component.views component ++ viewsOfFields rest

/-- The handles that a reference refers to. -/
def LazyRef.views : LazyRef → List View
  | .entry view _ => [view]
  | .ready component => Component.views component
  | .default _ _ => []

end

/-- A component refers to handles that are seen only. -/
def Component.Sees (sees : View → Prop) (component : Component) : Prop := ∀ view ∈ component.views, sees view

/-- An outcome refers to handles that are seen only. -/
def Outcome.Sees (sees : View → Prop) : Outcome → Prop
  | .ok component => component.Sees sees
  | .error _ => True

namespace Demand

/-- A demand looks at handles that are seen only, as long as answers refer to such. -/
def Confined (sees : View → Prop) : Demand → Prop
  | .done outcome => Outcome.Sees sees outcome
  | .panic => True
  | .get view _ next => sees view ∧ ∀ outcome, Outcome.Sees sees outcome → Confined sees (next outcome)
  | .prior env _ _ next => sees (.whole env) ∧ ∀ outcome, Outcome.Sees sees outcome → Confined sees (next outcome)
  | .has view _ next => sees view ∧ ∀ answer, Confined sees (next answer)
  | .hasPrior env _ _ next => sees (.whole env) ∧ ∀ answer, Confined sees (next answer)
  | .force reference next =>
    (∀ view ∈ reference.views, sees view) ∧ ∀ outcome, Outcome.Sees sees outcome → Confined sees (next outcome)
  | .settle component next =>
    component.Sees sees ∧ ∀ outcome, Outcome.Sees sees outcome → Confined sees (next outcome)
  | .allot _ view body next => sees view ∧ Confined sees body ∧ ∀ cell, Confined sees (next cell)
  | .mark _ next => Confined sees next
  | .pause next => Confined sees next

variable {sees : View → Prop}

/-- What keeps to what it sees with every answer may follow a demand that does. -/
theorem Confined.bind {f : Outcome → Demand} (onwards : ∀ outcome, Outcome.Sees sees outcome → (f outcome).Confined sees)
    {demand : Demand} (confined : demand.Confined sees) : (demand.bind f).Confined sees := by
  induction demand with
  | done outcome => exact onwards outcome confined
  | panic => trivial
  | get view name next ih => exact ⟨confined.1, fun outcome seen => ih outcome (confined.2 outcome seen)⟩
  | prior env name layer next ih => exact ⟨confined.1, fun outcome seen => ih outcome (confined.2 outcome seen)⟩
  | has view name next ih => exact ⟨confined.1, fun answer => ih answer (confined.2 answer)⟩
  | hasPrior env name layer next ih => exact ⟨confined.1, fun answer => ih answer (confined.2 answer)⟩
  | force reference next ih => exact ⟨confined.1, fun outcome seen => ih outcome (confined.2 outcome seen)⟩
  | settle component next ih => exact ⟨confined.1, fun outcome seen => ih outcome (confined.2 outcome seen)⟩
  | allot input view body next ihBody ih =>
    exact ⟨confined.1, confined.2.1, fun cell => ih cell (confined.2.2 cell)⟩
  | mark label next ih => exact ih confined
  | pause next ih => exact ih confined

/-- What keeps to what it sees with every component may follow a demand that does. -/
theorem Confined.andThen {demand : Demand} {f : Component → Demand} (confined : demand.Confined sees)
    (onwards : ∀ component, component.Sees sees → (f component).Confined sees) : (demand.andThen f).Confined sees := by
  refine confined.bind fun outcome seen => ?_
  cases outcome with
  | ok component => exact onwards component seen
  | error error => trivial

end Demand

/-! ### Definitions -/

/-- A binding refers to handles that are seen only. -/
def Binding.Sees (sees : View → Prop) : Binding → Prop
  | .ready component => component.Sees sees
  | _ => True

/-- The inputs that a constructor receives refer to handles that are seen only. -/
structure Inputs.Sees (sees : View → Prop) (inputs : Inputs) : Prop where
  view : sees inputs.view
  bindings : ∀ input binding, Dict.get? inputs.bindings input = some binding → binding.Sees sees

/-- Asking for an input keeps to what is seen. -/
theorem Inputs.Sees.get {sees : View → Prop} {inputs : Inputs} (seen : inputs.Sees sees) (input : String) :
    (inputs.get input).Confined sees := by
  unfold Inputs.get
  split
  next => trivial
  next => exact ⟨seen.view, fun _ => id⟩
  next component found => exact seen.bindings input _ found
  next cell found => exact ⟨by simp [LazyRef.views], fun _ => id⟩

/-- The constructor, the defaults and the pins of a call site keep to what is seen. -/
structure CallSite.Confined (sees : View → Prop) (site : CallSite) : Prop where
  construct : ∀ inputs : Inputs, inputs.Sees sees → (site.descriptor.construct inputs).Confined sees
  defaults : ∀ input default, Dict.get? site.descriptor.defaults input = some default →
    ∀ view, sees view → (default view).Confined sees
  pins : ∀ input component, Dict.get? site.pins input = some (.value component) → component.Sees sees

/-- A definition keeps to what is seen, if the whole of its own environment is. -/
def Definition.Confined (sees : View → Prop) : Definition → Prop
  | .call site => site.Confined sees
  | .thunk compute => ∀ scope : Scope, sees (.whole scope.env) → (compute scope).Confined sees
  | .value component => component.Sees sees
  | .aliasOf _ => True

namespace CallSite
variable {sees : View → Prop} {site : CallSite}

private theorem Sees.insert {component : String} {view : View} {bindings : Dict Binding}
    (seen : Inputs.Sees sees ⟨component, view, bindings⟩) (input : String) {binding : Binding}
    (refers : binding.Sees sees) : Inputs.Sees sees ⟨component, view, Dict.insert bindings input binding⟩ := by
  refine ⟨seen.view, fun other found at' => ?_⟩
  rw [Dict.get?_insert] at at'
  split at at'
  · cases at'
    exact refers
  · exact seen.bindings other found at'

private theorem Confined.bindInputs (confined : site.Confined sees) {view : View} {next : Except ComposeError Inputs → Demand}
    (onwards : ∀ inputs : Inputs, inputs.Sees sees → (next (.ok inputs)).Confined sees)
    (fails : ∀ error, (next (.error error)).Confined sees) (inputs : List String) :
    ∀ bindings : Dict Binding, Inputs.Sees sees ⟨site.descriptor.name, view, bindings⟩ →
      (site.bindInputs view next inputs bindings).Confined sees := by
  induction inputs with
  | nil => exact fun bindings seen => onwards _ seen
  | cons input rest ih =>
    intro bindings seen
    rw [CallSite.bindInputs]
    split
    next component pinned => exact ih _ (Sees.insert seen input (confined.pins input component pinned))
    next =>
      refine ⟨seen.view, fun answer => ?_⟩
      cases answer with
      | true => exact ih _ (Sees.insert seen input trivial)
      | false =>
        dsimp only
        split
        next default found =>
          exact ⟨seen.view, confined.defaults input default found view seen.view,
            fun cell => ih _ (Sees.insert seen input trivial)⟩
        next => exact fails _

/-- Injecting and constructing keeps to what is seen. -/
theorem Confined.call (confined : site.Confined sees) {view : View} (seen : sees view) :
    (site.call view).Confined sees := by
  unfold CallSite.call CallSite.resolve
  split
  next => trivial
  next =>
    refine confined.bindInputs confined.construct (fun error => by exact trivial) _ _ ⟨seen, ?_⟩
    intro input binding found
    cases found

end CallSite

theorem Definition.Confined.demand {sees : View → Prop} {definition : Definition} (confined : definition.Confined sees)
    {scope : Scope} (seen : sees (.whole scope.env)) : (definition.demand scope).Confined sees := by
  cases definition with
  | call site => exact CallSite.Confined.call confined seen
  | thunk compute => exact confined scope seen
  | value component => exact confined
  | aliasOf target => exact ⟨seen, fun outcome => id⟩

/-! ### Going on -/

namespace World
variable {world : World} {sees : View → Prop} {origin asked : Origin} {made made' : Nat} {demand demand' : Demand}
  {next : Outcome → Demand}

/-- What follows at once on a demand keeps to what is seen. -/
theorem confined_of_further (confined : demand.Confined sees)
    (follows : world.react origin made demand = .further made' demand') : demand'.Confined sees := by
  cases demand with
  | done outcome => cases follows
  | panic => cases follows
  | get view name next =>
    simp only [react] at follows
    split at follows
    · cases follows
    · cases follows
      exact confined.2 _ trivial
  | prior env name layer next =>
    simp only [react] at follows
    split at follows
    · cases follows
    · cases follows
      exact confined.2 _ trivial
  | has view name next =>
    cases follows
    exact confined.2 _
  | hasPrior env name layer next =>
    cases follows
    exact confined.2 _
  | force reference next =>
    cases reference with
    | entry view name =>
      simp only [react] at follows
      split at follows
      · cases follows
        exact ⟨confined.1 view (by simp [LazyRef.views]), confined.2⟩
      · cases follows
        exact confined.2 _ trivial
    | ready component =>
      cases follows
      exact confined.2 _ confined.1
    | default input cell => cases follows
  | settle component next =>
    cases component with
    | lazy reference =>
      cases follows
      refine ⟨confined.1, fun outcome seen => ?_⟩
      cases outcome with
      | ok component => exact ⟨seen, confined.2⟩
      | error error => exact confined.2 _ seen
    | _ =>
      cases follows
      exact confined.2 _ confined.1
  | allot input view body next =>
    cases follows
    exact confined.2.2 _
  | mark label next =>
    cases follows
    exact confined
  | pause next =>
    cases follows
    exact confined

/-- What follows on an answer keeps to what is seen. -/
theorem confined_of_question (confined : demand.Confined sees)
    (asks : world.react origin made demand = .question asked next) {answer : Outcome} (seen : Outcome.Sees sees answer) :
    (next answer).Confined sees := by
  cases question_of_react asks with
  | get found => exact confined.2 answer seen
  | prior found => exact confined.2 answer seen
  | default input cell => exact confined.2 answer seen

end World
end Pkgset

import Pkgset.Proofs.Compose.Lawful

/-!
# Demands that never crash

A calm demand never crashes, whatever it is answered. A world is tame if its definitions
are calm, hand errors on, and know of no default cells but those that they make or are
answered with: before anything is computed, there are no cells that they could know of.
-/

namespace Pkgset

namespace Demand

/-- Nothing that may follow is a crash. -/
def Calm : Demand → Prop
  | .done _ => True
  | .panic => False
  | .get _ _ next => ∀ outcome, Calm (next outcome)
  | .prior _ _ _ next => ∀ outcome, Calm (next outcome)
  | .has _ _ next => ∀ answer, Calm (next answer)
  | .hasPrior _ _ _ next => ∀ answer, Calm (next answer)
  | .force _ next => ∀ outcome, Calm (next outcome)
  | .settle _ next => ∀ outcome, Calm (next outcome)
  | .allot _ _ body next => Calm body ∧ ∀ cell, Calm (next cell)
  | .mark _ next => Calm next
  | .pause next => Calm next

theorem calm_fail (error : ComposeError) : (fail error).Calm := trivial

theorem Calm.bind {f : Outcome → Demand} (onwards : ∀ outcome, (f outcome).Calm) {demand : Demand} (calm : demand.Calm) :
    (demand.bind f).Calm := by
  induction demand with
  | done outcome => exact onwards outcome
  | panic => exact calm.elim
  | get view name next ih => exact fun outcome => ih outcome (calm outcome)
  | prior env name layer next ih => exact fun outcome => ih outcome (calm outcome)
  | has view name next ih => exact fun answer => ih answer (calm answer)
  | hasPrior env name layer next ih => exact fun answer => ih answer (calm answer)
  | force reference next ih => exact fun outcome => ih outcome (calm outcome)
  | settle component next ih => exact fun outcome => ih outcome (calm outcome)
  | allot input view body next ihBody ih => exact ⟨calm.1, fun cell => ih cell (calm.2 cell)⟩
  | mark label next ih => exact ih calm
  | pause next ih => exact ih calm

theorem Calm.andThen {demand : Demand} {f : Component → Demand} (calm : demand.Calm)
    (onwards : ∀ component, (f component).Calm) : (demand.andThen f).Calm := by
  refine calm.bind fun outcome => ?_
  cases outcome with
  | ok component => exact onwards component
  | error error => exact calm_fail error

end Demand

theorem Inputs.calm_get (inputs : Inputs) (input : String) : (inputs.get input).Calm := by
  unfold Inputs.get
  split <;> first | exact trivial | exact fun _ => trivial

/-- The constructor and the defaults of a call site are calm. -/
structure CallSite.Calm (site : CallSite) : Prop where
  construct : ∀ inputs, (site.descriptor.construct inputs).Calm
  defaults : ∀ input default, Dict.get? site.descriptor.defaults input = some default → ∀ view, (default view).Calm

/-- Evaluating a definition never crashes. -/
def Definition.Calm : Definition → Prop
  | .call site => site.Calm
  | .thunk compute => ∀ scope, (compute scope).Calm
  | .value _ => True
  | .aliasOf _ => True

namespace CallSite.Calm
variable {site : CallSite}

private theorem bindInputs (calm : site.Calm) (view : View) {next : Except ComposeError Inputs → Demand}
    (onwards : ∀ result, (next result).Calm) (inputs : List String) :
    ∀ bindings : Dict Binding, (site.bindInputs view next inputs bindings).Calm := by
  induction inputs with
  | nil => exact fun bindings => onwards _
  | cons input rest ih =>
    intro bindings
    rw [CallSite.bindInputs]
    split
    next component pinned => exact ih _
    next =>
      intro answer
      cases answer with
      | true => exact ih _
      | false =>
        dsimp only
        split
        next default found => exact ⟨calm.defaults input default found view, fun cell => ih _⟩
        next => exact onwards _

theorem call (calm : site.Calm) (view : View) : (site.call view).Calm := by
  unfold CallSite.call CallSite.resolve
  split
  next => exact Demand.calm_fail _
  next =>
    refine calm.bindInputs view (fun result => ?_) _ _
    cases result with
    | ok inputs => exact calm.construct inputs
    | error error => exact Demand.calm_fail error

end CallSite.Calm

theorem Definition.Calm.demand {definition : Definition} (calm : definition.Calm) (scope : Scope) :
    (definition.demand scope).Calm := by
  cases definition with
  | call site => exact CallSite.Calm.call calm _
  | thunk compute => exact calm scope
  | value component => exact trivial
  | aliasOf target => exact fun _ => trivial

namespace World

/-- Every definition is calm, and lawful whatever cells it is given. -/
def Tame (world : World) : Prop :=
  ∀ env environment, world env = some environment →
    environment.Every fun definition => definition.Calm ∧ ∀ given, definition.Lawful given

theorem Tame.lawful {world : World} (tame : world.Tame) : world.Lawful :=
  fun env environment here given _ name slot member => (tame env environment here name slot member).2 given

theorem Tame.definition {world : World} (tame : world.Tame) (id : SlotId) :
    (world.definition id).Calm ∧ ∀ given, (world.definition id).Lawful given none := by
  unfold World.definition
  split
  next slot found =>
    obtain ⟨environment, here, member⟩ := Option.bind_eq_some_iff.mp found
    obtain ⟨calm, lawful⟩ := tame id.env environment here id.name slot (List.mem_of_find?_eq_some member)
    exact ⟨calm.demand _, fun given => (lawful given).demand _⟩
  next => exact ⟨trivial, fun given => rfl⟩

section
variable {world : World} {origin asked : Origin} {made made' : Nat} {demand demand' : Demand} {next : Outcome → Demand}

/-- What follows at once on a calm demand is calm. -/
theorem calm_of_further (calm : demand.Calm) (follows : world.react origin made demand = .further made' demand') :
    demand'.Calm := by
  fun_cases World.react world origin made demand <;> simp_all only [World.react, reduceCtorEq, Reaction.further.injEq]
  all_goals obtain ⟨_, rfl⟩ := follows
  case case9 | case16 | case17 => exact calm
  case case13 =>
    rintro (error | component)
    · exact calm _
    · exact calm
  case case15 => exact calm.2 _
  all_goals exact calm _

/-- With any answer to its question, a calm demand goes on calmly. -/
theorem calm_of_question (calm : demand.Calm) (asks : world.react origin made demand = .question asked next)
    (outcome : Outcome) : (next outcome).Calm := by
  cases question_of_react asks <;> exact calm outcome

end
end World
end Pkgset

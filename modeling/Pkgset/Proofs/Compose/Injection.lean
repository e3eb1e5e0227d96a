import Pkgset.Proofs.Compose.Settling

/-!
# Injection

Which sources the inputs of a call site have is a matter of the names that are visible. The
injection itself asks for these names one after another, and makes cells for defaults: it
computes nothing, and it fails exactly where there are no sources, with the same error.
-/

namespace Pkgset
open Machine

/-! ### The first failure of several -/

section
variable {α β ε : Type} {items : List α} {error : ε}

/-- What is made of items one after another fails where it first fails for one. -/
theorem mapM_eq_error_iff {f : α → Except ε β} : items.mapM f = .error error ↔
    ∃ before item after, items = before ++ item :: after ∧ (∀ other ∈ before, ∃ made, f other = .ok made) ∧
      f item = .error error := by
  induction items with
  | nil => simp [pure, Except.pure]
  | cons first rest ih =>
    rw [List.mapM_cons]
    cases made : f first with
    | error other =>
      simp only [bind, Except.bind, Except.error.injEq]
      constructor
      · rintro rfl
        exact ⟨[], first, rest, rfl, by simp, made⟩
      · rintro ⟨before, item, after, split, fine, fails⟩
        cases before with
        | nil =>
          obtain ⟨rfl, _⟩ := List.cons.inj split
          exact Except.error.inj (made.symm.trans fails)
        | cons head before =>
          obtain ⟨rfl, _⟩ := List.cons.inj split
          simp [made] at fine
    | ok result =>
      have later : (do
          let result ← (Except.ok result : Except ε β)
          let others ← rest.mapM f
          pure (result :: others)) = Except.error error ↔ rest.mapM f = .error error := by
        cases rest.mapM f <;> simp [bind, Except.bind, pure, Except.pure]
      refine later.trans (ih.trans ?_)
      constructor
      · rintro ⟨before, item, after, rfl, fine, fails⟩
        exact ⟨first :: before, item, after, rfl, List.forall_mem_cons.mpr ⟨⟨result, made⟩, fine⟩, fails⟩
      · rintro ⟨before, item, after, split, fine, fails⟩
        cases before with
        | nil =>
          obtain ⟨rfl, _⟩ := List.cons.inj split
          rw [made] at fails
          cases fails
        | cons head before =>
          obtain ⟨rfl, rfl⟩ := List.cons.inj split
          exact ⟨before, item, after, rfl, (List.forall_mem_cons.mp fine).2, fails⟩

theorem forM_eq_ok_iff {check : α → Except ε Unit} : items.forM check = .ok () ↔ ∀ item ∈ items, check item = .ok () := by
  induction items with
  | nil => simp [pure, Except.pure]
  | cons first rest ih =>
    rw [List.forall_mem_cons, ← ih]
    change (check first).bind (fun _ => rest.forM check) = _ ↔ _
    cases check first <;> simp [Except.bind]

/-- Checks one after another fail as the making of their results does. -/
theorem forM_eq_error_iff {check : α → Except ε Unit} : items.forM check = .error error ↔
    ∃ before item after, items = before ++ item :: after ∧ (∀ other ∈ before, check other = .ok ()) ∧
      check item = .error error := by
  have same : items.forM check = (items.mapM check).map fun _ => () := by
    induction items with
    | nil => rfl
    | cons first rest ih =>
      rw [List.mapM_cons]
      change (check first).bind (fun _ => rest.forM check) = _
      rw [ih]
      cases check first with
      | error other => rfl
      | ok done => cases rest.mapM check <;> rfl
  have fails : (items.mapM check).map (fun _ => ()) = .error error ↔ items.mapM check = .error error := by
    cases items.mapM check <;> simp [Except.map]
  have passes {item : α} : (∃ made, check item = .ok made) ↔ check item = .ok () :=
    ⟨fun ⟨_, made⟩ => made, fun made => ⟨(), made⟩⟩
  rw [same, fails, mapM_eq_error_iff]
  simp only [passes]

end

namespace CallSite
variable {site : CallSite} {visible : String → Bool} {error : ComposeError} {input : String}

/-! ### Why there are no sources -/

/-- There is nothing to take an input from: it is not pinned to a component, the entry that it
    is taken from is not visible, and it has no default. -/
structure Lacks (site : CallSite) (visible : String → Bool) (input : String) : Prop where
  unpinned : ∀ component, Dict.get? site.pins input ≠ some (.value component)
  hidden : visible (site.entryFor input) = false
  plain : Dict.get? site.descriptor.defaults input = none

/-- A pinned name is not declared, or else there is nothing to take a declared input from. The
    error names the first. -/
inductive Fails (site : CallSite) (visible : String → Bool) : ComposeError → Prop where
  | undeclared {before after : List String} {input : String} (pins : Dict.keys site.pins = before ++ input :: after)
      (first : ∀ other ∈ before, other ∈ site.descriptor.inputs) (unknown : input ∉ site.descriptor.inputs) :
      Fails site visible (.undeclaredInput site.descriptor.name input)
  | missing {before after : List String} {input : String}
      (declared : ∀ other ∈ Dict.keys site.pins, other ∈ site.descriptor.inputs)
      (inputs : site.descriptor.inputs = before ++ input :: after) (first : ∀ other ∈ before, ¬ site.Lacks visible other)
      (lacks : site.Lacks visible input) :
      Fails site visible (.missingInput site.descriptor.name (site.entryFor input))

theorem undeclaredPin?_eq_none :
    site.undeclaredPin? = none ↔ ∀ other ∈ Dict.keys site.pins, other ∈ site.descriptor.inputs := by
  simp [undeclaredPin?, Descriptor.declares]

theorem undeclaredPin?_eq_some : site.undeclaredPin? = some input ↔
    input ∉ site.descriptor.inputs ∧ ∃ before after, Dict.keys site.pins = before ++ input :: after ∧
      ∀ other ∈ before, other ∈ site.descriptor.inputs := by
  simp [undeclaredPin?, List.find?_eq_some_iff_append, Descriptor.declares]

theorem source_eq_error_iff : site.source visible input = .error error ↔
    site.Lacks visible input ∧ error = .missingInput site.descriptor.name (site.entryFor input) := by
  constructor
  · intro fails
    unfold source at fails
    split at fails
    · cases fails
    next free =>
      dsimp only at fails
      by_cases shown : visible (site.entryFor input) = true
      · rw [if_pos shown] at fails
        cases fails
      · rw [if_neg shown] at fails
        cases default : Dict.get? site.descriptor.defaults input with
        | some body =>
          rw [default] at fails
          cases fails
        | none =>
          rw [default] at fails
          cases fails
          exact ⟨⟨free, by simpa using shown, default⟩, rfl⟩
  · rintro ⟨⟨unpinned, hidden, plain⟩, rfl⟩
    unfold source
    split
    next component pinned => exact absurd pinned (unpinned component)
    next => simp [hidden, plain]

/-- There are sources unless injection fails. -/
theorem sources_eq_error_iff : site.sources visible = .error error ↔ site.Fails visible error := by
  unfold sources
  cases pins : site.undeclaredPin? with
  | some input =>
    obtain ⟨unknown, before, after, split, first⟩ := undeclaredPin?_eq_some.mp pins
    simp only [Except.error.injEq]
    constructor
    · rintro rfl
      exact .undeclared split first unknown
    · intro fails
      cases fails with
      | @undeclared before after other split first unknown =>
        have same := pins.symm.trans (undeclaredPin?_eq_some.mpr ⟨unknown, before, after, split, first⟩)
        rw [Option.some.inj same]
      | missing declared => rw [undeclaredPin?_eq_none.mpr declared] at pins; cases pins
  | none =>
    have declared := undeclaredPin?_eq_none.mp pins
    have supplied {input : String} : (∃ found, (do
        let source ← site.source visible input
        Except.ok (input, source)) = Except.ok found) ↔ ¬ site.Lacks visible input := by
      cases found : site.source visible input with
      | error other => simp [bind, Except.bind, (source_eq_error_iff.mp found).1]
      | ok source =>
        refine iff_of_true ⟨_, rfl⟩ fun lacks => ?_
        rw [source_eq_error_iff.mpr ⟨lacks, rfl⟩] at found
        cases found
    have lacking {input : String} : (do
        let source ← site.source visible input
        Except.ok (input, source)) = Except.error error ↔ site.source visible input = .error error := by
      cases site.source visible input <;> simp [bind, Except.bind]
    refine mapM_eq_error_iff.trans ?_
    simp only [supplied, lacking, source_eq_error_iff]
    constructor
    · rintro ⟨before, input, after, split, first, lacks, rfl⟩
      exact .missing declared split first lacks
    · intro fails
      cases fails with
      | undeclared split first unknown => exact absurd (declared _ (by simp [split])) unknown
      | missing declared split first lacks => exact ⟨_, _, _, split, first, lacks, rfl⟩

/-- Some inputs are bound: to visible entries, to what they are pinned to, or to cells. -/
structure Binds (site : CallSite) (visible : String → Bool) (cells : CellId → Prop) (inputs : List String)
    (bindings : Dict Binding) : Prop where
  bound : ∀ input ∈ inputs, ∃ binding, Dict.get? bindings input = some binding
  entry : ∀ input name, Dict.get? bindings input = some (.entry name) → visible name = true
  ready : ∀ input component, Dict.get? bindings input = some (.ready component) →
    Dict.get? site.pins input = some (.value component)
  default : ∀ input cell, Dict.get? bindings input = some (.default cell) → cells cell

theorem Binds.insert {cells : CellId → Prop} {inputs : List String} {bindings : Dict Binding} {binding : Binding}
    (binds : site.Binds visible cells inputs bindings) (entry : ∀ name, binding = .entry name → visible name = true)
    (ready : ∀ component, binding = .ready component → Dict.get? site.pins input = some (.value component))
    (default : ∀ cell, binding = .default cell → cells cell) :
    site.Binds visible cells (inputs ++ [input]) (Dict.insert bindings input binding) := by
  constructor
  · intro other member
    rw [Dict.get?_insert]
    split
    · exact ⟨binding, rfl⟩
    next apart => exact binds.bound other (by simpa [apart] using member)
  all_goals
    intro other found at'
    rw [Dict.get?_insert] at at'
    split at at'
  · exact entry found (Option.some.inj at')
  · exact binds.entry other found at'
  next same =>
    subst same
    exact ready found (Option.some.inj at')
  · exact binds.ready other found at'
  · exact default found (Option.some.inj at')
  · exact binds.default other found at'

end CallSite

/-! ### The questions of an injection -/

/-- A demand asks which names of an environment are visible, and makes cells, until it is as
    it is said to be. So far it computes nothing. -/
inductive Demand.Inspects (env : EnvId) (environment : Environment) (bodies : Demand → Prop) (cells : CellId → Prop)
    (holds : Demand → Prop) : Demand → Prop where
  | ends {demand : Demand} (here : holds demand) : Inspects env environment bodies cells holds demand
  | has {view : View} {name : String} {next : Bool → Demand} (looks : view.env = env)
      (rest : Inspects env environment bodies cells holds (next (environment.contains view.role name))) :
      Inspects env environment bodies cells holds (.has view name next)
  | allot {input : String} {view : View} {body : Demand} {next : CellId → Demand} (made : bodies body)
      (rest : ∀ cell, cells cell → Inspects env environment bodies cells holds (next cell)) :
      Inspects env environment bodies cells holds (.allot input view body next)

section
variable {env : EnvId} {environment : Environment} {bodies : Demand → Prop} {cells : CellId → Prop} {holds : Demand → Prop}
  {demand : Demand}

theorem Demand.Inspects.mono {holds' : Demand → Prop} (inspects : demand.Inspects env environment bodies cells holds)
    (more : ∀ demand, holds demand → holds' demand) : demand.Inspects env environment bodies cells holds' := by
  induction inspects with
  | ends here => exact .ends (more _ here)
  | has looks rest ih => exact .has looks ih
  | allot made rest ih => exact .allot made ih

theorem Demand.Inspects.join
    (inspects : demand.Inspects env environment bodies cells fun demand => demand.Inspects env environment bodies cells holds) :
    demand.Inspects env environment bodies cells holds := by
  induction inspects with
  | ends here => exact here
  | has looks rest ih => exact .has looks ih
  | allot made rest ih => exact .allot made ih

namespace CallSite
variable {site : CallSite} {view : View} {next : Except ComposeError Inputs → Demand}

private theorem bindInputs_inspects (looks : view.env = env)
    (made : ∀ input default, Dict.get? site.descriptor.defaults input = some default → bodies (default view))
    (declared : ∀ other ∈ Dict.keys site.pins, other ∈ site.descriptor.inputs)
    (fails : ∀ error, site.Fails (environment.contains view.role) error → holds (next (.error error)))
    (binds : (∀ error, ¬ site.Fails (environment.contains view.role) error) → ∀ bindings,
      site.Binds (environment.contains view.role) cells site.descriptor.inputs bindings →
        holds (next (.ok ⟨site.descriptor.name, view, bindings⟩)))
    (rest : List String) : ∀ (before : List String) (bindings : Dict Binding), site.descriptor.inputs = before ++ rest →
      (∀ other ∈ before, ¬ site.Lacks (environment.contains view.role) other) →
      site.Binds (environment.contains view.role) cells before bindings →
        (site.bindInputs view next rest bindings).Inspects env environment bodies cells holds := by
  induction rest with
  | nil =>
    intro before bindings split supplied bound
    rw [List.append_nil] at split
    refine .ends (binds (fun error failing => ?_) bindings (split ▸ bound))
    cases failing with
    | undeclared pins first unknown => exact unknown (declared _ (by simp [pins]))
    | @missing _ _ input declared inputs first lacks =>
      have member : input ∈ before := by
        rw [← split, inputs]
        simp
      exact supplied _ member lacks
  | cons input rest ih =>
    intro before bindings split supplied bound
    have split' : site.descriptor.inputs = (before ++ [input]) ++ rest := by simpa using split
    -- what binds the input goes on with the inputs after it
    have onwards {binding : Binding} (has : ¬ site.Lacks (environment.contains view.role) input)
        (more : site.Binds (environment.contains view.role) cells (before ++ [input]) (Dict.insert bindings input binding)) :
        (site.bindInputs view next rest (Dict.insert bindings input binding)).Inspects env environment bodies cells holds := by
      refine ih _ _ split' (fun other member => ?_) more
      rcases List.mem_append.mp member with old | new
      · exact supplied other old
      · rwa [List.mem_singleton.mp new]
    rw [CallSite.bindInputs]
    split
    next component pinned =>
      refine onwards (fun lacks => lacks.unpinned component pinned) (bound.insert (by simp) (fun other same => ?_) (by simp))
      cases same
      exact pinned
    next free =>
      refine .has looks ?_
      cases shown : environment.contains view.role (site.entryFor input) with
      | true =>
        refine onwards (fun lacks => ?_) (bound.insert (fun other same => ?_) (by simp) (by simp))
        · rw [lacks.hidden] at shown
          cases shown
        · cases same
          exact shown
      | false =>
        dsimp only
        split
        next default found =>
          refine .allot (made input default found) fun cell known => ?_
          refine onwards (fun lacks => ?_) (bound.insert (by simp) (by simp) fun other same => ?_)
          · rw [lacks.plain] at found
            cases found
          · cases same
            exact known
        next plain => exact .ends (fails _ (.missing declared split supplied ⟨free, shown, plain⟩))

/-- An injection asks which names are visible and makes cells, and then goes on with the error
    if it fails, and else with all declared inputs bound. -/
theorem resolve_inspects (looks : view.env = env)
    (made : ∀ input default, Dict.get? site.descriptor.defaults input = some default → bodies (default view))
    (fails : ∀ error, site.Fails (environment.contains view.role) error → holds (next (.error error)))
    (binds : (∀ error, ¬ site.Fails (environment.contains view.role) error) → ∀ bindings,
      site.Binds (environment.contains view.role) cells site.descriptor.inputs bindings →
        holds (next (.ok ⟨site.descriptor.name, view, bindings⟩))) :
    (site.resolve view next).Inspects env environment bodies cells holds := by
  unfold resolve
  cases pins : site.undeclaredPin? with
  | some input =>
    obtain ⟨unknown, before, after, split, first⟩ := undeclaredPin?_eq_some.mp pins
    exact .ends (fails _ (.undeclared split first unknown))
  | none =>
    refine bindInputs_inspects looks made (undeclaredPin?_eq_none.mp pins) fails binds _ [] [] rfl (by simp) ?_
    constructor <;> simp [Dict.get?]

end CallSite

theorem Machine.top?_isSome {machine : Machine} {view : View} (here : machine.environment? view.env = some environment)
    (name : String) : (machine.top? view name).isSome = environment.contains view.role name := by
  simp only [Machine.top?, here, Environment.contains, Option.bind_eq_bind, Option.bind_some]
  cases environment.top? view.role name <;> rfl

/-- All that happened is that cells were made: nothing was computed, and nothing was begun. -/
structure Machine.Idles (machine machine' : Machine) : Prop where
  environments : machine'.environments = machine.environments
  slots : machine'.slots = machine.slots
  waits : machine'.waits = machine.waits
  journal : machine'.journal = machine.journal
  cells : ∃ made, machine'.cells = machine.cells ++ made ∧ ∀ entry ∈ made, entry.2.progress = .pending

/-- A thread that inspects an environment comes to the end of its questions, and no more has
    happened than that cells were made. -/
theorem Demand.Inspects.travels (inspects : demand.Inspects env environment bodies (fun _ => True) holds) {machine : Machine}
    (living : machine.environment? env = some environment) (frames : List Frame) :
    ∃ machine' demand', machine.Travels ⟨.meet demand, frames⟩ machine' ⟨.meet demand', frames⟩ ∧ holds demand' ∧
      machine.Idles machine' := by
  induction inspects generalizing machine with
  | ends here => exact ⟨machine, _, Travels.refl _ _, here, rfl, rfl, rfl, rfl, [], by simp⟩
  | @has view name next looks rest ih =>
    have moves := moves_meet machine (.has view name next) frames
    simp only [Machine.meet, Machine.top?_isSome (looks ▸ living), Thread.turn] at moves
    obtain ⟨machine', demand', travels, holds, idles⟩ := ih living
    exact ⟨machine', demand', .head moves travels, holds, idles⟩
  | @allot input view body next made rest ih =>
    let origin := (⟨.meet (.allot input view body next), frames⟩ : Thread).origin
    have moves : Moves (machine, ⟨.meet (.allot input view body next), frames⟩) ((machine.allot origin input view body).1,
        ⟨.meet (next (machine.allot origin input view body).2), frames⟩) := moves_meet machine _ frames
    have living' : (machine.allot origin input view body).1.environment? env = some environment := living
    obtain ⟨machine', demand', travels, holds, idles⟩ := ih _ trivial living'
    obtain ⟨later, cells, pending⟩ := idles.cells
    refine ⟨machine', demand', .head moves travels, holds, idles.environments, idles.slots, idles.waits, idles.journal, _ :: later,
      cells.trans (List.append_assoc ..), ?_⟩
    exact List.forall_mem_cons.mpr ⟨rfl, pending⟩

end
end Pkgset

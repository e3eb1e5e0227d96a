import Pkgset.Stage
import Pkgset.Proofs.Compose.Following

/-!
# Chains of stages

A chain of stages is built unless one of its specs is rejected, and the first that is
gives the error. The stages follow their specs in order; each has the tools of the one
before, and its base layer has entries for those and for its platforms, whatever the
registry has under their names.
-/

namespace Pkgset

namespace StageSpec
variable {spec : StageSpec} {registry : Registry} {tools : Option View} {name : String} {component : Component}

/-- An overlay of the stage has an entry of a name. -/
def Redefines (spec : StageSpec) (name : String) : Prop :=
  ∃ overlay ∈ spec.overlays, ∃ entry ∈ overlay.entries, entry.name = name

/-- The entries that a stage has beside those of the registry and of overlays: its
    platforms and, if there are some, the tools of the stage before. -/
def supplied (spec : StageSpec) (tools : Option View) : List (String × Component) :=
  [(Stage.buildPlatformEntry, .text spec.triple.build.name), (Stage.hostPlatformEntry, .text spec.triple.host.name),
    (Stage.targetPlatformEntry, .text spec.triple.target.name)] ++
    tools.toList.map fun view => (Stage.buildPackagesEntry, .scope view)

private theorem filter_ofRegistry (label : String) (registry : Registry) (name : String) :
    ((Environment.ofRegistry label registry).stack name).filter (·.layer != 0) = [] := by
  refine List.filter_eq_nil_iff.mpr fun slot member => ?_
  simp [Environment.layer_ofRegistry label registry name slot member]

private theorem stack_baseLayer (member : (name, component) ∈ spec.supplied tools) :
    (spec.baseLayer registry tools).stack name = [⟨0, .library, .value component⟩] := by
  have bare := filter_ofRegistry spec.label registry
  cases tools with
  | none =>
    simp only [supplied, Option.toList_none, List.map_nil, List.append_nil, List.mem_cons, Prod.mk.injEq,
      List.not_mem_nil, or_false] at member
    rcases member with ⟨rfl, rfl⟩ | ⟨rfl, rfl⟩ | ⟨rfl, rfl⟩ <;>
      simp [baseLayer, Environment.stack_base, bare, Stage.buildPlatformEntry, Stage.hostPlatformEntry,
        Stage.targetPlatformEntry]
  | some view =>
    simp only [supplied, Option.toList_some, List.map_cons, List.map_nil, List.cons_append, List.nil_append,
      List.mem_cons, Prod.mk.injEq, List.not_mem_nil, or_false] at member
    rcases member with ⟨rfl, rfl⟩ | ⟨rfl, rfl⟩ | ⟨rfl, rfl⟩ | ⟨rfl, rfl⟩ <;>
      simp [baseLayer, Environment.stack_base, bare, Stage.buildPlatformEntry, Stage.hostPlatformEntry,
        Stage.targetPlatformEntry, Stage.buildPackagesEntry]

/-- What a stage supplies is all that there is under its name, unless an overlay has it. -/
theorem stack_supplied (member : (name, component) ∈ spec.supplied tools) (alone : ¬ spec.Redefines name) :
    (spec.environment registry tools).stack name = [⟨0, .library, .value component⟩] := by
  rw [environment, Environment.stack_apply, stack_baseLayer member]
  intro overlay within entry inside same
  exact alone ⟨overlay, within, entry, inside, same⟩

/-- Without tools of a stage before, what is under the name for them is the registry's. -/
theorem stack_unsupplied (alone : ¬ spec.Redefines Stage.buildPackagesEntry) :
    (spec.environment registry none).stack Stage.buildPackagesEntry =
      (Environment.ofRegistry spec.label registry).stack Stage.buildPackagesEntry := by
  rw [environment, Environment.stack_apply]
  · simp [baseLayer, Environment.stack_base, Stage.buildPlatformEntry, Stage.hostPlatformEntry,
      Stage.targetPlatformEntry, Stage.buildPackagesEntry]
  · intro overlay within entry inside same
    exact alone ⟨overlay, within, entry, inside, same⟩

end StageSpec

/-- An entry that is a component in the base layer stands for the component. -/
theorem World.means_of_value {world : World} {env : EnvId} {environment : Environment} {name : String} {role : Role}
    {component : Component} (here : world env = some environment)
    (stack : environment.stack name = [⟨0, role, .value component⟩]) : world.Means ⟨.whole env, name⟩ (.ok component) := by
  have shows : world.final? (.whole env) name = some ⟨env, name, 0⟩ := by
    simp [World.final?, View.whole, here, Environment.highest?, stack, Option.filter, Environment.admits]
  have defines : world.definition ⟨env, name, 0⟩ = .done (.ok component) := by
    simp [World.definition, here, stack, Definition.demand, Demand.pure]
  rw [World.means_of_shown shows]
  exact ⟨0, defines ▸ .definition _⟩

namespace StageGraph

/-! ### Specs that are rejected -/

/-- A spec cannot join the chain of those before it: its label is in use, or it is built
    on another platform than the last of them hosts. -/
inductive Rejected (specs : List StageSpec) : Nat → ComposeError → Prop where
  | duplicate {index earlier : Nat} {spec other : StageSpec} (at' : specs[index]? = some spec) (before : earlier < index)
      (taken : specs[earlier]? = some other) (same : other.label = spec.label) :
      Rejected specs index (.duplicateStage spec.label)
  | mismatch {index : Nat} {spec previous : StageSpec} (at' : specs[index + 1]? = some spec)
      (fresh : ∀ earlier < index + 1, ∀ other, specs[earlier]? = some other → other.label ≠ spec.label)
      (last : specs[index]? = some previous) (differs : previous.triple.host ≠ spec.triple.build) :
      Rejected specs (index + 1) (.platformMismatch spec.label previous.triple.host spec.triple.build)

section
variable {specs : List StageSpec} {spec : StageSpec} {index : Nat} {error : ComposeError}

theorem Rejected.lt (rejected : Rejected specs index error) : index < specs.length := by
  cases rejected with
  | duplicate at' before taken same => exact (List.getElem?_eq_some_iff.mp at').1
  | mismatch at' fresh last differs => exact (List.getElem?_eq_some_iff.mp at').1

theorem Rejected.unique {other : ComposeError} (rejected : Rejected specs index error)
    (rejected' : Rejected specs index other) : error = other := by
  cases rejected with
  | duplicate at' before taken same =>
    cases rejected' with
    | duplicate at'' _ _ _ => rw [Option.some.inj (at'.symm.trans at'')]
    | mismatch at'' fresh _ _ =>
      cases Option.some.inj (at'.symm.trans at'')
      exact absurd same (fresh _ before _ taken)
  | mismatch at' fresh last differs =>
    cases rejected' with
    | duplicate at'' before taken same =>
      cases Option.some.inj (at'.symm.trans at'')
      exact absurd same (fresh _ before _ taken)
    | mismatch at'' _ last' _ =>
      cases Option.some.inj (at'.symm.trans at'')
      rw [Option.some.inj (last.symm.trans last')]

/-- Whether a spec is rejected depends on those before it only. -/
theorem rejected_take {bound : Nat} (inside : index < bound) :
    Rejected (specs.take bound) index error ↔ Rejected specs index error := by
  have agree {place : Nat} (below : place ≤ index) : (specs.take bound)[place]? = specs[place]? := by
    rw [List.getElem?_take_of_lt (below.trans_lt inside)]
  constructor
  · intro rejected
    cases rejected with
    | duplicate at' before taken same =>
      rw [agree le_rfl] at at'
      rw [agree before.le] at taken
      exact .duplicate at' before taken same
    | @mismatch index spec previous at' fresh last differs =>
      rw [agree le_rfl] at at'
      rw [agree index.le_succ] at last
      refine .mismatch at' (fun earlier before other taken => ?_) last differs
      exact fresh earlier before other (by rw [agree before.le, taken])
  · intro rejected
    cases rejected with
    | duplicate at' before taken same =>
      exact .duplicate (by rw [agree le_rfl, at']) before (by rw [agree before.le, taken]) same
    | @mismatch index spec previous at' fresh last differs =>
      refine .mismatch (by rw [agree le_rfl, at']) (fun earlier before other taken => ?_)
        (by rw [agree index.le_succ, last]) differs
      exact fresh earlier before other (by rw [← agree before.le, taken])

end

/-! ### The chain of specs that are accepted -/

/-- The tools that the stage of a place is given, in a chain that comes after a number of
    environments. -/
def supplier (before : Nat) : Nat → Option View
  | 0 => none
  | place + 1 => some ⟨before + place + 1, some .tool⟩

/-- The stage of a place. The first one has its own tools. -/
def wired (before index : Nat) (spec : StageSpec) : Stage :=
  ⟨index, spec.label, spec.triple, before + index + 1, (supplier before index).getD ⟨before + index + 1, some .tool⟩⟩

/-- The stages of some specs. -/
def chain (before : Nat) (specs : List StageSpec) : StageGraph := ⟨specs.mapIdx (wired before)⟩

/-- A machine with the environments of the stages of some specs. -/
def installed (registry : Registry) (start : Machine) (specs : List StageSpec) : Machine :=
  { start with
    environments := start.environments ++ specs.mapIdx fun index spec =>
      some (spec.environment registry (supplier start.environments.length index)) }

section
variable {registry : Registry} {start : Machine} {before : Nat} {specs : List StageSpec} {spec : StageSpec}
  {error : ComposeError}

theorem chain_append (before : Nat) (specs : List StageSpec) (spec : StageSpec) :
    (chain before (specs ++ [spec])).stages = (chain before specs).stages ++ [wired before specs.length spec] := by
  simp [chain, List.mapIdx_append]

theorem getLast?_chain (before : Nat) (specs : List StageSpec) :
    (chain before specs).stages.getLast?.map Stage.tools = supplier before specs.length := by
  cases specs using List.reverseRecOn with
  | nil => rfl
  | append_singleton specs spec => simp [chain_append, supplier, wired, Stage.tools]

private theorem any_label (specs : List StageSpec) (label : String) :
    (chain before specs).stages.any (·.label = label) = true ↔
      ∃ earlier < specs.length, ∃ other, specs[earlier]? = some other ∧ other.label = label := by
  simp only [chain, List.any_eq_true, decide_eq_true_eq]
  constructor
  · rintro ⟨stage, member, same⟩
    obtain ⟨earlier, at'⟩ := List.getElem?_of_mem member
    rw [List.getElem?_mapIdx] at at'
    obtain ⟨other, atOther, rfl⟩ := Option.map_eq_some_iff.mp at'
    exact ⟨earlier, (List.getElem?_eq_some_iff.mp atOther).1, other, atOther, same⟩
  · rintro ⟨earlier, _, other, at', same⟩
    exact ⟨wired before earlier other, List.mem_of_getElem? (i := earlier) (by simp [at']), same⟩

/-- A spec is admitted to the chain of others unless it is rejected after them. -/
theorem admission_chain (before : Nat) (specs : List StageSpec) (spec : StageSpec) :
    spec.admission (chain before specs).stages = .ok () ∧ (∀ error, ¬ Rejected (specs ++ [spec]) specs.length error) ∨
      ∃ error, spec.admission (chain before specs).stages = .error error ∧
        Rejected (specs ++ [spec]) specs.length error := by
  have at' : (specs ++ [spec])[specs.length]? = some spec := by simp
  unfold StageSpec.admission
  by_cases taken : (chain before specs).stages.any (·.label = spec.label) = true
  · rw [if_pos taken]
    obtain ⟨earlier, below, other, atOther, same⟩ := (any_label specs spec.label).mp taken
    exact Or.inr ⟨_, rfl, .duplicate at' below (by rw [List.getElem?_append_left below, atOther]) same⟩
  · rw [if_neg taken]
    have fresh (earlier : Nat) (below : earlier < specs.length) (other : StageSpec)
        (atOther : (specs ++ [spec])[earlier]? = some other) : other.label ≠ spec.label := by
      intro same
      rw [List.getElem?_append_left below] at atOther
      exact taken ((any_label specs spec.label).mpr ⟨earlier, below, other, atOther, same⟩)
    cases specs using List.reverseRecOn with
    | nil =>
      refine Or.inl ⟨rfl, fun error rejected => ?_⟩
      cases rejected with
      | duplicate _ below _ _ => cases below
    | append_singleton earlier previous =>
      have length : (earlier ++ [previous]).length = earlier.length + 1 := by simp
      rw [length] at at' fresh ⊢
      have last : (earlier ++ [previous] ++ [spec])[earlier.length]? = some previous := by simp
      simp only [chain_append, List.getLast?_append, List.getLast?_singleton, Option.some_or, wired]
      by_cases fits : previous.triple.host = spec.triple.build
      · rw [if_pos fits]
        refine Or.inl ⟨rfl, fun error rejected => ?_⟩
        cases rejected with
        | duplicate at'' below taken' same =>
          cases Option.some.inj (at'.symm.trans at'')
          exact fresh _ below _ taken' same
        | mismatch at'' _ last' differs =>
          cases Option.some.inj (at'.symm.trans at'')
          cases Option.some.inj (last.symm.trans last')
          exact differs fits
      · rw [if_neg fits]
        exact Or.inr ⟨_, rfl, .mismatch at' fresh last fits⟩

theorem install_installed (registry : Registry) (start : Machine) (specs : List StageSpec) (spec : StageSpec) :
    (installed registry start specs).install
        (spec.environment registry (supplier start.environments.length specs.length)) =
      (installed registry start (specs ++ [spec]), start.environments.length + specs.length + 1) := by
  simp [Machine.install, installed, List.mapIdx_append]

/-- The error of the first spec that is rejected. -/
def FirstRejected (specs : List StageSpec) (error : ComposeError) : Prop :=
  ∃ index, Rejected specs index error ∧ ∀ earlier < index, ∀ other, ¬ Rejected specs earlier other

/-- Specs are taken into a chain one after another, up to the first that is rejected. -/
theorem foldlM_extend (registry : Registry) (start : Machine) (specs : List StageSpec) :
    let taken := specs.foldlM (fun (machine, graph) spec => StageGraph.extend registry machine graph spec)
      (start, (⟨[]⟩ : StageGraph))
    ((∀ index error, ¬ Rejected specs index error) ∧
        taken = .ok (installed registry start specs, chain start.environments.length specs)) ∨
      ∃ error, FirstRejected specs error ∧ taken = .error error := by
  induction specs using List.reverseRecOn with
  | nil =>
    refine Or.inl ⟨fun index error rejected => absurd rejected.lt (Nat.not_lt_zero _), ?_⟩
    simp [installed, chain, pure, Except.pure]
  | append_singleton specs spec ih =>
    have earlier {index : Nat} {error : ComposeError} (below : index < specs.length) :
        Rejected (specs ++ [spec]) index error ↔ Rejected specs index error := by
      have taken : Rejected ((specs ++ [spec]).take specs.length) index error ↔ Rejected (specs ++ [spec]) index error :=
        rejected_take below
      simpa using taken.symm
    simp only [List.foldlM_append, List.foldlM_cons, List.foldlM_nil] at ih ⊢
    rcases ih with ⟨accepted, taken⟩ | ⟨error, ⟨index, rejected, least⟩, taken⟩
    · rw [taken]
      have only {index : Nat} {error : ComposeError} (rejected : Rejected (specs ++ [spec]) index error) :
          index = specs.length := by
        have inside : index < specs.length + 1 := by simpa using rejected.lt
        by_contra apart
        exact accepted index error ((earlier (by omega)).mp rejected)
      rcases admission_chain start.environments.length specs spec with ⟨admitted, fits⟩ | ⟨error, refused, rejected⟩
      · refine Or.inl ⟨fun index error rejected => ?_, ?_⟩
        · obtain rfl := only rejected
          exact fits error rejected
        · have stages : (chain start.environments.length specs).stages.length = specs.length := by simp [chain]
          simp only [bind, Except.bind, extend, admitted, getLast?_chain, install_installed, stages]
          refine congrArg Except.ok (Prod.ext rfl (congrArg StageGraph.mk ?_))
          exact (chain_append start.environments.length specs spec).symm
      · refine Or.inr ⟨error, ⟨_, rejected, fun place below other rejected' => ?_⟩, ?_⟩
        · exact absurd (only rejected') below.ne
        · simp only [bind, Except.bind, extend, refused]
    · refine Or.inr ⟨error, ⟨index, (earlier rejected.lt).mpr rejected, fun place below other rejected' => ?_⟩, ?_⟩
      · exact least place below other ((earlier (below.trans rejected.lt)).mp rejected')
      · rw [taken]
        rfl

theorem build_eq_error_iff :
    build registry start specs = .error error ↔ specs = [] ∧ error = .emptyStageList ∨ FirstRejected specs error := by
  by_cases none : specs = []
  · subst none
    have accepts : ¬ FirstRejected [] error := fun ⟨_, rejected, _⟩ => absurd rejected.lt (Nat.not_lt_zero _)
    simp [build, accepts, eq_comm]
  · have unfolds : build registry start specs =
        specs.foldlM (fun (machine, graph) spec => StageGraph.extend registry machine graph spec) (start, ⟨[]⟩) := by
      simp [build, none]
    simp only [none, false_and, false_or, unfolds]
    rcases foldlM_extend registry start specs with ⟨accepted, taken⟩ | ⟨other, first, taken⟩
    · rw [taken]
      constructor
      · intro absurd
        cases absurd
      · rintro ⟨index, rejected, _⟩
        exact absurd rejected (accepted index error)
    · rw [taken]
      constructor
      · intro same
        cases same
        exact first
      · intro first'
        obtain ⟨index, rejected, least⟩ := first
        obtain ⟨index', rejected', least'⟩ := first'
        obtain rfl : index = index' := by
          rcases Nat.lt_trichotomy index index' with below | same | above
          · exact absurd rejected (least' index below other)
          · exact same
          · exact absurd rejected' (least index' above error)
        rw [rejected.unique rejected']

/-- Specs that are all accepted make up the chain, in their order. -/
theorem build_eq_ok_iff {machine : Machine} {graph : StageGraph} :
    build registry start specs = .ok (machine, graph) ↔
      specs ≠ [] ∧ (∀ index error, ¬ Rejected specs index error) ∧ machine = installed registry start specs ∧
        graph = chain start.environments.length specs := by
  by_cases none : specs = []
  · simp [build, none]
  · have unfolds : build registry start specs =
        specs.foldlM (fun (machine, graph) spec => StageGraph.extend registry machine graph spec) (start, ⟨[]⟩) := by
      simp [build, none]
    rw [unfolds]
    rcases foldlM_extend registry start specs with ⟨accepted, taken⟩ | ⟨other, ⟨index, rejected, _⟩, taken⟩
    · rw [taken]
      simp [none, accepted, eq_comm]
    · rw [taken]
      constructor
      · intro absurd
        cases absurd
      · rintro ⟨_, accepted, _⟩
        exact absurd rejected (accepted index other)

theorem environment?_installed {index : Nat} (at' : specs[index]? = some spec) :
    (installed registry start specs).environment? (start.environments.length + index + 1) =
      some (spec.environment registry (supplier start.environments.length index)) := by
  simp only [Machine.environment?, installed]
  rw [List.getElem?_append_right (Nat.le_add_right _ _), Nat.add_sub_cancel_left, List.getElem?_mapIdx, at']
  rfl

theorem chain_take (before : Nat) (specs : List StageSpec) (count : Nat) :
    chain before (specs.take count) = ⟨(chain before specs).stages.take count⟩ := by
  refine congrArg StageGraph.mk (List.ext_getElem? fun index => ?_)
  simp only [List.getElem?_mapIdx, List.getElem?_take, chain]
  split <;> rfl

end

/-- A chain fails without specs, and else with the error of the first spec that is rejected.
    Otherwise it has one stage for each spec, in their order, each with an environment of its
    own. The first stage has its own tools, and what is under the name for supplied tools is
    the registry's. Every later one has the tools of the stage before and an entry for them.
    The entries for platforms are those of the spec; an overlay may redefine any of these
    entries, the registry may not. The first stages of a chain are a chain by themselves. -/
theorem build_wires (registry : Registry) (start : Machine) (specs : List StageSpec) :
    (∀ error, build registry start specs = .error error ↔
      specs = [] ∧ error = .emptyStageList ∨ FirstRejected specs error) ∧
    ∀ machine graph, build registry start specs = .ok (machine, graph) →
      graph.stages.length = specs.length ∧
      (∀ (index : Nat) spec, specs[index]? = some spec → ∃ stage, graph.stages[index]? = some stage ∧
        stage.index = index ∧ stage.label = spec.label ∧ stage.triple = spec.triple ∧
        stage.env = start.environments.length + index + 1 ∧
        ∀ entry platform, (entry, platform) ∈ [(Stage.buildPlatformEntry, spec.triple.build),
            (Stage.hostPlatformEntry, spec.triple.host), (Stage.targetPlatformEntry, spec.triple.target)] →
          ¬ spec.Redefines entry → World.Means machine.environment? ⟨stage.view, entry⟩ (.ok (.text platform.name))) ∧
      (∀ spec stage, specs[0]? = some spec → graph.stages[0]? = some stage →
        stage.buildTools = stage.tools ∧ machine.environment? stage.env = some (spec.environment registry none) ∧
        (¬ spec.Redefines Stage.buildPackagesEntry →
          (spec.environment registry none).stack Stage.buildPackagesEntry =
            (Environment.ofRegistry spec.label registry).stack Stage.buildPackagesEntry)) ∧
      (∀ (index : Nat) spec previous stage, specs[index + 1]? = some spec → graph.stages[index]? = some previous →
        graph.stages[index + 1]? = some stage →
          stage.buildTools = previous.tools ∧
          machine.environment? stage.env = some (spec.environment registry (some previous.tools)) ∧
          (¬ spec.Redefines Stage.buildPackagesEntry →
            World.Means machine.environment? ⟨stage.view, Stage.buildPackagesEntry⟩ (.ok (.scope previous.tools)))) ∧
      ∀ count > 0, ∃ machine', build registry start (specs.take count) = .ok (machine', ⟨graph.stages.take count⟩) ∧
        ∀ stage ∈ graph.stages.take count, machine'.environment? stage.env = machine.environment? stage.env := by
  refine ⟨fun error => build_eq_error_iff, fun machine graph built => ?_⟩
  obtain ⟨inhabited, accepted, rfl, rfl⟩ := build_eq_ok_iff.mp built
  have stageAt {index : Nat} {stage : Stage} (at' : (chain start.environments.length specs).stages[index]? = some stage) :
      ∃ spec, specs[index]? = some spec ∧ stage = wired start.environments.length index spec := by
    simp only [chain, List.getElem?_mapIdx] at at'
    obtain ⟨spec, atSpec, rfl⟩ := Option.map_eq_some_iff.mp at'
    exact ⟨spec, atSpec, rfl⟩
  refine ⟨by simp [chain], ?_, ?_, ?_, ?_⟩
  · intro index spec at'
    refine ⟨wired start.environments.length index spec, by simp [chain, at'], rfl, rfl, rfl, rfl, ?_⟩
    intro entry platform member alone
    have supplied : (entry, Component.text platform.name) ∈
        spec.supplied (supplier start.environments.length index) := by
      simp only [List.mem_cons, Prod.mk.injEq, List.not_mem_nil, or_false] at member
      rcases member with ⟨rfl, rfl⟩ | ⟨rfl, rfl⟩ | ⟨rfl, rfl⟩ <;> simp [StageSpec.supplied]
    exact World.means_of_value (environment?_installed at') (StageSpec.stack_supplied supplied alone)
  · intro spec stage at' atStage
    obtain ⟨spec', atSpec, rfl⟩ := stageAt atStage
    cases Option.some.inj (at'.symm.trans atSpec)
    exact ⟨rfl, environment?_installed at', StageSpec.stack_unsupplied⟩
  · intro index spec previous stage at' atPrevious atStage
    obtain ⟨spec', atSpec, rfl⟩ := stageAt atStage
    cases Option.some.inj (at'.symm.trans atSpec)
    obtain ⟨before, _, rfl⟩ := stageAt atPrevious
    refine ⟨rfl, environment?_installed at', fun alone => ?_⟩
    refine World.means_of_value (environment?_installed at') (StageSpec.stack_supplied ?_ alone)
    simp [StageSpec.supplied, supplier, wired, Stage.tools]
  · intro count positive
    refine ⟨installed registry start (specs.take count),
      build_eq_ok_iff.mpr ⟨?_, ?_, rfl, (chain_take _ specs count).symm⟩, ?_⟩
    · simp [inhabited, positive.ne']
    · intro index error rejected
      have inside : index < count := rejected.lt.trans_le (List.length_take_le count specs)
      exact accepted index error ((rejected_take inside).mp rejected)
    · intro stage member
      obtain ⟨index, atStage⟩ := List.getElem?_of_mem member
      have inside : index < count := by
        have below := (List.getElem?_eq_some_iff.mp atStage).1
        exact below.trans_le (List.length_take_le count _)
      rw [List.getElem?_take_of_lt inside] at atStage
      obtain ⟨spec, atSpec, rfl⟩ := stageAt atStage
      have atTaken : (specs.take count)[index]? = some spec := by rw [List.getElem?_take_of_lt inside, atSpec]
      exact (environment?_installed atTaken).trans (environment?_installed atSpec).symm

/-! ### A chain for another platform -/

namespace Cross

/-- A registry with descriptors under names that stages supply themselves. -/
def registry : Registry :=
  ⟨[("buildPackages", .new "buildPackages" .library fun _ => .pure (.text "unused")),
    ("hostPlatform", .new "hostPlatform" .library fun _ => .pure (.text "unused"))]⟩

/-- The platform that builds. -/
def here : Platform := ⟨.x86_64, .linux⟩

/-- The platform that results are for. -/
def there : Platform := ⟨.aarch64, .linux⟩

/-- A stage that is at home where everything is built. -/
def native : StageSpec := ⟨"stage1", .native here, []⟩

/-- Stages from the native one to one whose results run elsewhere. -/
def specs : List StageSpec := [native, ⟨"stage2", ⟨here, here, there⟩, []⟩, ⟨"stage3", ⟨here, there, there⟩, []⟩]

/-- A stage that is built elsewhere. -/
def stray : StageSpec := ⟨"stage4", .native there, []⟩

end Cross

/-- The last stage has the tools of the one before and its own host platform under the
    names that the registry has too; a stage built elsewhere cannot follow the first. -/
theorem build_wires_cross :
    (∃ machine graph previous stage, build Cross.registry .empty Cross.specs = .ok (machine, graph) ∧
      graph.stages[1]? = some previous ∧ graph.stages[2]? = some stage ∧ stage.buildTools = previous.tools ∧
      World.Means machine.environment? ⟨stage.view, "buildPackages"⟩ (.ok (.scope previous.tools)) ∧
      World.Means machine.environment? ⟨stage.view, "hostPlatform"⟩ (.ok (.text "aarch64-linux"))) ∧
    build Cross.registry .empty [Cross.native, Cross.stray] =
      .error (.platformMismatch "stage4" Cross.here Cross.there) := by
  have plain (spec : StageSpec) (bare : spec.overlays = []) (name : String) : ¬ spec.Redefines name := by
    rintro ⟨overlay, member, _⟩
    rw [bare] at member
    cases member
  constructor
  · obtain ⟨_, chains⟩ := build_wires Cross.registry .empty Cross.specs
    obtain ⟨_, platforms, _, wiring, _⟩ := chains _ _ rfl
    obtain ⟨tools, _, supplies⟩ := wiring 1 _ _ _ rfl rfl rfl
    obtain ⟨stage, at', _, _, _, _, names⟩ := platforms 2 _ rfl
    refine ⟨_, _, _, _, rfl, rfl, rfl, tools, supplies (plain _ rfl _), ?_⟩
    cases at'
    exact names "hostPlatform" Cross.there (by simp [Stage.hostPlatformEntry]) (plain _ rfl _)
  · obtain ⟨errors, _⟩ := build_wires Cross.registry .empty [Cross.native, Cross.stray]
    have rejected : Rejected [Cross.native, Cross.stray] 1 (.platformMismatch Cross.stray.label Cross.native.triple.host
        Cross.stray.triple.build) := by
      refine .mismatch rfl (fun earlier below other at' => ?_) rfl (by decide)
      obtain rfl : earlier = 0 := by omega
      cases at'
      decide
    refine (errors _).mpr (Or.inr ⟨1, rejected, fun earlier below other rejected' => ?_⟩)
    obtain rfl : earlier = 0 := by omega
    cases rejected' with
    | duplicate _ before _ _ => cases before

end StageGraph
end Pkgset

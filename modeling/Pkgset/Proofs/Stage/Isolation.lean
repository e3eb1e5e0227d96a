import Pkgset.Proofs.Compose.Computing
import Pkgset.Proofs.Compose.Mirror
import Pkgset.Proofs.Stage.Chain

/-!
# Stages that cannot tell each other apart

A stage sees the stage before it through its tools only, and nothing of those after it. So
what a stage is made of shows in no earlier stage, and in later ones only as far as it
shows in the outcomes of its tools.
-/

namespace Pkgset

/-- Data, a derivation or an error: an outcome that refers to nothing else. -/
def Outcome.Plain : Outcome → Prop
  | .ok (.value _) => True
  | .ok (.derivation _) => True
  | .ok _ => False
  | .error _ => True

theorem Outcome.Plain.keeps {outcome : Outcome} (plain : Outcome.Plain outcome) (sees : View → Prop) (holds : CellId → Prop) :
    Outcome.Keeps sees holds outcome := by
  cases outcome with
  | error error => exact keeps_error sees holds error
  | ok component =>
    cases component with
    | value data =>
      refine ⟨by simp [Outcome.Sees, Component.Sees, Component.views], ?_⟩
      rintro component same
      cases same
      simp [Component.cells]
    | derivation derivation =>
      refine ⟨by simp [Outcome.Sees, Component.Sees, Component.views], ?_⟩
      rintro component same
      cases same
      simp [Component.cells]
    | _ => exact plain.elim

/-- A definition makes up no cells and hands errors on. Beside its own environment, it looks
    at those that were known before and at what answers refer to. -/
structure Definition.Proper (known : EnvId → Prop) (definition : Definition) : Prop where
  lawful : ∀ given, definition.Lawful given
  confined : ∀ sees, (∀ view : View, known view.env → sees view) → definition.Confined sees

theorem Origin.not_inside_of {inside beyond : EnvId → Prop} (disjoint : ∀ env, inside env → ¬ beyond env) {origin : Origin}
    (within : origin.Inside inside) : ¬ origin.Inside beyond := by
  rintro ⟨env, home, outside⟩
  obtain ⟨env', home', within⟩ := within
  cases Option.mem_unique home home'
  exact disjoint env within outside

theorem Origin.Inside.mono {inside wider : EnvId → Prop} (weaker : ∀ env, inside env → wider env) {origin : Origin}
    (within : origin.Inside inside) : origin.Inside wider := by
  obtain ⟨env, home, within⟩ := within
  exact ⟨env, home, weaker env within⟩

namespace World

/-- After a number of environments that were known before, each environment sees, beside itself
    and those, the tools of the one before it only. -/
structure Chained (base : Nat) (world : World) : Prop where
  before : world.Sealed
  lawful : ∀ env environment, world env = some environment → environment.Every fun definition => ∀ given, definition.Lawful given
  confined : ∀ env environment, world env = some environment → ∀ sees, (∀ view : View, view.env ≤ base → sees view) →
    (∀ below, base < below → env = below + 1 → sees ⟨below, some .tool⟩) → environment.Every (Definition.Confined sees)

namespace Chained
variable {world other : World} {base top : Nat} {outer outer' : List Origin} {asked : Origin} {outcome : Outcome}
  {inquiry : Inquiry}

theorem upright (chained : world.Chained base) : world.Upright := chained.lawful

/-- Environments up to one of the chain see no others. -/
theorem below (chained : world.Chained base) {bound : Nat} (above : base ≤ bound) (env : EnvId) (environment : Environment)
    (within : env ≤ bound) (here : world env = some environment) : environment.Every fun definition =>
      (∀ given, definition.Lawful given) ∧ definition.Confined fun view => view.env ≤ bound := by
  intro name slot member
  refine ⟨chained.lawful env environment here name slot member, ?_⟩
  refine chained.confined env environment here _ (fun view known => known.trans above) (fun below _ next => ?_) name slot member
  exact (Nat.le_succ below).trans (next.symm.trans_le within)

/-- What is below comes to the same with other environments above, within whatever is above. -/
theorem comes_below (chained : world.Chained base) {bound : Nat} (above : base ≤ bound)
    (same : ∀ env, env ≤ bound → other env = world env) (apart : ∀ origin ∈ outer, origin.Inside (bound < ·))
    (apart' : ∀ origin ∈ outer', origin.Inside (bound < ·)) (within : asked.Inside (· ≤ bound))
    (comes : world.Comes outer (.ask asked) outcome) :
    other.Comes outer' (.ask asked) outcome ∧
      Outcome.Keeps (fun view => view.env ≤ bound) (fun cell => cell.origin.Inside (· ≤ bound)) outcome := by
  have beyond (origin : Origin) (higher : origin.Inside (bound < ·)) : ¬ origin.Inside (· ≤ bound) :=
    Origin.not_inside_of (fun env higher => not_le.mpr higher) higher
  exact Mirrors.comes_closed chained.upright.lawful same (chained.below above) (fun origin member => beyond origin (apart origin member))
    (fun origin member => beyond origin (apart' origin member)) within comes

theorem final?_eq {view : View} (same : other view.env = world view.env) (name : String) :
    other.final? view name = world.final? view name := by simp only [final?, same]

/-- What an inquiry below comes to does not depend on what is above. -/
theorem concludes_below (chained : world.Chained base) {bound : Nat} (above : base ≤ bound)
    (same : ∀ env, env ≤ bound → other env = world env) (within : inquiry.view.env ≤ bound)
    (concludes : world.Concludes inquiry outcome) : other.Concludes inquiry outcome := by
  unfold Concludes at concludes ⊢
  rw [final?_eq (same _ within)]
  cases shows : world.final? inquiry.view inquiry.name with
  | none => simpa [shows] using concludes
  | some slot =>
    rw [shows] at concludes
    have home : (Origin.slot slot).Inside (· ≤ bound) := ⟨slot.env, rfl, by rw [env_of_final? shows]; exact within⟩
    exact (chained.comes_below above same (by simp) (by simp) home concludes).1

/-! ### Above a stage -/

/-- What corresponds from above: what the tools' handle on a stage shows under a name, and what
    was known before. -/
inductive Border (base top : Nat) (world other : World) : Origin → Origin → Prop where
  | tool {name : String} {slot slot' : SlotId} (shows : world.final? ⟨top, some .tool⟩ name = some slot)
      (shows' : other.final? ⟨top, some .tool⟩ name = some slot') : Border base top world other (.slot slot) (.slot slot')
  | known {asked : Origin} (within : asked.Inside (· ≤ base)) : Border base top world other asked asked

/-- The tools of a stage have the same names and plain outcomes. -/
structure Tools (top : Nat) (world other : World) : Prop where
  shows : ∀ name, (other.final? ⟨top, some .tool⟩ name).isSome = (world.final? ⟨top, some .tool⟩ name).isSome
  concludes : ∀ name outcome, world.Concludes ⟨⟨top, some .tool⟩, name⟩ outcome →
    other.Concludes ⟨⟨top, some .tool⟩, name⟩ outcome ∧ Outcome.Plain outcome

section
variable (chained : world.Chained base) (chained' : other.Chained base) (inner : base < top) (tools : Tools top world other)
include chained chained' inner tools

private theorem comes_tool {stack : List Origin} (higher : ∀ origin ∈ stack, origin.Inside (top < ·)) {name : String}
    {slot slot' : SlotId} (shows : world.final? ⟨top, some .tool⟩ name = some slot)
    (shows' : other.final? ⟨top, some .tool⟩ name = some slot') (comes : world.Comes stack (.ask (.slot slot)) outcome) :
    other.Comes stack (.ask (.slot slot')) outcome ∧ Outcome.Plain outcome := by
  have home : (Origin.slot slot).Inside (· ≤ top) := ⟨slot.env, rfl, (env_of_final? shows).le⟩
  have home' : (Origin.slot slot').Inside (· ≤ top) := ⟨slot'.env, rfl, (env_of_final? shows').le⟩
  obtain ⟨alone, _⟩ : world.Comes [] (.ask (.slot slot)) outcome ∧ _ :=
    chained.comes_below inner.le (fun _ _ => rfl) higher (by simp) home comes
  have concludes : world.Concludes ⟨⟨top, some .tool⟩, name⟩ outcome := by simpa [Concludes, shows] using alone
  obtain ⟨concludes', plain⟩ := tools.concludes name outcome concludes
  have alone' : other.Comes [] (.ask (.slot slot')) outcome := by simpa [Concludes, shows'] using concludes'
  exact ⟨(chained'.comes_below inner.le (fun _ _ => rfl) (by simp) higher home' alone').1, plain⟩

variable (same : ∀ env, env ≠ top → other env = world env)
include same

/-- What corresponds comes to the same, also within computations above. -/
private theorem comes_border {asked' : Origin} (across : Border base top world other asked asked') {stack : List Origin}
    (higher : ∀ origin ∈ stack, origin.Inside (top < ·)) (comes : world.Comes stack (.ask asked) outcome) :
    other.Comes stack (.ask asked') outcome ∧
      Outcome.Keeps (fun view => top < view.env ∨ view = ⟨top, some .tool⟩ ∨ view.env ≤ base)
        (fun cell => cell.origin.Inside fun env => top < env ∨ env ≤ base) outcome := by
  cases across with
  | tool shows shows' =>
    obtain ⟨comes', plain⟩ := comes_tool chained chained' inner tools higher shows shows' comes
    exact ⟨comes', plain.keeps _ _⟩
  | known within =>
    have beyond : ∀ origin ∈ stack, origin.Inside (base < ·) :=
      fun origin member => (higher origin member).mono fun env above => inner.trans above
    obtain ⟨comes', keeps⟩ :=
      chained.comes_below le_rfl (fun env known => same env (known.trans_lt inner).ne) beyond beyond within comes
    refine ⟨comes', ?_, fun component is cell member => (keeps.cells component is cell member).mono fun env => Or.inr⟩
    cases outcome with
    | ok component => exact fun view member => Or.inr (Or.inr (keeps.views view member))
    | error error => trivial

variable (present : (other top).isSome = (world top).isSome)
include present

/-- All that is above a stage is mirrored, as long as the stage's tools are the same. -/
theorem mirrors_above : Mirrors world other (top < ·)
    (fun view => top < view.env ∨ view = ⟨top, some .tool⟩ ∨ view.env ≤ base)
    (fun cell => cell.origin.Inside fun env => top < env ∨ env ≤ base) (Border base top world other) [] [] where
  lawful := chained.upright.lawful
  same := fun env above => same env above.ne'
  whole := fun env above => Or.inl above
  own := fun origin number within => within.mono fun env => Or.inl
  definitions := by
    intro env environment above here name slot member
    refine ⟨chained.lawful env environment here name slot member _, ?_⟩
    refine chained.confined env environment here _ (fun view known => Or.inr (Or.inr known)) (fun below _ next => ?_) name slot member
    rcases Nat.lt_or_ge top below with higher | lower
    · exact Or.inl higher
    · have same : below = top := Nat.le_antisymm lower (Nat.lt_succ_iff.mp (above.trans_eq next))
      exact Or.inr (Or.inl (by rw [same]))
  present := by
    rintro view (above | rfl | known)
    · rw [same _ above.ne']
    · exact present
    · rw [same _ (known.trans_lt inner).ne]
  final := by
    rintro view name (above | rfl | known)
    · rw [final?_eq (same _ above.ne')]
      cases found : world.final? view name with
      | none => exact .none
      | some slot => exact .some (Or.inl ⟨⟨slot.env, rfl, by rw [env_of_final? found]; exact above⟩, rfl⟩)
    · have shows := tools.shows name
      cases found : world.final? ⟨top, some .tool⟩ name <;> cases found' : other.final? ⟨top, some .tool⟩ name <;>
        simp_all only [Option.isSome_none, Option.isSome_some, Bool.true_eq_false, Bool.false_eq_true]
      · exact .none
      · exact .some (Or.inr (.tool found found'))
    · rw [final?_eq (same _ (known.trans_lt inner).ne)]
      cases found : world.final? view name with
      | none => exact .none
      | some slot => exact .some (Or.inr (.known ⟨slot.env, rfl, by rw [env_of_final? found]; exact known⟩))
  earlier := by
    intro env name layer seen
    have differs : env ≠ top := by
      rintro rfl
      rcases seen with above | tool | known
      · exact absurd above (lt_irrefl _)
      · cases tool
      · exact absurd inner (not_lt.mpr known)
    have shown : other.earlier? env name layer = world.earlier? env name layer := by simp only [earlier?, same env differs]
    rw [shown]
    cases found : world.earlier? env name layer with
    | none => exact .none
    | some slot =>
      have home := env_of_earlier? found
      rcases seen with above | tool | known
      · exact .some (Or.inl ⟨⟨slot.env, rfl, by rw [home]; exact above⟩, rfl⟩)
      · cases tool
      · exact .some (Or.inr (.known ⟨slot.env, rfl, by rw [home]; exact known⟩))
  cells := by
    rintro cell ⟨env, home, above | known⟩
    · exact Or.inl ⟨⟨env, home, above⟩, rfl⟩
    · exact Or.inr (.known ⟨env, home, known⟩)
  yields := by
    intro asked asked' outcome across yields
    obtain ⟨comes', keeps⟩ := comes_border chained chained' inner tools same across (by simp) (yields.comes (.singleton _))
    have granted : other.Grants asked' outcome := comes'.grants chained'.upright.lawful ⟨rfl, .singleton _⟩
    have plain := yields.not_isCycle chained.upright.lawful
    rcases granted with yields' | ⟨cycle, _⟩
    · exact ⟨yields', keeps⟩
    · simp [plain] at cycle
  comes := by
    intro asked asked' outcome stack across higher comes
    simpa using comes_border chained chained' inner tools same across higher (by simpa using comes)
  apart := by simp
  apart' := by simp

/-- What an inquiry above comes to does not depend on what the stage is made of. -/
theorem concludes_above (higher : top < inquiry.view.env) (concludes : world.Concludes inquiry outcome) :
    other.Concludes inquiry outcome := by
  unfold Concludes at concludes ⊢
  rw [final?_eq (same _ higher.ne')]
  cases shows : world.final? inquiry.view inquiry.name with
  | none => simpa [shows] using concludes
  | some slot =>
    rw [shows] at concludes
    have home : (Origin.slot slot).Inside (top < ·) := ⟨slot.env, rfl, by rw [env_of_final? shows]; exact higher⟩
    have mirrors := mirrors_above chained chained' inner tools same present
    exact (mirrors.comes_inside concludes (List.nil_append _).symm (by simp) home).1

end
end Chained
end World

namespace StageSpec
variable {spec : StageSpec} {registry : Registry} {tools : Option View}

theorem sealed_environment (spec : StageSpec) (registry : Registry) (tools : Option View) :
    (spec.environment registry tools).Sealed := by
  have platforms := (((Environment.sealed_ofRegistry spec.label registry).base Stage.buildPlatformEntry .library
    (.value (.text spec.triple.build.name))).base Stage.hostPlatformEntry .library
    (.value (.text spec.triple.host.name))).base Stage.targetPlatformEntry .library (.value (.text spec.triple.target.name))
  cases tools with
  | none => exact platforms.apply _
  | some view => exact (platforms.base _ _ _).apply _

/-- What a stage supplies are texts and the tools that it is given. -/
theorem supplied_cases {entry : String × Component} (member : entry ∈ spec.supplied tools) :
    (∃ content, entry.2 = .text content) ∨ ∃ view ∈ tools, entry.2 = .scope view := by
  rcases List.mem_append.mp member with platform | given
  · simp only [List.mem_cons, List.not_mem_nil, or_false] at platform
    rcases platform with rfl | rfl | rfl <;> exact Or.inl ⟨_, rfl⟩
  · obtain ⟨view, inside, rfl⟩ := List.mem_map.mp given
    exact Or.inr ⟨view, Option.mem_toList.mp inside, rfl⟩

/-- What holds of the call sites of the registry, of the entries that the stage supplies and of
    those of its overlays holds of its environment. -/
theorem every_environment {condition : Definition → Prop}
    (calls : ∀ entry ∈ registry.descriptors, condition (.call (.new entry.2)))
    (supplied : ∀ entry ∈ spec.supplied tools, condition (.value entry.2))
    (overlays : ∀ overlay ∈ spec.overlays, ∀ entry ∈ overlay.entries, condition entry.definition) :
    (spec.environment registry tools).Every condition := by
  have platforms := (((Environment.Every.ofRegistry spec.label calls).base Stage.buildPlatformEntry .library
    (supplied (Stage.buildPlatformEntry, .text spec.triple.build.name) (by simp [StageSpec.supplied]))).base
      Stage.hostPlatformEntry .library
    (supplied (Stage.hostPlatformEntry, .text spec.triple.host.name) (by simp [StageSpec.supplied]))).base
      Stage.targetPlatformEntry .library
    (supplied (Stage.targetPlatformEntry, .text spec.triple.target.name) (by simp [StageSpec.supplied]))
  cases tools with
  | none => exact platforms.apply overlays
  | some view =>
    exact (platforms.base Stage.buildPackagesEntry .library (supplied (Stage.buildPackagesEntry, .scope view)
      (by simp [StageSpec.supplied]))).apply overlays

end StageSpec

namespace StageGraph
variable {registry : Registry} {start : Machine} {specs specs' : List StageSpec}

/-- All that a chain is made of is proper: the registry, the overlays, and the environments that
    there were before, which are known to all of them. -/
structure Proper (registry : Registry) (start : Machine) (specs : List StageSpec) : Prop where
  registry : ∀ entry ∈ registry.descriptors,
    Definition.Proper (· ≤ start.environments.length) (.call (.new entry.2))
  overlays : ∀ spec ∈ specs, ∀ overlay ∈ spec.overlays, ∀ entry ∈ overlay.entries,
    entry.definition.Proper (· ≤ start.environments.length)
  start : ∀ env environment, start.environment? env = some environment →
    environment.Sealed ∧ environment.Every (Definition.Proper (· ≤ start.environments.length))

/-- An environment was there before, or is that of a spec. -/
theorem environment?_installed_cases (registry : Registry) (start : Machine) (specs : List StageSpec) (env : Nat) :
    env ≤ start.environments.length ∧ (installed registry start specs).environment? env = start.environment? env ∨
      ∃ index, env = start.environments.length + index + 1 ∧ (installed registry start specs).environment? env =
        (specs[index]?).map fun spec => spec.environment registry (supplier start.environments.length index) := by
  rcases Nat.lt_or_ge start.environments.length env with above | within
  · obtain ⟨index, rfl⟩ := Nat.exists_eq_add_of_lt above
    refine Or.inr ⟨index, rfl, ?_⟩
    simp only [Machine.environment?, installed]
    rw [List.getElem?_append_right (Nat.le_add_right _ _), Nat.add_sub_cancel_left, List.getElem?_mapIdx]
    cases specs[index]? <;> rfl
  · refine Or.inl ⟨within, ?_⟩
    cases env with
    | zero => rfl
    | succ place =>
      simp only [Machine.environment?, installed]
      rw [List.getElem?_append_left (Nat.lt_of_succ_le within)]

/-- The stages of a chain see, beside what was there before, the tools of the one before only. -/
theorem chained_installed (proper : Proper registry start specs) :
    World.Chained start.environments.length (installed registry start specs).environment? := by
  have every {condition : Definition → Prop} {index : Nat} {spec : StageSpec} (at' : specs[index]? = some spec)
      (all : ∀ definition, Definition.Proper (· ≤ start.environments.length) definition → condition definition)
      (values : ∀ entry ∈ spec.supplied (supplier start.environments.length index), condition (.value entry.2)) :
      (spec.environment registry (supplier start.environments.length index)).Every condition := by
    refine StageSpec.every_environment (fun entry member => all _ (proper.registry entry member)) values ?_
    intro overlay member entry inside
    exact all _ (proper.overlays spec (List.mem_of_getElem? at') overlay member entry inside)
  refine ⟨fun env environment here => ?_, fun env environment here => ?_, fun env environment here sees known tools => ?_⟩
  · rcases environment?_installed_cases registry start specs env with ⟨_, same⟩ | ⟨index, _, same⟩
    · exact (proper.start env environment (same.symm.trans here)).1
    · obtain ⟨spec, _, rfl⟩ := Option.map_eq_some_iff.mp (same.symm.trans here)
      exact spec.sealed_environment registry _
  · rcases environment?_installed_cases registry start specs env with ⟨_, same⟩ | ⟨index, _, same⟩
    · exact fun name slot member => ((proper.start env environment (same.symm.trans here)).2 name slot member).lawful
    · obtain ⟨spec, at', rfl⟩ := Option.map_eq_some_iff.mp (same.symm.trans here)
      refine every at' (fun definition proper => proper.lawful) fun entry member given => ?_
      rcases StageSpec.supplied_cases member with ⟨content, is⟩ | ⟨view, _, is⟩ <;>
        simp [is, Definition.Lawful, Component.text, Component.cells]
  · rcases environment?_installed_cases registry start specs env with ⟨_, same⟩ | ⟨index, place, same⟩
    · exact fun name slot member =>
        ((proper.start env environment (same.symm.trans here)).2 name slot member).confined sees known
    · obtain ⟨spec, at', rfl⟩ := Option.map_eq_some_iff.mp (same.symm.trans here)
      refine every at' (fun definition proper => proper.confined sees known) fun entry member => ?_
      rcases StageSpec.supplied_cases member with ⟨content, is⟩ | ⟨view, given, is⟩
      · simp [is, Definition.Confined, Component.Sees, Component.text, Component.views]
      · cases index with
        | zero => cases given
        | succ earlier =>
          cases given
          have shown : sees ⟨start.environments.length + earlier + 1, some .tool⟩ :=
            tools (start.environments.length + earlier + 1) (by omega) place
          simpa [is, Definition.Confined, Component.Sees, Component.views] using shown

/-! ### Other overlays -/

/-- Two lists of specs have the same labels and platforms in the same places. -/
def Alike (specs specs' : List StageSpec) : Prop :=
  ∀ index : Nat, (specs'[index]?).map (fun spec => (spec.label, spec.triple)) =
    (specs[index]?).map fun spec => (spec.label, spec.triple)

theorem Alike.symm (alike : Alike specs specs') : Alike specs' specs := fun index => (alike index).symm

theorem Alike.getElem? (alike : Alike specs specs') {index : Nat} {spec : StageSpec} (at' : specs[index]? = some spec) :
    ∃ spec', specs'[index]? = some spec' ∧ spec'.label = spec.label ∧ spec'.triple = spec.triple := by
  have same := alike index
  rw [at', Option.map_some, Option.map_eq_some_iff] at same
  obtain ⟨spec', there, equal⟩ := same
  exact ⟨spec', there, (Prod.mk.inj equal).1, (Prod.mk.inj equal).2⟩

/-- Which specs are rejected depends on labels and platforms only. -/
theorem Rejected.alike {index : Nat} {error : ComposeError} (rejected : Rejected specs index error)
    (alike : Alike specs specs') : Rejected specs' index error := by
  cases rejected with
  | duplicate at' before taken same =>
    obtain ⟨spec, there, label, _⟩ := alike.getElem? at'
    obtain ⟨other, taken', label', _⟩ := alike.getElem? taken
    rw [← label]
    exact .duplicate there before taken' (by rw [label', same, label])
  | mismatch at' fresh last differs =>
    obtain ⟨spec, there, label, triple⟩ := alike.getElem? at'
    obtain ⟨previous, last', _, triple'⟩ := alike.getElem? last
    rw [← label, ← triple, ← triple']
    refine .mismatch there (fun earlier below other taken same => ?_) last' (by rw [triple, triple']; exact differs)
    obtain ⟨other', taken', label', _⟩ := alike.symm.getElem? taken
    exact fresh earlier below other' taken' (by rw [label', same, label])

theorem chain_alike (before : Nat) (alike : Alike specs specs') : chain before specs' = chain before specs := by
  refine congrArg StageGraph.mk (List.ext_getElem? fun index => ?_)
  rw [List.getElem?_mapIdx, List.getElem?_mapIdx]
  cases at' : specs[index]? with
  | none =>
    have same := alike index
    rw [at', Option.map_none, Option.map_eq_none_iff] at same
    rw [same]
  | some spec =>
    obtain ⟨spec', there, label, triple⟩ := alike.getElem? at'
    simp [there, wired, label, triple]

/-- Specs that differ from some in overlays are built as those are, to the same stages. -/
theorem build_alike (alike : Alike specs specs') {machine : Machine} {graph : StageGraph}
    (built : build registry start specs = .ok (machine, graph)) :
    build registry start specs' = .ok (installed registry start specs', graph) := by
  obtain ⟨inhabited, accepted, _, rfl⟩ := build_eq_ok_iff.mp built
  refine build_eq_ok_iff.mpr ⟨?_, fun index error rejected => accepted index error (rejected.alike alike.symm), rfl,
    (chain_alike _ alike).symm⟩
  rintro rfl
  cases specs with
  | nil => exact inhabited rfl
  | cons first rest =>
    obtain ⟨_, absurd, _⟩ := alike.getElem? (show (first :: rest)[0]? = some first from rfl)
    cases absurd

/-- The specs with other overlays for the stage of a place. -/
def redone (specs : List StageSpec) (place : Nat) (overlays : List Overlay) : List StageSpec :=
  specs.modify place fun spec => { spec with overlays }

theorem alike_redone (specs : List StageSpec) (place : Nat) (overlays : List Overlay) :
    Alike specs (redone specs place overlays) := by
  intro index
  rw [redone, List.getElem?_modify]
  cases specs[index]? with
  | none => rfl
  | some spec => by_cases same : place = index <;> simp [same]

theorem Proper.redone {place : Nat} {overlays : List Overlay} (proper : Proper registry start specs)
    (proper' : ∀ overlay ∈ overlays, ∀ entry ∈ overlay.entries,
      entry.definition.Proper (· ≤ start.environments.length)) :
    Proper registry start (redone specs place overlays) := by
  refine ⟨proper.registry, fun spec member => ?_, proper.start⟩
  obtain ⟨index, at'⟩ := List.getElem?_of_mem member
  rw [StageGraph.redone, List.getElem?_modify] at at'
  obtain ⟨original, there, rfl⟩ := Option.map_eq_some_iff.mp at'
  by_cases same : place = index
  · simpa [same] using proper'
  · simpa [same] using proper.overlays original (List.mem_of_getElem? there)

/-- Other overlays of a stage leave the environments of the others as they are. -/
theorem environment?_redone (registry : Registry) (start : Machine) (specs : List StageSpec) {place : Nat}
    (overlays : List Overlay) {env : Nat} (apart : env ≠ start.environments.length + place + 1) :
    (installed registry start (redone specs place overlays)).environment? env =
      (installed registry start specs).environment? env := by
  rcases environment?_installed_cases registry start specs env with ⟨known, same⟩ | ⟨index, rfl, same⟩
  · rcases environment?_installed_cases registry start (redone specs place overlays) env with ⟨_, same'⟩ | ⟨index, is, _⟩
    · rw [same, same']
    · omega
  · have elsewhere : place ≠ index := by
      rintro rfl
      exact apart rfl
    cases at' : specs[index]? with
    | none =>
      rcases environment?_installed_cases registry start (redone specs place overlays)
        (start.environments.length + index + 1) with ⟨known, _⟩ | ⟨index', is, same'⟩
      · omega
      · obtain rfl : index = index' := by omega
        rw [same, same', redone, List.getElem?_modify, at']
        rfl
    | some spec =>
      have there : (redone specs place overlays)[index]? = some spec := by
        simp [redone, at', elsewhere]
      rw [environment?_installed at', environment?_installed there]

end StageGraph

/-- An inquiry comes to the same outcomes on two machines. -/
def Machine.Agrees (machine other : Machine) (inquiry : Inquiry) : Prop :=
  ∀ outcome, (∃ last, machine.Gets inquiry outcome last) ↔ ∃ last, other.Gets inquiry outcome last

/-- A handle shows the same names on two machines, all of them with the same plain outcomes. -/
structure Machine.Matches (machine other : Machine) (view : View) : Prop where
  shows : ∀ name, (other.top? view name).isSome = (machine.top? view name).isSome
  agrees : ∀ name, machine.Agrees other ⟨view, name⟩
  plain : ∀ name outcome last, machine.Gets ⟨view, name⟩ outcome last → Outcome.Plain outcome

theorem Machine.Matches.symm {machine other : Machine} {view : View} (match' : machine.Matches other view) :
    other.Matches machine view where
  shows := fun name => (match'.shows name).symm
  agrees := fun name outcome => (match'.agrees name outcome).symm
  plain := fun name outcome last gets => by
    obtain ⟨last', gets'⟩ := (match'.agrees name outcome).mpr ⟨last, gets⟩
    exact match'.plain name outcome last' gets'

namespace StageGraph

section
variable {registry : Registry} {start : Machine} {specs : List StageSpec}

theorem fresh_installed (fresh : start.Fresh) (registry : Registry) (specs : List StageSpec) :
    (installed registry start specs).Fresh := ⟨fresh.slots, fresh.cells, fresh.waits⟩

theorem stage_of_chain {before : Nat} {stage : Stage} (member : stage ∈ (chain before specs).stages) :
    stage.index < specs.length ∧ stage.env = before + stage.index + 1 := by
  obtain ⟨index, at'⟩ := List.getElem?_of_mem member
  simp only [chain, List.getElem?_mapIdx] at at'
  obtain ⟨spec, there, rfl⟩ := Option.map_eq_some_iff.mp at'
  exact ⟨(List.getElem?_eq_some_iff.mp there).1, rfl⟩

/-- What matches on machines without a memory matches in their environments. -/
private theorem tools_of_matches {machine other : Machine} {base place : Nat} (fresh : machine.Fresh) (fresh' : other.Fresh)
    (chained : World.Chained base machine.environment?) (chained' : World.Chained base other.environment?)
    (match' : machine.Matches other ⟨place, some .tool⟩) :
    World.Chained.Tools place machine.environment? other.environment? := by
  refine ⟨fun name => ?_, fun name outcome concludes => ?_⟩
  · rw [← Machine.top?_eq_final? rfl chained'.before, ← Machine.top?_eq_final? rfl chained.before]
    exact match'.shows name
  · obtain ⟨last, gets⟩ := (fresh.gets_iff chained.upright chained.before).mpr concludes
    refine ⟨(fresh'.gets_iff chained'.upright chained'.before).mp ((match'.agrees name outcome).mp ⟨last, gets⟩), ?_⟩
    exact match'.plain name outcome last gets

/-- Of the machines of two chains, one comes to what the other does above a stage with the same tools. -/
private theorem gets_above {machine other : Machine} {base place : Nat} {inquiry : Inquiry} {outcome : Outcome}
    (fresh : machine.Fresh) (fresh' : other.Fresh) (chained : World.Chained base machine.environment?)
    (chained' : World.Chained base other.environment?) (inner : base < place)
    (same : ∀ env, env ≠ place → other.environment? env = machine.environment? env)
    (present : (other.environment? place).isSome = (machine.environment? place).isSome)
    (match' : machine.Matches other ⟨place, some .tool⟩) (higher : place < inquiry.view.env) :
    (∃ last, machine.Gets inquiry outcome last) → ∃ last, other.Gets inquiry outcome last := by
  rw [fresh.gets_iff chained.upright chained.before, fresh'.gets_iff chained'.upright chained'.before]
  exact chained.concludes_above chained' inner (tools_of_matches fresh fresh' chained chained' match') same present higher

/-- With other overlays for one stage, a chain is built to the same stages. Those before it come
    to the same outcomes, and so do those after it if its tools show the same names with the
    same outcomes and these are data, derivations or errors. -/
theorem build_isolates (place : Nat) {overlays : List Overlay} {machine : Machine} {graph : StageGraph}
    (fresh : start.Fresh) (proper : Proper registry start specs)
    (proper' : ∀ overlay ∈ overlays, ∀ entry ∈ overlay.entries,
      entry.definition.Proper (· ≤ start.environments.length))
    (built : build registry start specs = .ok (machine, graph)) :
    ∃ other, build registry start (redone specs place overlays) = .ok (other, graph) ∧
      (∀ stage ∈ graph.stages, stage.index < place →
        ∀ role name, machine.Agrees other ⟨⟨stage.env, role⟩, name⟩) ∧
      ∀ changed ∈ graph.stages, changed.index = place → machine.Matches other changed.tools →
        ∀ stage ∈ graph.stages, place < stage.index →
          ∀ role name, machine.Agrees other ⟨⟨stage.env, role⟩, name⟩ := by
  have alike := alike_redone specs place overlays
  refine ⟨_, build_alike alike built, ?_⟩
  obtain ⟨_, _, rfl, rfl⟩ := build_eq_ok_iff.mp built
  have fresh' := fresh_installed fresh registry specs
  have fresh'' := fresh_installed fresh registry (redone specs place overlays)
  have chained := chained_installed proper
  have chained' := chained_installed (proper.redone proper' : Proper registry start (redone specs place overlays))
  have same (env : Nat) (apart : env ≠ start.environments.length + place + 1) :=
    environment?_redone registry start specs overlays apart
  constructor
  · intro stage member earlier role name outcome
    obtain ⟨_, home⟩ := stage_of_chain member
    have within : stage.env ≤ start.environments.length + place := home.trans_le (Nat.add_le_add_left earlier _)
    have below (env : Nat) (lower : env ≤ start.environments.length + place) := same env (by omega)
    rw [fresh'.gets_iff chained.upright chained.before, fresh''.gets_iff chained'.upright chained'.before]
    constructor
    · exact chained.concludes_below (Nat.le_add_right _ _) below within
    · exact chained'.concludes_below (Nat.le_add_right _ _) (fun env lower => (below env lower).symm) within
  · intro changed there at' match' stage member later role name outcome
    obtain ⟨inside, home⟩ := stage_of_chain there
    obtain ⟨_, home'⟩ := stage_of_chain member
    subst at'
    have inner : start.environments.length < changed.env :=
      (Nat.lt_succ_of_le (Nat.le_add_right _ _)).trans_eq home.symm
    have higher : changed.env < stage.env := by
      rw [home, home']
      exact Nat.succ_lt_succ (Nat.add_lt_add_left later _)
    have apart (env : Nat) (differs : env ≠ changed.env) := same env (home ▸ differs)
    have present : ((installed registry start (redone specs changed.index overlays)).environment? changed.env).isSome =
        ((installed registry start specs).environment? changed.env).isSome := by
      obtain ⟨spec, found⟩ : ∃ spec, specs[changed.index]? = some spec := ⟨_, List.getElem?_eq_getElem inside⟩
      obtain ⟨spec', found', _⟩ := alike.getElem? found
      rw [home, environment?_installed found, environment?_installed found']
      rfl
    constructor
    · exact gets_above fresh' fresh'' chained chained' inner apart present match' higher
    · exact gets_above fresh'' fresh' chained' chained inner (fun env differs => (apart env differs).symm) present.symm
        match'.symm higher

end

/-! ### Another library for the same compiler -/

namespace Relinked

/-- A compiler that needs a library, and a program that the compiler of the stage before makes. -/
def registry : Registry :=
  ⟨[("compiler", (Descriptor.new "compiler" .tool fun inputs =>
        .andThen (inputs.get "runtime") fun _ => .pure (.text "cc")).requires "runtime"),
    ("program", (Descriptor.new "program" .artifact fun inputs =>
        .andThen (inputs.get "buildPackages") fun
          | .scope view => .get view "compiler" .done
          | _ => .fail (inputs.failure "no packages")).requires "buildPackages"),
    ("runtime", .new "runtime" .library fun _ => .pure (.text "one"))]⟩

/-- Two stages on one platform. -/
def specs : List StageSpec := [Cross.native, ⟨"stage2", .native Cross.here, []⟩]

/-- Another library for the compiler of the first stage. -/
def overlays : List Overlay := [⟨"relinked", [.value "runtime" (.text "two")]⟩]

/-- The tools of the first stage. -/
def tools : View := ⟨1, some .tool⟩

/-- A text refers to nothing. -/
theorem proper_text (known : EnvId → Prop) (content : String) : Definition.Proper known (.value (.text content)) :=
  ⟨fun given => by simp [Definition.Lawful, Component.text, Component.cells],
    fun sees _ => by simp [Definition.Confined, Component.Sees, Component.text, Component.views]⟩

theorem proper : Proper registry .empty specs := by
  refine ⟨fun entry member => ?_, fun spec member overlay inside => ?_, fun env environment here => ?_⟩
  · have text (content : String) (given : CellId → Prop) : (Demand.pure (.text content)).Lawful given none := by
      simp [Demand.pure, Demand.Lawful, Component.text, Component.cells]
    have text' (content : String) (sees : View → Prop) : (Demand.pure (.text content)).Confined sees := by
      simp [Demand.pure, Demand.Confined, Outcome.Sees, Component.Sees, Component.text, Component.views]
    simp only [registry, List.mem_cons, List.not_mem_nil, or_false] at member
    rcases member with rfl | rfl | rfl
    · refine ⟨fun given => ⟨fun inputs known => ?_, ?_, ?_⟩, fun sees _ => ⟨fun inputs seen => ?_, ?_, ?_⟩⟩
      · exact (known.get _).andThen fun _ _ => text "cc" given
      · rintro input default ⟨⟩
      · rintro input component ⟨⟩
      · exact (seen.get _).andThen fun _ _ => text' "cc" sees
      · rintro input default ⟨⟩
      · rintro input component ⟨⟩
    · refine ⟨fun given => ⟨fun inputs known => ?_, ?_, ?_⟩, fun sees _ => ⟨fun inputs seen => ?_, ?_, ?_⟩⟩
      · refine (known.get _).andThen fun component _ => ?_
        cases component with
        | scope view => exact ⟨fun _ => id, fun _ => rfl⟩
        | _ => rfl
      · rintro input default ⟨⟩
      · rintro input component ⟨⟩
      · refine (seen.get _).andThen fun component shown => ?_
        cases component with
        | scope view => exact ⟨shown view (by simp [Component.views]), fun _ => id⟩
        | _ => trivial
      · rintro input default ⟨⟩
      · rintro input component ⟨⟩
    · refine ⟨fun given => ⟨fun inputs known => text "one" given, ?_, ?_⟩,
        fun sees _ => ⟨fun inputs seen => text' "one" sees, ?_, ?_⟩⟩
      · rintro input default ⟨⟩
      · rintro input component ⟨⟩
      · rintro input default ⟨⟩
      · rintro input component ⟨⟩
  · simp only [specs, List.mem_cons, List.not_mem_nil, or_false] at member
    rcases member with rfl | rfl <;> cases inside
  · cases env <;> cases here

theorem proper_overlays : ∀ overlay ∈ overlays, ∀ entry ∈ overlay.entries, entry.definition.Proper (· ≤ 0) := by
  intro overlay member entry inside
  simp only [overlays, List.mem_singleton] at member
  subst member
  simp only [List.mem_singleton] at inside
  subst inside
  exact proper_text _ _

end Relinked

namespace Relinked

/-- The stages as they are. -/
def machine : Machine := installed registry .empty specs

/-- The stages with the other library. -/
def other : Machine := installed registry .empty (redone specs 0 overlays)

/-- The first stage shows one tool, with either library. -/
theorem hidden {name : String} (apart : name ≠ "compiler") :
    machine.top? tools name = none ∧ other.top? tools name = none := by
  have missing {machine : Machine} {environment : Environment} (here : machine.environment? 1 = some environment)
      (names : environment.names (some .tool) = ["compiler"]) : machine.top? tools name = none := by
    cases shows : environment.top? (some .tool) name with
    | none => simp [Machine.top?, tools, here, shows]
    | some slot =>
      have listed := Environment.mem_names shows
      rw [names, List.mem_singleton] at listed
      exact absurd listed apart
  have here : machine.environment? 1 = some (specs[0].environment registry none) := rfl
  have there : other.environment? 1 = some ((redone specs 0 overlays)[0].environment registry none) := rfl
  exact ⟨missing here rfl, missing there rfl⟩

/-- The compiler is the same with either library. -/
theorem matches_tools : machine.Matches other tools := by
  have missing {machine : Machine} {name : String} (hides : machine.top? tools name = none) :
      machine.Gets ⟨tools, name⟩ (.error (.notFound name)) machine :=
    ⟨3, by simp [Machine.finish, Machine.standing, Machine.step, Inquiry.demand, Thread.start, Machine.meet, hides,
      Thread.turn]⟩
  have both (name : String) : ∃ outcome, Outcome.Plain outcome ∧ (∃ last, machine.Gets ⟨tools, name⟩ outcome last) ∧
      ∃ last, other.Gets ⟨tools, name⟩ outcome last := by
    by_cases same : name = "compiler"
    · subst same
      exact ⟨.ok (.text "cc"), trivial, ⟨_, 40, rfl⟩, _, 40, rfl⟩
    · exact ⟨.error (.notFound name), trivial, ⟨_, missing (hidden same).1⟩, _, missing (hidden same).2⟩
  refine ⟨fun name => ?_, fun name outcome => ?_, fun name outcome last gets => ?_⟩
  · by_cases same : name = "compiler"
    · subst same
      rfl
    · rw [(hidden same).1, (hidden same).2]
  · obtain ⟨found, _, ⟨_, gets⟩, _, gets'⟩ := both name
    constructor
    · rintro ⟨_, also⟩
      exact gets.unique also ▸ ⟨_, gets'⟩
    · rintro ⟨_, also⟩
      exact gets'.unique also ▸ ⟨_, gets⟩
  · obtain ⟨found, plain, ⟨_, also⟩, _⟩ := both name
    exact also.unique gets ▸ plain

end Relinked

/-- The library of the first stage is another one, and the second stage, whose program is made by
    the compiler that needs the library, cannot tell. -/
theorem build_isolates_relinked :
    ∃ machine other graph, build Relinked.registry .empty Relinked.specs = .ok (machine, graph) ∧
      build Relinked.registry .empty (redone Relinked.specs 0 Relinked.overlays) = .ok (other, graph) ∧
      (∃ last, machine.Gets ⟨.whole 1, "runtime"⟩ (.ok (.text "one")) last) ∧
      (∃ last, other.Gets ⟨.whole 1, "runtime"⟩ (.ok (.text "two")) last) ∧
      machine.Matches other Relinked.tools ∧ machine.Agrees other ⟨.whole 2, "program"⟩ ∧
      ∃ last, other.Gets ⟨.whole 2, "program"⟩ (.ok (.text "cc")) last := by
  have fresh : Machine.empty.Fresh := ⟨fun _ => rfl, rfl, rfl⟩
  have built : build Relinked.registry .empty Relinked.specs = .ok (Relinked.machine, chain 0 Relinked.specs) := rfl
  obtain ⟨other, built', _, above⟩ := build_isolates 0 fresh Relinked.proper Relinked.proper_overlays built
  obtain rfl : other = Relinked.other := (Prod.mk.inj (Except.ok.inj (built'.symm.trans rfl))).1
  have agrees : Relinked.machine.Agrees Relinked.other ⟨.whole 2, "program"⟩ :=
    above _ (List.mem_cons_self ..) rfl Relinked.matches_tools _ (List.mem_cons_of_mem _ (List.mem_cons_self ..)) Nat.one_pos none
      "program"
  refine ⟨_, _, _, built, built', ⟨_, 40, rfl⟩, ⟨_, 40, rfl⟩, Relinked.matches_tools, agrees, ?_⟩
  exact (agrees (.ok (.text "cc"))).mp ⟨_, 80, rfl⟩

end StageGraph
end Pkgset

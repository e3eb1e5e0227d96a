import Pkgset.Proofs.Compose.Confinement
import Pkgset.Proofs.Compose.Reckoning

/-!
# Environments that mirror each other

Two collections of environments may have a part in common that looks at the rest through
some handles only. If what those show has the same outcomes in both, then so has the whole
part: its computations go the same way in both, whatever the rest does behind the handles.
-/

namespace Pkgset

/-- The environment whose definition a computation serves. -/
def Origin.home? : Origin → Option EnvId
  | .outside => none
  | .slot id => some id.env
  | .cell origin _ => home? origin

/-- A computation serves a definition of some environments. -/
def Origin.Inside (inside : EnvId → Prop) (origin : Origin) : Prop := ∃ env ∈ origin.home?, inside env

/-- An outcome refers to handles that are seen and to cells that are held only. -/
structure Outcome.Keeps (sees : View → Prop) (holds : CellId → Prop) (outcome : Outcome) : Prop where
  views : Outcome.Sees sees outcome
  cells : ∀ component, outcome = .ok component → ∀ cell ∈ component.cells, holds cell

theorem Outcome.keeps_error (sees : View → Prop) (holds : CellId → Prop) (error : ComposeError) :
    Outcome.Keeps sees holds (.error error) := ⟨trivial, fun _ absurd => by cases absurd⟩

namespace World

/-- A computation corresponds to itself if it is inside, or to another one across the border. -/
def Matches (inside : EnvId → Prop) (border : Origin → Origin → Prop) (origin other : Origin) : Prop :=
  origin.Inside inside ∧ other = origin ∨ border origin other

/-- The environments inside are the same in both worlds. They see handles that show in both
    what corresponds, and what corresponds across the border has the same outcomes, also
    within computations inside and those that all of this is within. -/
structure Mirrors (world other : World) (inside : EnvId → Prop) (sees : View → Prop) (holds : CellId → Prop)
    (border : Origin → Origin → Prop) (outer outer' : List Origin) : Prop where
  lawful : world.Lawful
  same : ∀ env, inside env → other env = world env
  whole : ∀ env, inside env → sees (.whole env)
  own : ∀ origin number, origin.Inside inside → holds ⟨origin, number⟩
  definitions : ∀ env environment, inside env → world env = some environment →
    environment.Every fun definition => definition.Lawful holds ∧ definition.Confined sees
  present : ∀ view, sees view → (other view.env).isSome = (world view.env).isSome
  final : ∀ view name, sees view → Option.Rel
    (fun slot slot' => Matches inside border (.slot slot) (.slot slot')) (world.final? view name) (other.final? view name)
  earlier : ∀ env name layer, sees (.whole env) → Option.Rel
    (fun slot slot' => Matches inside border (.slot slot) (.slot slot'))
    (world.earlier? env name layer) (other.earlier? env name layer)
  cells : ∀ cell, holds cell → Matches inside border cell.computation cell.computation
  yields : ∀ asked asked' outcome, border asked asked' → world.Yields asked outcome →
    other.Yields asked' outcome ∧ Outcome.Keeps sees holds outcome
  comes : ∀ asked asked' outcome stack, border asked asked' → (∀ origin ∈ stack, origin.Inside inside) →
    world.Comes (stack ++ outer) (.ask asked) outcome →
      other.Comes (stack ++ outer') (.ask asked') outcome ∧ Outcome.Keeps sees holds outcome
  apart : ∀ origin ∈ outer, ¬ origin.Inside inside
  apart' : ∀ origin ∈ outer', ¬ origin.Inside inside

theorem env_of_final? {world : World} {view : View} {name : String} {slot : SlotId}
    (found : world.final? view name = some slot) : slot.env = view.env := by
  simp only [final?, Option.bind_eq_bind, Option.bind_eq_some_iff, Option.some.injEq] at found
  obtain ⟨_, _, _, _, rfl⟩ := found
  rfl

theorem env_of_earlier? {world : World} {env : EnvId} {name : String} {layer : Nat} {slot : SlotId}
    (found : world.earlier? env name layer = some slot) : slot.env = env := by
  simp only [earlier?, Option.bind_eq_bind, Option.bind_eq_some_iff, Option.some.injEq] at found
  obtain ⟨_, _, _, _, rfl⟩ := found
  rfl

namespace Mirrors
variable {world other : World} {inside : EnvId → Prop} {sees : View → Prop} {holds : CellId → Prop}
  {border : Origin → Origin → Prop} {outer outer' : List Origin}
  {origin asked : Origin} {made made' : Nat} {demand demand' : Demand} {raised : Option ComposeError}
  {next : Outcome → Demand} {outcome : Outcome}

/-! ### What comes of a demand -/

theorem react_further (mirrors : Mirrors world other inside sees holds border outer outer') (confined : demand.Confined sees)
    (follows : world.react origin made demand = .further made' demand') :
    other.react origin made demand = .further made' demand' := by
  cases demand with
  | get view name next =>
    have shown := mirrors.final view name confined.1
    simp only [react] at follows ⊢
    generalize world.final? view name = here at shown follows
    generalize other.final? view name = there at shown ⊢
    cases shown with
    | some matches' => cases follows
    | none => exact follows
  | prior env name layer next =>
    have shown := mirrors.earlier env name layer confined.1
    simp only [react] at follows ⊢
    generalize world.earlier? env name layer = here at shown follows
    generalize other.earlier? env name layer = there at shown ⊢
    cases shown with
    | some matches' => cases follows
    | none => exact follows
  | has view name next =>
    have shown := mirrors.final view name confined.1
    simp only [react] at follows ⊢
    generalize world.final? view name = here at shown follows
    generalize other.final? view name = there at shown ⊢
    cases shown <;> exact follows
  | hasPrior env name layer next =>
    have shown := mirrors.earlier env name layer confined.1
    simp only [react] at follows ⊢
    generalize world.earlier? env name layer = here at shown follows
    generalize other.earlier? env name layer = there at shown ⊢
    cases shown <;> exact follows
  | force reference next =>
    cases reference with
    | entry view name =>
      have present := mirrors.present view (confined.1 view (by simp [LazyRef.views]))
      simp only [react] at follows ⊢
      cases here : world view.env <;> cases there : other view.env <;> simp_all
    | ready component => exact follows
    | default input cell => cases follows
  | settle component next => cases component <;> exact follows
  | _ => exact follows

theorem react_question (mirrors : Mirrors world other inside sees holds border outer outer') (confined : demand.Confined sees)
    (lawful : demand.Lawful holds raised) (asks : world.react origin made demand = .question asked next) :
    ∃ asked', other.react origin made demand = .question asked' next ∧ Matches inside border asked asked' := by
  cases question_of_react asks with
  | @get view name slot next found =>
    have shown := mirrors.final view name confined.1
    simp only [react]
    rw [found] at shown
    generalize other.final? view name = there at shown ⊢
    cases shown with
    | some matches' => exact ⟨_, rfl, matches'⟩
  | @prior env name layer slot next found =>
    have shown := mirrors.earlier env name layer confined.1
    simp only [react]
    rw [found] at shown
    generalize other.earlier? env name layer = there at shown ⊢
    cases shown with
    | some matches' => exact ⟨_, rfl, matches'⟩
  | default input cell =>
    cases raised with
    | some error => exact lawful.elim
    | none => exact ⟨_, rfl, mirrors.cells cell (lawful.1 cell (by simp [LazyRef.cells]))⟩

/-- What follows on an answer keeps to what is seen and hands errors on. -/
private theorem answered (confined : demand.Confined sees) (lawful : demand.Lawful holds raised)
    (asks : world.react origin made demand = .question asked next) {answer : Outcome}
    (keeps : Outcome.Keeps sees holds answer) :
    (next answer).Confined sees ∧ ∃ raised, (next answer).Lawful holds raised ∧
      (Outcome.isCycle answer = false → (next answer).Lawful holds none) := by
  refine ⟨confined_of_question confined asks keeps.views, ?_⟩
  cases raised with
  | some error => exact absurd asks (not_asks_of_raised lawful)
  | none =>
    have replies := replies_of_question lawful asks
    cases answer with
    | ok component =>
      have lawful' := replies.1 component (keeps.cells component rfl)
      exact ⟨none, lawful', fun _ => lawful'⟩
    | error error => exact ⟨some error, replies.2 error, fun plain => (replies.2 error).of_raised plain⟩

private theorem settled_keeps (confined : (Demand.done outcome).Confined sees)
    (lawful : (Demand.done outcome).Lawful holds raised) : Outcome.Keeps sees holds outcome := by
  refine ⟨confined, ?_⟩
  rintro component rfl
  cases raised with
  | some error => cases lawful
  | none => exact lawful

/-! ### Meaning -/

private theorem definition_inside (mirrors : Mirrors world other inside sees holds border outer outer') {slot : SlotId}
    (within : inside slot.env) : other.definition slot = world.definition slot ∧
      (world.definition slot).Confined sees ∧ (world.definition slot).Lawful holds none := by
  unfold World.definition
  rw [mirrors.same slot.env within]
  refine ⟨rfl, ?_⟩
  split
  next found at' =>
    obtain ⟨environment, here, member⟩ := Option.bind_eq_some_iff.mp at'
    obtain ⟨lawful, confined⟩ :=
      mirrors.definitions slot.env environment within here slot.name found (List.mem_of_find?_eq_some member)
    exact ⟨confined.demand (mirrors.whole slot.env within), lawful.demand _⟩
  next => exact ⟨trivial, rfl⟩

private theorem fallback_inside (mirrors : Mirrors world other inside sees holds border outer outer') {input : String}
    {view : View} {body : Demand} (seen : sees view) (confined : body.Confined sees) (lawful : body.Lawful holds none) :
    other.fallback input view.env body = world.fallback input view.env body ∧
      (world.fallback input view.env body).Confined sees ∧ (world.fallback input view.env body).Lawful holds none := by
  have present := mirrors.present view seen
  unfold World.fallback
  cases here : world view.env <;> cases there : other view.env <;> simp_all [Demand.fail, Demand.Confined, Demand.Lawful,
    Outcome.Sees, ComposeError.isCycle]

theorem inside_of_cell {number : Nat} (within : (Origin.cell origin number).Inside inside) : origin.Inside inside := within

/-- A computation inside comes to the same demands in both worlds. -/
theorem reaches (mirrors : Mirrors world other inside sees holds border outer outer')
    (reaches : world.Reaches origin made demand) (within : origin.Inside inside) :
    other.Reaches origin made demand ∧ demand.Confined sees ∧ demand.Lawful holds none := by
  induction reaches with
  | definition slot =>
    obtain ⟨env, home, within⟩ := within
    cases home
    obtain ⟨same, kept⟩ := mirrors.definition_inside within
    exact ⟨same ▸ .definition slot, kept⟩
  | default allots ih =>
    obtain ⟨allots', confined, lawful⟩ := ih (inside_of_cell within)
    obtain ⟨same, kept⟩ := mirrors.fallback_inside confined.1 confined.2.1 lawful.1
    exact ⟨same ▸ .default allots', kept⟩
  | @further origin made made' demand demand' before follows ih =>
    obtain ⟨before', confined, lawful⟩ := ih within
    refine ⟨before'.further (mirrors.react_further confined follows), confined_of_further confined follows, ?_⟩
    exact lawful_of_further lawful follows fun _ _ _ _ _ => mirrors.own origin made within
  | @answer origin asked made made' demand next outcome before asks result ih ihResult =>
    obtain ⟨before', confined, lawful⟩ := ih within
    obtain ⟨asked', asks', pair⟩ := mirrors.react_question confined lawful asks
    have plain : Outcome.isCycle outcome = false := Yields.not_isCycle mirrors.lawful ⟨made', result⟩
    obtain ⟨⟨_, result'⟩, keeps⟩ : other.Yields asked' outcome ∧ Outcome.Keeps sees holds outcome := by
      rcases pair with ⟨within', rfl⟩ | across
      · obtain ⟨result', confined', lawful'⟩ := ihResult within'
        exact ⟨⟨_, result'⟩, settled_keeps confined' lawful'⟩
      · exact mirrors.yields asked asked' outcome across ⟨_, result⟩
    obtain ⟨confined', _, _, lawful'⟩ := answered confined lawful asks keeps
    exact ⟨before'.answer asks' result', confined', lawful' plain⟩

/-! ### Outcomes within others -/

private theorem starts (mirrors : Mirrors world other inside sees holds border outer outer') {body : Demand}
    (starts : world.Starts asked body) (within : asked.Inside inside) :
    other.Starts asked body ∧ body.Confined sees ∧ body.Lawful holds none := by
  cases starts with
  | definition slot =>
    obtain ⟨env, home, within⟩ := within
    cases home
    obtain ⟨same, kept⟩ := mirrors.definition_inside within
    exact ⟨same ▸ .definition slot, kept⟩
  | default allots =>
    obtain ⟨allots', confined, lawful⟩ := mirrors.reaches allots (inside_of_cell within)
    obtain ⟨same, kept⟩ := mirrors.fallback_inside confined.1 confined.2.1 lawful.1
    exact ⟨same ▸ .default allots', kept⟩

/-- The chain of a cycle is about the computations since its definition was entered. -/
private theorem since?_append {slot : SlotId} {slots : List SlotId} (member : slot ∈ slots) (others : List SlotId) :
    Thread.since? slot.env slot.name (slots ++ others) = Thread.since? slot.env slot.name slots := by
  induction slots with
  | nil => cases member
  | cons first rest ih =>
    simp only [List.cons_append, Thread.since?]
    split
    next => rfl
    next differs =>
      rcases List.mem_cons.mp member with rfl | later
      · exact absurd ⟨rfl, rfl⟩ differs
      · rw [ih later]

theorem circle_append {slot : SlotId} {stack : List Origin} (member : .slot slot ∈ stack) (others : List Origin) :
    circle (stack ++ others) slot = circle stack slot := by
  have listed : slot ∈ stack.filterMap Origin.slot? := List.mem_filterMap.mpr ⟨_, member, rfl⟩
  simp only [circle, List.filterMap_append, since?_append listed]

/-- A task is within computations inside: its demand keeps to what is seen and hands errors on. -/
def Keeps (inside : EnvId → Prop) (sees : View → Prop) (holds : CellId → Prop) (stack : List Origin) : Task → Prop
  | .meet _ demand => stack ≠ [] ∧ demand.Confined sees ∧ ∃ raised, demand.Lawful holds raised
  | .ask asked => asked.Inside inside

/-- A task inside comes to the same outcomes in both worlds. -/
theorem comes_inside (mirrors : Mirrors world other inside sees holds border outer outer') {stack : List Origin} {task : Task}
    (comes : world.Comes stack task outcome) : ∀ {within : List Origin}, stack = within ++ outer →
      (∀ origin ∈ within, origin.Inside inside) → Keeps inside sees holds within task →
        other.Comes (within ++ outer') task outcome ∧ Outcome.Keeps sees holds outcome := by
  induction comes with
  | settled outcome =>
    rintro within - - ⟨_, confined, raised, lawful⟩
    exact ⟨.settled outcome, settled_keeps confined lawful⟩
  | @further origin rest made made' demand demand' outcome follows _ ih =>
    rintro within parts all ⟨inhabited, confined, raised, lawful⟩
    have onwards := confined_of_further confined follows
    cases within with
    | nil => exact absurd rfl inhabited
    | cons first within =>
      cases parts
      have lawful' := lawful_of_further lawful follows fun _ _ _ _ _ => mirrors.own origin made (all origin (by simp))
      obtain ⟨comes', keeps⟩ := ih rfl all ⟨inhabited, onwards, raised, lawful'⟩
      exact ⟨.further (mirrors.react_further confined follows) comes', keeps⟩
  | @question origin asked rest made demand next answer outcome asks answers _ ihAnswer ih =>
    rintro within parts all ⟨inhabited, confined, raised, lawful⟩
    obtain ⟨asked', asks', pair⟩ := mirrors.react_question confined lawful asks
    obtain ⟨answers', kept⟩ : other.Comes (within ++ outer') (.ask asked') answer ∧ Outcome.Keeps sees holds answer := by
      rcases pair with ⟨inner, rfl⟩ | across
      · exact ihAnswer parts all inner
      · exact mirrors.comes asked asked' answer within across all (parts ▸ answers)
    obtain ⟨confined', raised', lawful', _⟩ := answered confined lawful asks kept
    obtain ⟨comes', keeps⟩ := ih parts all ⟨inhabited, confined', raised', lawful'⟩
    cases within with
    | nil => exact absurd rfl inhabited
    | cons first within =>
      cases parts
      exact ⟨.question asks' answers' comes', keeps⟩
  | @again stack slot member =>
    rintro within rfl all inner
    have member' : .slot slot ∈ within :=
      (List.mem_append.mp member).resolve_right fun beyond => mirrors.apart _ beyond inner
    rw [circle_append member']
    refine ⟨?_, Outcome.keeps_error ..⟩
    rw [← circle_append member' outer']
    exact .again (List.mem_append_left _ member')
  | @anew stack asked body outcome starts apart _ ih =>
    rintro within rfl all inner
    obtain ⟨starts', confined, lawful⟩ := mirrors.starts starts inner
    have apart' : asked ∉ within ++ outer' := by
      intro member
      rcases List.mem_append.mp member with member | beyond
      · exact apart (List.mem_append_left _ member)
      · exact mirrors.apart' _ beyond inner
    have all' : ∀ origin ∈ asked :: within, origin.Inside inside := by
      intro origin member
      rcases List.mem_cons.mp member with rfl | member
      · exact inner
      · exact all origin member
    obtain ⟨comes', keeps⟩ := ih rfl all' ⟨by simp, confined, none, lawful⟩
    exact ⟨.anew starts' apart' comes', keeps⟩

/-! ### Nothing beyond -/

section
variable (lawful : world.Lawful) (same : ∀ env, inside env → other env = world env)
  (definitions : ∀ env environment, inside env → world env = some environment → environment.Every fun definition =>
    (∀ given, definition.Lawful given) ∧ definition.Confined fun view => inside view.env)
  (apart : ∀ origin ∈ outer, ¬ origin.Inside inside) (apart' : ∀ origin ∈ outer', ¬ origin.Inside inside)
include lawful same definitions apart apart'

/-- Environments that see each other only mirror themselves in any world that has them. -/
theorem closed : Mirrors world other inside (fun view => inside view.env) (fun cell => cell.origin.Inside inside)
    (fun _ _ => False) outer outer' where
  lawful := lawful
  same := same
  whole := fun _ => id
  own := fun _ _ => id
  definitions := fun env environment within here name slot member =>
    have proper := definitions env environment within here name slot member
    ⟨proper.1 _, proper.2⟩
  present := fun view seen => by rw [same view.env seen]
  final := by
    intro view name seen
    have shown : other.final? view name = world.final? view name := by simp only [final?, same view.env seen]
    rw [shown]
    cases found : world.final? view name with
    | none => exact .none
    | some slot =>
      refine .some (Or.inl ⟨⟨view.env, ?_, seen⟩, rfl⟩)
      simp [Origin.home?, env_of_final? found]
  earlier := by
    intro env name layer seen
    have shown : other.earlier? env name layer = world.earlier? env name layer := by simp only [earlier?, same env seen]
    rw [shown]
    cases found : world.earlier? env name layer with
    | none => exact .none
    | some slot =>
      refine .some (Or.inl ⟨⟨env, ?_, seen⟩, rfl⟩)
      simp [Origin.home?, env_of_earlier? found]
  cells := fun cell held => Or.inl ⟨held, rfl⟩
  yields := fun _ _ _ => False.elim
  comes := fun _ _ _ _ => False.elim
  apart := apart
  apart' := apart'

/-- What they come to does not depend on what all of them are within. -/
theorem comes_closed (within : asked.Inside inside) (comes : world.Comes outer (.ask asked) outcome) :
    other.Comes outer' (.ask asked) outcome ∧
      Outcome.Keeps (fun view => inside view.env) (fun cell => cell.origin.Inside inside) outcome :=
  (closed lawful same definitions apart apart').comes_inside comes (List.nil_append _).symm (by simp) within

end
end Mirrors
end World
end Pkgset

import Pkgset.Proofs.Compose.Course

/-!
# Computing without a memory

What a computation comes to when nothing is remembered: every question is computed anew,
within the computations that are in progress. A definition that is asked for while it is
in progress is an evaluation cycle, and so the error depends on those. Where a computation
has an outcome, it comes to it within any others that ask for it.
-/

namespace Pkgset
open Relation

/-- The definition that a computation is of, if it is of one. -/
def Origin.slot? : Origin → Option SlotId
  | .slot id => some id
  | _ => none

/-- What is left to do: to go on from a demand, with the number of cells made, or to answer
    what a computation comes to. -/
inductive Task where
  | meet (made : Nat) (demand : Demand)
  | ask (asked : Origin)

namespace World

/-- The chain of the cycle that a definition closes on computations in progress, the
    innermost first. -/
def circle (stack : List Origin) (slot : SlotId) : List String :=
  ((Thread.since? slot.env slot.name (stack.filterMap Origin.slot?)).map fun slots =>
    (slots.map (·.name)).reverse).getD [] ++ [slot.name]

/-- A computation starts with a demand. -/
inductive Starts (world : World) : Origin → Demand → Prop where
  | definition (slot : SlotId) : Starts world (.slot slot) (world.definition slot)
  | default {origin : Origin} {number : Nat} {input : String} {view : View} {body : Demand} {next : CellId → Demand}
      (allots : world.Reaches origin number (.allot input view body next)) :
      Starts world (.cell origin number) (world.fallback input view.env body)

/-- A task comes to an outcome within computations in progress, the innermost first. -/
inductive Comes (world : World) : List Origin → Task → Outcome → Prop where
  | settled {stack : List Origin} {made : Nat} (outcome : Outcome) : Comes world stack (.meet made (.done outcome)) outcome
  | further {origin : Origin} {outer : List Origin} {made made' : Nat} {demand demand' : Demand} {outcome : Outcome}
      (follows : world.react origin made demand = .further made' demand')
      (rest : Comes world (origin :: outer) (.meet made' demand') outcome) :
      Comes world (origin :: outer) (.meet made demand) outcome
  | question {origin asked : Origin} {outer : List Origin} {made : Nat} {demand : Demand} {next : Outcome → Demand}
      {answer outcome : Outcome} (asks : world.react origin made demand = .question asked next)
      (answers : Comes world (origin :: outer) (.ask asked) answer)
      (rest : Comes world (origin :: outer) (.meet made (next answer)) outcome) :
      Comes world (origin :: outer) (.meet made demand) outcome
  | again {stack : List Origin} {slot : SlotId} (within : .slot slot ∈ stack) :
      Comes world stack (.ask (.slot slot)) (.error (.evaluationCycle slot.name (circle stack slot)))
  | anew {stack : List Origin} {asked : Origin} {body : Demand} {outcome : Outcome} (starts : world.Starts asked body)
      (apart : asked ∉ stack) (comes : Comes world (asked :: stack) (.meet 0 body) outcome) :
      Comes world stack (.ask asked) outcome

variable {world : World} {stack outer : List Origin} {origin asked : Origin} {made made' : Nat}
  {demand demand' : Demand} {outcome : Outcome}

theorem Starts.reaches {body : Demand} (starts : world.Starts origin body) : world.Reaches origin 0 body := by
  cases starts with
  | definition slot => exact .definition slot
  | default allots => exact .default allots

theorem Starts.unique {body body' : Demand} (starts : world.Starts origin body) (starts' : world.Starts origin body') :
    body' = body := by
  cases starts with
  | definition slot =>
    cases starts'
    rfl
  | default allots =>
    cases starts' with
    | default allots' =>
      cases allots.allot_unique allots'
      rfl

/-- What a computation starts with leads to all that it comes to. -/
theorem Starts.leads {body : Demand} (starts : world.Starts origin body) (reaches : world.Reaches origin made demand) :
    world.Leads origin (0, body) (made, demand) := by
  cases starts with
  | definition slot => exact reaches.leads_definition
  | default allots => exact reaches.leads_default fun allots' => allots.allot_unique allots'

/-- Each of the computations in progress was asked for by the one that it is within. -/
abbrev Nested (world : World) : List Origin → Prop := List.IsChain fun inner outer => world.Asks outer inner

/-- A computation that is within itself has no outcome. -/
theorem stuck_of_nested (nested : world.Nested (asked :: stack)) (within : asked ∈ stack) : world.Stuck asked := by
  have paths : (asked :: stack).IsChain fun inner outer => TransGen world.Asks outer inner :=
    List.IsChain.imp (fun _ _ asks => .single asks) nested
  have trans : IsTrans Origin fun inner outer => TransGen world.Asks outer inner :=
    ⟨fun _ _ _ first second => second.trans first⟩
  exact stuck_of_circle ((List.pairwise_cons.mp (List.isChain_iff_pairwise.mp paths)).1 asked within)

/-! ### What a task comes to is granted -/

/-- Computations in progress are at a task: the innermost one is on its course to a demand, or
    it has asked for another. -/
def Fits (world : World) (stack : List Origin) : Task → Origin → Prop
  | .meet made demand, origin => stack.head? = some origin ∧ world.OnCourse origin made demand ∧ world.Nested stack
  | .ask asked, origin => asked = origin ∧ world.Nested (asked :: stack)

/-- What computations come to within each other is granted. -/
theorem Comes.grants (lawful : world.Lawful) {task : Task} (comes : world.Comes stack task outcome) :
    ∀ {origin}, world.Fits stack task origin → world.Grants origin outcome := by
  induction comes with
  | settled outcome => exact fun fits => fits.2.1.settled
  | further follows rest ih =>
    rintro origin ⟨first, course, nested⟩
    cases first
    exact ih ⟨rfl, course.further follows, nested⟩
  | question asks answers rest ihAnswer ih =>
    rintro origin ⟨first, course, nested⟩
    cases first
    have reaches := course.reaches asks
    have granted := ihAnswer ⟨rfl, List.isChain_cons_cons.mpr ⟨⟨_, _, _, reaches, asks⟩, nested⟩⟩
    exact ih ⟨rfl, OnCourse.answer lawful reaches asks granted, nested⟩
  | again within =>
    rintro origin ⟨rfl, nested⟩
    exact Or.inr ⟨rfl, stuck_of_nested nested within⟩
  | anew starts apart comes ih =>
    rintro origin ⟨rfl, nested⟩
    exact ih ⟨rfl, Or.inl starts.reaches, nested⟩

/-! ### What has an outcome comes to it -/

/-- Where questions come to their outcomes, a demand comes to the outcome that it leads to. -/
private theorem comes_of_leads {nodes : Nat × Demand} (nested : world.Nested (origin :: outer))
    (answers : ∀ {asked answer}, world.Asks origin asked → world.Yields asked answer → world.Nested (asked :: origin :: outer) →
      world.Comes (origin :: outer) (.ask asked) answer)
    (leads : world.Leads origin nodes (made', .done outcome)) (reaches : world.Reaches origin nodes.1 nodes.2) :
    world.Comes (origin :: outer) (.meet nodes.1 nodes.2) outcome := by
  induction leads using ReflTransGen.head_induction_on with
  | refl => exact .settled outcome
  | head goes rest ih =>
    have onwards := ih (goes.reaches reaches)
    cases goes with
    | further follows => exact .further follows onwards
    | answer asks result =>
      have edge : world.Asks origin _ := ⟨_, _, _, reaches, asks⟩
      exact .question asks (answers edge result (List.isChain_cons_cons.mpr ⟨edge, nested⟩)) onwards

theorem Reaches.starts (reaches : world.Reaches origin made demand) : ∃ body, world.Starts origin body := by
  induction reaches with
  | definition slot => exact ⟨_, .definition slot⟩
  | default allots => exact ⟨_, .default allots⟩
  | further before follows ih => exact ih
  | answer before asks result ih => exact ih

/-- A computation with an outcome comes to it within any others that ask for it. -/
theorem Yields.comes (yields : world.Yields asked outcome) (nested : world.Nested (asked :: stack)) :
    world.Comes stack (.ask asked) outcome := by
  have grounded := yields.grounded
  induction grounded generalizing stack outcome with
  | intro asked _ ih =>
    have apart : asked ∉ stack := fun within => stuck_of_nested nested within outcome yields
    obtain ⟨made, reaches⟩ := yields
    obtain ⟨body, starts⟩ := reaches.starts
    refine .anew starts apart (comes_of_leads nested ?_ (starts.leads reaches) starts.reaches)
    exact fun asks result nested' => ih _ asks result nested'

end World
end Pkgset

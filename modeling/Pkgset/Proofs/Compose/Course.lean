import Pkgset.Proofs.Compose.Lawful
import Pkgset.Proofs.Compose.Moves
import Pkgset.Proofs.Compose.Sealing

/-!
# The course of a computation

A machine meets a demand as the meaning has it, with environments that are sealed. What
it gives for a computation is granted: an outcome that can be derived, or the error of a
cycle where none can. A computation that is given such an error stalls: its meaning goes
no further, and in the machine it hands the error on.
-/

namespace Pkgset
open Relation

/-- Every environment is sealed. -/
def World.Sealed (world : World) : Prop := ∀ env environment, world env = some environment → environment.Sealed

namespace Machine
variable {world : World} {machine : Machine}

theorem top?_eq_final? (here : machine.environment? = world) (before : world.Sealed) (view : View) (name : String) :
    machine.top? view name = world.final? view name := by
  subst here
  unfold Machine.top? World.final?
  cases found : machine.environment? view.env with
  | none => rfl
  | some environment => simp [(before _ _ found).top?_eq]

theorem below?_eq_earlier? (here : machine.environment? = world) (before : world.Sealed) (env : EnvId) (name : String)
    (layer : Nat) : machine.below? env name layer = world.earlier? env name layer := by
  subst here
  unfold Machine.below? World.earlier?
  cases found : machine.environment? env with
  | none => rfl
  | some environment => simp [(before _ _ found).below?_eq]

theorem definition_eq (here : machine.environment? = world) (slot : SlotId) :
    machine.definition slot = world.definition slot := by
  subst here
  rfl

theorem cellDemand_eq (here : machine.environment? = world) (cell : Cell) :
    machine.cellDemand cell = world.fallback cell.input cell.env cell.body := by
  subst here
  rfl

/-- The ways in which a thread meets a demand, by what comes of the demand. -/
inductive Meets (world : World) (machine : Machine) (thread : Thread) (demand : Demand) : Machine × Thread → Prop where
  | settled (outcome : Outcome) (is : demand = .done outcome) :
      Meets world machine thread demand (machine, thread.turn (.yield outcome))
  | crash : Meets world machine thread demand (machine, thread.turn .unwind)
  | further (journal : List String) (control : Control) (demand' : Demand)
      (follows : ∀ origin made, world.react origin made demand = .further made demand')
      (goesOn : control = .meet demand' ∨ control = .paused demand') :
      Meets world machine thread demand ({ machine with journal }, thread.turn control)
  | allot (input : String) (view : View) (body : Demand) (next : CellId → Demand)
      (is : demand = .allot input view body next) :
      Meets world machine thread demand ((machine.allot thread.origin input view body).1,
        thread.turn (.meet (next ⟨thread.origin, machine.cellsMade thread.origin⟩)))
  | enter (slot : SlotId) (next : Outcome → Demand)
      (asks : ∀ origin made, world.react origin made demand = .question (.slot slot) next) :
      Meets world machine thread demand (machine, thread.push (.resume next) (.enter slot))
  | fill (cell : CellId) (next : Outcome → Demand)
      (asks : ∀ origin made, world.react origin made demand = .question cell.computation next) :
      Meets world machine thread demand (machine, thread.push (.resume next) (.fill cell))

/-- A demand is met as its meaning has it. -/
theorem meets (here : machine.environment? = world) (before : world.Sealed) (thread : Thread) (demand : Demand) :
    Meets world machine thread demand (machine.meet thread demand) := by
  have top := top?_eq_final? here before
  have below := below?_eq_earlier? here before
  fun_cases Machine.meet machine thread demand with
  | case1 outcome => exact .settled outcome rfl
  | case2 => exact .crash
  | case3 view name next slot found => exact .enter slot next fun _ _ => by simp [World.react, ← top, found]
  | case4 view name next missing =>
    exact .further _ _ _ (fun _ _ => by simp [World.react, ← top, missing]) (Or.inl rfl)
  | case5 env name layer next slot found => exact .enter slot next fun _ _ => by simp [World.react, ← below, found]
  | case6 env name layer next missing =>
    exact .further _ _ _ (fun _ _ => by simp [World.react, ← below, missing]) (Or.inl rfl)
  | case7 view name next => exact .further _ _ _ (fun _ _ => by simp [World.react, ← top]) (Or.inl rfl)
  | case8 env name layer next => exact .further _ _ _ (fun _ _ => by simp [World.react, ← below]) (Or.inl rfl)
  | case9 view name next environment found =>
    exact .further _ _ _ (fun _ _ => by simp [World.react, ← here, found]) (Or.inl rfl)
  | case10 view name next missing =>
    exact .further _ _ _ (fun _ _ => by simp [World.react, ← here, missing]) (Or.inl rfl)
  | case11 component next => exact .further _ _ _ (fun _ _ => rfl) (Or.inl rfl)
  | case12 input cell next => exact .fill cell next fun _ _ => rfl
  | case13 reference next => exact .further _ _ _ (fun _ _ => rfl) (Or.inl rfl)
  | case14 component next plain =>
    refine .further _ _ _ (fun _ _ => ?_) (Or.inl rfl)
    cases component with
    | lazy reference => exact absurd rfl (plain reference)
    | _ => rfl
  | case15 input view body next larger cell made =>
    cases made
    exact .allot input view body next rfl
  | case16 label next => exact .further _ _ _ (fun _ _ => rfl) (Or.inl rfl)
  | case17 next => exact .further _ _ _ (fun _ _ => rfl) (Or.inr rfl)

end Machine

/-! ### What may be given -/

/-- An outcome may be given for what has a meaning: it is the meaning, or the error of a
    cycle if there is no meaning. -/
def Granted (means : Outcome → Prop) (outcome : Outcome) : Prop :=
  means outcome ∨ Outcome.isCycle outcome = true ∧ ∀ other, ¬ means other

namespace World

/-- An outcome may be given for a computation. -/
abbrev Grants (world : World) (origin : Origin) : Outcome → Prop := Granted (world.Yields origin)

/-- The meaning of a computation goes no further than to a question, and the machine hands
    an error on. It makes no more cells that have a meaning. -/
structure Stalls (world : World) (origin : Origin) (made : Nat) (demand : Demand) : Prop where
  stuck : world.Stuck origin
  unmade : ∀ number, made ≤ number → ¬ world.Made ⟨origin, number⟩
  raised : ∃ error, error.isCycle = true ∧ demand.Lawful (fun _ => True) (some error)

/-- A machine may be at a demand of a computation when it has made a number of cells. -/
def OnCourse (world : World) (origin : Origin) (made : Nat) (demand : Demand) : Prop :=
  world.Reaches origin made demand ∨ world.Stalls origin made demand

section
variable {world : World} {origin asked : Origin} {made made' : Nat} {demand demand' : Demand}
  {next : Outcome → Demand} {outcome : Outcome}

/-- A computation that asks for one without an outcome makes no more cells. -/
theorem Reaches.unmade (reaches : world.Reaches origin made demand)
    (asks : world.react origin made demand = .question asked next) (stuck : world.Stuck asked) {number : Nat}
    (later : made ≤ number) : ¬ world.Made ⟨origin, number⟩ := by
  rintro ⟨input, view, body, next', allots⟩
  rcases reaches.comparable allots with leads | leads
  · rcases leads.of_question asks with same | ⟨answer, result, _⟩
    · cases same
      cases asks
    · exact stuck answer result
  · rcases leads.of_further rfl with same | later'
    · cases same
      cases asks
    · have least : number + 1 ≤ made := later'.made_le
      omega

theorem OnCourse.settled (course : world.OnCourse origin made (.done outcome)) : world.Grants origin outcome := by
  rcases course with reaches | stalls
  · exact Or.inl ⟨made, reaches⟩
  · obtain ⟨error, cycle, raised⟩ := stalls.raised
    have same : outcome = .error error := by simpa [Demand.Lawful] using raised
    exact Or.inr ⟨by simp [same, Outcome.isCycle, cycle], stalls.stuck⟩

theorem OnCourse.further (course : world.OnCourse origin made demand)
    (follows : world.react origin made demand = .further made' demand') : world.OnCourse origin made' demand' := by
  rcases course with reaches | stalls
  · exact Or.inl (reaches.further follows)
  · obtain ⟨error, cycle, raised⟩ := stalls.raised
    have more : made ≤ made' := Goes.made_le (Goes.further follows)
    exact Or.inr ⟨stalls.stuck, fun number later => stalls.unmade number (more.trans later), error, cycle,
      lawful_of_further raised follows fun _ _ _ _ _ => trivial⟩

/-- Where a machine asks, the computation is as its meaning has it. -/
theorem OnCourse.reaches (course : world.OnCourse origin made demand)
    (asks : world.react origin made demand = .question asked next) : world.Reaches origin made demand := by
  rcases course with reaches | stalls
  · exact reaches
  · obtain ⟨error, _, raised⟩ := stalls.raised
    exact absurd asks (not_asks_of_raised raised)

/-- With what is granted for the computation asked, a computation stays on its course. -/
theorem OnCourse.answer (lawful : world.Lawful) (reaches : world.Reaches origin made demand)
    (asks : world.react origin made demand = .question asked next) (granted : world.Grants asked outcome) :
    world.OnCourse origin made (next outcome) := by
  rcases granted with ⟨made', result⟩ | ⟨cycle, stuck⟩
  · exact Or.inl (reaches.answer asks result)
  · have stalled : world.Stuck asked := stuck
    cases outcome with
    | ok component => cases cycle
    | error error =>
      have replies := replies_of_question (reaches.lawful lawful fun _ _ => trivial) asks
      exact Or.inr ⟨stalled.of_asks ⟨made, demand, next, reaches, asks⟩,
        fun number later => reaches.unmade asks stuck later, error, cycle, replies.2 error⟩

end
end World
end Pkgset

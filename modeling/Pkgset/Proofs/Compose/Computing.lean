import Pkgset.Proofs.Compose.Reckoning
import Pkgset.Proofs.Compose.Session
import Pkgset.Proofs.Compose.Steady

/-!
# What a machine computes

One thread that starts on a machine without a memory comes to what its inquiry comes to
when nothing is remembered, and to nothing else. Until an error is raised, the machine
remembers components only, and those are what their computations come to wherever they
are asked for; once one is raised, nothing more is asked.
-/

namespace Pkgset
open Machine

namespace World

/-- Every definition is lawful, whatever cells there are. -/
def Upright (world : World) : Prop :=
  ∀ env environment, world env = some environment →
    environment.Every fun definition => ∀ given, definition.Lawful given

variable {world : World}

theorem Upright.lawful (upright : world.Upright) : world.Lawful :=
  fun env environment here given _ name slot member => upright env environment here name slot member given

theorem Upright.definition (upright : world.Upright) (id : SlotId) (given : CellId → Prop) :
    (world.definition id).Lawful given none := by
  unfold World.definition
  split
  next slot found =>
    obtain ⟨environment, here, at'⟩ := Option.bind_eq_some_iff.mp found
    exact (upright id.env environment here id.name slot (List.mem_of_find?_eq_some at') given).demand _
  next => rfl

end World

namespace Machine

/-- A demand refers to cells that there are and hands errors on. -/
def Befits (machine : Machine) (raised : Option ComposeError) (demand : Demand) : Prop :=
  ∀ given, machine.Gives given → demand.Lawful given raised

theorem Befits.grow {machine machine' : Machine} (grows : machine.Grows machine') {raised : Option ComposeError}
    {demand : Demand} (befits : machine.Befits raised demand) : machine'.Befits raised demand :=
  fun given gives => befits given (grows.gives gives)

/-! ### Moving on -/

/-- A move of the thread comes between two states. -/
def Advances (machine : Machine) (thread : Thread) (machine' : Machine) (thread' : Thread) : Prop :=
  ∀ bound, machine.finish 0 (bound + 1) thread = machine'.finish 0 bound thread'

/-- Some moves of the thread come between two states. -/
def Runs (machine : Machine) (thread : Thread) (machine' : Machine) (thread' : Thread) : Prop :=
  ∃ steps, ∀ bound, machine.finish 0 (bound + steps) thread = machine'.finish 0 bound thread'

section
variable {machine machine' machine'' : Machine} {thread thread' thread'' : Thread}

theorem advances_step (moves : machine.standing 0 thread = .moving ∨ machine.standing 0 thread = .resting) :
    machine.Advances thread (machine.step 0 thread).1 (machine.step 0 thread).2 := by
  intro bound
  rcases moves with moves | moves <;> simp [Machine.finish, moves]

theorem Advances.runs (moves : machine.Advances thread machine' thread') : machine.Runs thread machine' thread' :=
  ⟨1, moves⟩

theorem Runs.trans (runs : machine.Runs thread machine' thread') (runs' : machine'.Runs thread' machine'' thread'') :
    machine.Runs thread machine'' thread'' := by
  obtain ⟨steps, first⟩ := runs
  obtain ⟨steps', second⟩ := runs'
  refine ⟨steps' + steps, fun bound => ?_⟩
  rw [← Nat.add_assoc, first, second]

/-- What finishes after a move takes one less. -/
theorem Advances.before (moves : machine.Advances thread machine' thread') {bound : Nat} {result : Machine × Ending}
    (finishes : machine.finish 0 bound thread = some result) :
    ∃ less, bound = less + 1 ∧ machine'.finish 0 less thread' = some result := by
  cases bound with
  | zero => cases finishes
  | succ less => exact ⟨less, rfl, (moves less).symm.trans finishes⟩

theorem advances_paused (machine : Machine) (demand : Demand) (frames : List Frame) :
    machine.Advances ⟨.paused demand, frames⟩ machine ⟨.meet demand, frames⟩ := advances_step (Or.inr rfl)

theorem advances_resume (machine : Machine) (outcome : Outcome) (next : Outcome → Demand) (frames : List Frame) :
    machine.Advances ⟨.yield outcome, .resume next :: frames⟩ machine ⟨.meet (next outcome), frames⟩ :=
  advances_step (Or.inl rfl)

/-- A thread that crashes comes to no outcome. -/
theorem not_finish_unwind (machine : Machine) (frames : List Frame) (bound : Nat) (outcome : Outcome) (last : Machine) :
    machine.finish 0 bound ⟨.unwind, frames⟩ ≠ some (last, .ofOutcome outcome) := by
  induction frames generalizing machine bound with
  | nil =>
    cases bound with
    | zero => simp [Machine.finish]
    | succ bound => cases outcome <;> simp [Machine.finish, Machine.standing, Ending.ofOutcome]
  | cons frame frames ih =>
    intro finishes
    have moves : machine.Advances ⟨.unwind, frame :: frames⟩ (machine.crash frames frame).1 (machine.crash frames frame).2 :=
      advances_step (Or.inl rfl)
    obtain ⟨less, _, later⟩ := moves.before finishes
    cases frame <;> exact ih _ _ later

end

/-! ### As long as no error is raised -/

/-- Nothing but the computations in progress was started and not ended; what was ended are
    components of cells that there are, and the bodies of cells refer to such. -/
structure Unspoilt (machine : Machine) (stack : List Origin) : Prop where
  busy : ∀ origin owner, machine.progress origin = .running owner → origin ∈ stack
  known : ∀ origin outcome, machine.progress origin = .done outcome →
    ∃ component, outcome = .ok component ∧ ∀ cell ∈ component.cells, machine.Present cell
  bodies : ∀ id cell, machine.cell? id = some cell → machine.Befits none cell.body

namespace Unspoilt
variable {machine machine' : Machine} {stack stack' : List Origin}

theorem note (unspoilt : machine.Unspoilt stack) (journal : List String) :
    ({ machine with journal } : Machine).Unspoilt stack := by
  refine ⟨fun origin owner running => ?_, fun origin outcome known => ?_, unspoilt.bodies⟩
  · exact unspoilt.busy origin owner (by simpa using running)
  · exact unspoilt.known origin outcome (by simpa using known)

/-- A computation is started or ended. -/
theorem turn (unspoilt : machine.Unspoilt stack) (grows : machine.Grows machine') {asked : Origin} {after : Progress}
    (progress : ∀ origin, machine'.progress origin = if origin = asked then after else machine.progress origin)
    (bodies : ∀ id cell, machine'.cell? id = some cell → ∃ old, machine.cell? id = some old ∧ old.body = cell.body)
    (busy : ∀ owner, after = .running owner → asked ∈ stack') (still : ∀ origin ∈ stack, origin ≠ asked → origin ∈ stack')
    (known : ∀ outcome, after = .done outcome →
      ∃ component, outcome = .ok component ∧ ∀ cell ∈ component.cells, machine.Present cell) :
    machine'.Unspoilt stack' := by
  refine ⟨fun origin owner running => ?_, fun origin outcome done => ?_, fun id cell found => ?_⟩
  · rw [progress] at running
    split at running
    next same => exact same ▸ busy owner running
    next apart => exact still origin (unspoilt.busy origin owner running) apart
  · rw [progress] at done
    obtain ⟨component, is, present⟩ : ∃ component, outcome = .ok component ∧ ∀ cell ∈ component.cells, machine.Present cell := by
      split at done
      · exact known outcome done
      · exact unspoilt.known origin outcome done
    exact ⟨component, is, fun cell member => grows cell (present cell member)⟩
  · obtain ⟨old, there, same⟩ := bodies id cell found
    exact same ▸ (unspoilt.bodies id old there).grow grows

theorem allot (unspoilt : machine.Unspoilt stack) (origin : Origin) (input : String) (view : View) {body : Demand}
    (befits : machine.Befits none body) : (machine.allot origin input view body).1.Unspoilt stack := by
  have grows := (present_allot machine origin input view body).1
  refine ⟨fun other owner running => ?_, fun other outcome done => ?_, fun id cell found => ?_⟩
  · exact unspoilt.busy other owner (by simpa using running)
  · obtain ⟨component, is, present⟩ := unspoilt.known other outcome (by simpa using done)
    exact ⟨component, is, fun cell member => grows cell (present cell member)⟩
  · rw [cell?_allot, Option.or_eq_some_iff] at found
    rcases found with old | ⟨_, new⟩
    · exact (unspoilt.bodies id cell old).grow grows
    · simp only [Option.ite_none_right_eq_some, Option.some.injEq] at new
      obtain ⟨_, rfl⟩ := new
      exact befits.grow grows

end Unspoilt

/-! ### A thread within computations -/

/-- How a thread asks for what a computation comes to. -/
def entrance : Origin → Control
  | .slot slot => .enter slot
  | .cell origin number => .fill ⟨origin, number⟩
  | .outside => .unwind

/-- A thread is at a demand of a computation that is within others. If an error was raised,
    it is being handed on. -/
structure Within (world : World) (machine : Machine) (frames : List Frame) (origin : Origin) (outer : List Origin)
    (raised : Option ComposeError) (demand : Demand) : Prop where
  faithful : machine.Faithful world
  origins : frames.filterMap Frame.origin? = origin :: outer
  nested : world.Nested (origin :: outer)
  nodup : (origin :: outer).Nodup
  held : ∀ other ∈ origin :: outer, machine.progress other = .running 0
  course : world.OnCourse origin (machine.cellsMade origin) demand
  befits : machine.Befits raised demand
  unspoilt : raised = none → machine.Unspoilt (origin :: outer)

/-- A thread within computations asks for what another one comes to. -/
structure Asking (world : World) (machine : Machine) (frames : List Frame) (stack : List Origin) (asked : Origin) :
    Prop where
  faithful : machine.Faithful world
  origins : frames.filterMap Frame.origin? = stack
  nested : world.Nested (asked :: stack)
  nodup : stack.Nodup
  held : ∀ other ∈ stack, machine.progress other = .running 0
  unspoilt : machine.Unspoilt stack
  inside : asked ≠ .outside
  cell : ∀ cell : CellId, asked = cell.computation → machine.Present cell ∧ world.Made cell

/-- A machine has come to an outcome of a computation within others; it has made no cells of
    those that are kept, and if the outcome is no error, none was raised. -/
structure Leaves (world : World) (machine machine' : Machine) (kept stack : List Origin) (origin : Origin)
    (outcome : Outcome) : Prop where
  faithful : machine'.Faithful world
  held : ∀ other ∈ stack, machine'.progress other = .running 0
  made : ∀ other ∈ kept, machine'.cellsMade other = machine.cellsMade other
  grows : machine.Grows machine'
  granted : world.Grants origin outcome
  unspoilt : ∀ component, outcome = .ok component →
    machine'.Unspoilt stack ∧ ∀ cell ∈ component.cells, machine'.Present cell

theorem Leaves.after {world : World} {machine middle machine' : Machine} {kept stack : List Origin} {origin : Origin}
    {outcome : Outcome} (grows : machine.Grows middle)
    (made : ∀ other ∈ kept, middle.cellsMade other = machine.cellsMade other)
    (leaves : middle.Leaves world machine' kept stack origin outcome) :
    machine.Leaves world machine' kept stack origin outcome where
  faithful := leaves.faithful
  held := leaves.held
  made := fun other member => (leaves.made other member).trans (made other member)
  grows := fun cell present => leaves.grows cell (grows cell present)
  granted := leaves.granted
  unspoilt := leaves.unspoilt

section
variable {world : World} {machine : Machine} {frames : List Frame} {origin asked : Origin} {outer stack : List Origin}
  {raised : Option ComposeError} {demand : Demand}

/-! ### Meeting a demand -/

/-- What a thread that meets a demand does: it comes to the result, crashes, goes on, or asks
    for what another computation comes to and goes on with that. -/
inductive Proceeds (world : World) (machine : Machine) (frames : List Frame) (origin : Origin) (outer : List Origin)
    (raised : Option ComposeError) (demand : Demand) : Prop where
  | settled (outcome : Outcome) (is : demand = .done outcome)
      (moves : machine.Advances ⟨.meet demand, frames⟩ machine ⟨.yield outcome, frames⟩)
      (leaves : machine.Leaves world machine outer (origin :: outer) origin outcome)
  | crash (is : demand = .panic) (moves : machine.Advances ⟨.meet demand, frames⟩ machine ⟨.unwind, frames⟩)
  | further {machine' : Machine} {demand' : Demand} {control : Control}
      (follows : world.react origin (machine.cellsMade origin) demand = .further (machine'.cellsMade origin) demand')
      (moves : machine.Advances ⟨.meet demand, frames⟩ machine' ⟨control, frames⟩)
      (goesOn : control = .meet demand' ∨ control = .paused demand') (grows : machine.Grows machine')
      (made : ∀ other ∈ outer, machine'.cellsMade other = machine.cellsMade other)
      (within : machine'.Within world frames origin outer raised demand')
  | question {asked : Origin} {next : Outcome → Demand}
      (asks : world.react origin (machine.cellsMade origin) demand = .question asked next)
      (moves : machine.Advances ⟨.meet demand, frames⟩ machine ⟨entrance asked, .resume next :: frames⟩)
      (asking : machine.Asking world (.resume next :: frames) (origin :: outer) asked)
      (returns : ∀ machine' answer, machine.Leaves world machine' (origin :: outer) (origin :: outer) asked answer →
        ∃ raised, machine'.Within world frames origin outer raised (next answer))

private theorem leaves_settled {outcome : Outcome} (within : machine.Within world frames origin outer raised (.done outcome)) :
    machine.Leaves world machine outer (origin :: outer) origin outcome := by
  refine ⟨within.faithful, within.held, fun _ _ => rfl, Grows.refl machine, within.course.settled, ?_⟩
  rintro component rfl
  have lawful := within.befits machine.Present fun _ => id
  cases raised with
  | some error => cases lawful
  | none => exact ⟨within.unspoilt rfl, lawful⟩

private theorem within_allot {input : String} {view : View} {body : Demand} {next : CellId → Demand}
    (within : machine.Within world frames origin outer raised (.allot input view body next)) :
    (machine.allot origin input view body).1.Within world frames origin outer raised
      (next ⟨origin, machine.cellsMade origin⟩) := by
  obtain ⟨grows, present⟩ := present_allot machine origin input view body
  refine ⟨within.faithful.allot within.course ?_, within.origins, within.nested, within.nodup, ?_, ?_, ?_, ?_⟩
  · simp [within.held origin (by simp)]
  · intro other member
    simpa using within.held other member
  · simpa [cellsMade_allot] using within.course.further rfl
  · intro given gives
    exact (within.befits given (grows.gives gives)).2 _ (gives _ present)
  · rintro rfl
    exact (within.unspoilt rfl).allot origin input view fun given gives => (within.befits given gives).1

private theorem proceeds_question {next : Outcome → Demand} (lawful : world.Lawful)
    (within : machine.Within world frames origin outer raised demand) (inside : asked ≠ .outside)
    (asks : world.react origin (machine.cellsMade origin) demand = .question asked next)
    (moves : machine.Advances ⟨.meet demand, frames⟩ machine ⟨entrance asked, .resume next :: frames⟩) :
    Proceeds world machine frames origin outer raised demand := by
  have reaches := within.course.reaches asks
  have befits := within.befits
  -- Who asks has no error to hand on.
  cases raised with
  | some error => exact absurd asks (World.not_asks_of_raised (befits machine.Present fun _ => id))
  | none =>
    refine .question asks moves ⟨within.faithful, within.origins, ?_, within.nodup, within.held, within.unspoilt rfl,
      inside, ?_⟩ ?_
    · exact List.isChain_cons_cons.mpr ⟨⟨_, _, _, reaches, asks⟩, within.nested⟩
    · rintro cell rfl
      exact ⟨World.given_of_question (befits machine.Present fun _ => id) asks,
        World.given_of_question (reaches.lawful lawful fun _ => id) asks⟩
    · intro machine' answer leaves
      have made : machine'.cellsMade origin = machine.cellsMade origin := leaves.made origin (by simp)
      have course : world.OnCourse origin (machine'.cellsMade origin) (next answer) :=
        made.symm ▸ World.OnCourse.answer lawful reaches asks leaves.granted
      have replies (given : CellId → Prop) (gives : machine'.Gives given) :=
        World.replies_of_question (befits given (leaves.grows.gives gives)) asks
      cases answer with
      | ok component =>
        obtain ⟨unspoilt, present⟩ := leaves.unspoilt component rfl
        refine ⟨none, leaves.faithful, within.origins, within.nested, within.nodup, leaves.held, course, ?_,
          fun _ => unspoilt⟩
        exact fun given gives => (replies given gives).1 component fun cell member => gives cell (present cell member)
      | error error =>
        exact ⟨some error, leaves.faithful, within.origins, within.nested, within.nodup, leaves.held, course,
          fun given gives => (replies given gives).2 error, fun absurd => by cases absurd⟩

/-- A thread proceeds as the meaning has it. -/
theorem Within.proceeds (lawful : world.Lawful) (before : world.Sealed)
    (within : machine.Within world frames origin outer raised demand) :
    Proceeds world machine frames origin outer raised demand := by
  have meets := Machine.meets within.faithful.here before ⟨.meet demand, frames⟩ demand
  have inner : (⟨.meet demand, frames⟩ : Thread).origin = origin := by
    simp [Thread.origin_eq, Thread.origins, within.origins]
  have moves : machine.Advances ⟨.meet demand, frames⟩ (machine.meet ⟨.meet demand, frames⟩ demand).1
      (machine.meet ⟨.meet demand, frames⟩ demand).2 := advances_step (Or.inl rfl)
  generalize met : machine.meet ⟨.meet demand, frames⟩ demand = result at meets moves
  cases meets with
  | settled outcome is =>
    subst is
    exact .settled outcome rfl moves (leaves_settled within)
  | crash => exact .crash (panic_of_meet machine ⟨.meet demand, frames⟩ (by rw [met]; rfl)) moves
  | further journal control demand' follows goesOn =>
    have onwards : world.react origin (machine.cellsMade origin) demand =
        .further (({ machine with journal } : Machine).cellsMade origin) demand' := follows origin _
    refine .further onwards moves goesOn (grows_of_cells rfl) (fun _ _ => rfl) ?_
    refine ⟨within.faithful.congr rfl (progress_note machine journal) rfl, within.origins, within.nested, within.nodup, ?_,
      within.course.further (follows origin _), fun given gives => ?_, fun calm => (within.unspoilt calm).note journal⟩
    · intro other member
      simpa using within.held other member
    · refine World.lawful_of_further (within.befits given gives) (follows .outside 0) ?_
      rintro input view body next rfl
      cases follows .outside 0
  | allot input view body next is =>
    subst is
    rw [inner] at moves
    refine .further ?_ moves (Or.inl rfl) (present_allot machine origin input view body).1 (fun other member => ?_)
      (within_allot within)
    · simp [World.react, cellsMade_allot]
    · have apart : other ≠ origin := fun same => (List.nodup_cons.mp within.nodup).1 (same ▸ member)
      simp [cellsMade_allot, apart]
  | enter slot next asks => exact proceeds_question lawful within (by simp) (asks origin _) moves
  | fill cell next asks => exact proceeds_question lawful within (by simp [CellId.computation]) (asks origin _) moves

/-! ### Asking for a computation -/

/-- What a thread that asks for a computation does: it closes a cycle, takes what is known,
    starts the computation, or waits for itself. -/
inductive Answers (world : World) (machine : Machine) (frames : List Frame) (stack : List Origin) (asked : Origin) :
    Prop where
  | again {slot : SlotId} (is : asked = .slot slot) (within : asked ∈ stack)
      (moves : machine.Advances ⟨entrance asked, frames⟩ machine
        ⟨.yield (.error (.evaluationCycle slot.name (World.circle stack slot))), frames⟩)
      (leaves : machine.Leaves world machine stack stack asked
        (.error (.evaluationCycle slot.name (World.circle stack slot))))
  | known {component : Component} (yields : world.Yields asked (.ok component))
      (moves : machine.Advances ⟨entrance asked, frames⟩ machine ⟨.yield (.ok component), frames⟩)
      (leaves : machine.Leaves world machine stack stack asked (.ok component))
  | anew {machine' : Machine} {frame : Frame} {body : Demand} (starts : world.Starts asked body) (apart : asked ∉ stack)
      (empty : machine'.cellsMade asked = 0)
      (moves : machine.Advances ⟨entrance asked, frames⟩ machine' ⟨.meet body, frame :: frames⟩)
      (within : machine'.Within world (frame :: frames) asked stack none body)
      (ends : ∀ last outcome, machine'.Leaves world last stack (asked :: stack) asked outcome →
        ∃ final, last.Advances ⟨.yield outcome, frame :: frames⟩ final ⟨.yield outcome, frames⟩ ∧
          machine.Leaves world final stack stack asked outcome)
  | stays (cell : CellId) (is : asked = cell.computation) (within : asked ∈ stack)
      (waits : ∀ bound, machine.finish 0 bound ⟨entrance asked, frames⟩ = none)

private theorem leaves_known (asking : machine.Asking world frames stack asked) {component : Component}
    (done : machine.progress asked = .done (.ok component)) (present : ∀ cell ∈ component.cells, machine.Present cell) :
    machine.Leaves world machine stack stack asked (.ok component) := by
  refine ⟨asking.faithful, asking.held, fun _ _ => rfl, Grows.refl machine, asking.faithful.granted asked _ done, ?_⟩
  intro other same
  cases same
  exact ⟨asking.unspoilt, present⟩

private theorem within_start {machine' : Machine} {frame : Frame} {body : Demand}
    (asking : machine.Asking world frames stack asked) (apart : asked ∉ stack) (is : frame.origin? = some asked)
    (starts : world.Starts asked body) (faithful : machine'.Faithful world) (grows : machine.Grows machine')
    (progress : ∀ origin, machine'.progress origin = if origin = asked then .running 0 else machine.progress origin)
    (bodies : ∀ id cell, machine'.cell? id = some cell → ∃ old, machine.cell? id = some old ∧ old.body = cell.body)
    (empty : machine'.cellsMade asked = 0) (befits : machine'.Befits none body) :
    machine'.Within world (frame :: frames) asked stack none body := by
  refine ⟨faithful, ?_, asking.nested, List.nodup_cons.mpr ⟨apart, asking.nodup⟩, ?_, ?_, befits, fun _ => ?_⟩
  · simp [is, asking.origins]
  · intro other member
    rw [progress]
    split
    next => rfl
    next differs => exact asking.held other ((List.mem_cons.mp member).resolve_left differs)
  · exact Or.inl (empty ▸ starts.reaches)
  · exact asking.unspoilt.turn grows progress bodies (fun _ _ => by simp)
      (fun origin member _ => List.mem_cons_of_mem _ member) fun _ absurd => by cases absurd

private theorem leaves_end {machine' last final : Machine} {outcome : Outcome} (apart : asked ∉ stack)
    (started : machine.Grows machine') (made : ∀ other, machine'.cellsMade other = machine.cellsMade other)
    (leaves : machine'.Leaves world last stack (asked :: stack) asked outcome) (faithful : final.Faithful world)
    (grows : last.Grows final) (made' : ∀ other, final.cellsMade other = last.cellsMade other)
    (progress : ∀ origin, final.progress origin = if origin = asked then .done outcome else last.progress origin)
    (bodies : ∀ id cell, final.cell? id = some cell → ∃ old, last.cell? id = some old ∧ old.body = cell.body) :
    machine.Leaves world final stack stack asked outcome := by
  refine ⟨faithful, ?_, ?_, ?_, leaves.granted, ?_⟩
  · intro other member
    have differs : other ≠ asked := fun same => apart (same ▸ member)
    rw [progress, if_neg differs]
    exact leaves.held other (List.mem_cons_of_mem _ member)
  · exact fun other member => ((made' other).trans (leaves.made other member)).trans (made other)
  · exact fun cell present => grows cell (leaves.grows cell (started cell present))
  · rintro component rfl
    obtain ⟨unspoilt, present⟩ := leaves.unspoilt component rfl
    refine ⟨unspoilt.turn grows progress bodies (fun _ absurd => by cases absurd) ?_ ?_,
      fun cell member => grows cell (present cell member)⟩
    · exact fun origin member differs => (List.mem_cons.mp member).resolve_left differs
    · intro outcome same
      cases same
      exact ⟨component, rfl, present⟩

/-- The cells of a machine have the bodies that they had before one of them was started or ended. -/
private theorem bodies_setCell {cell : CellId} {progress : Progress} (id : CellId) (content : Cell)
    (found : (machine.setCell cell progress).cell? id = some content) :
    ∃ old, machine.cell? id = some old ∧ old.body = content.body := by
  rw [cell?_setCell] at found
  split at found
  next same =>
    obtain ⟨old, there, rfl⟩ := Option.map_eq_some_iff.mp found
    exact ⟨old, same ▸ there, rfl⟩
  next => exact ⟨content, found, rfl⟩

private theorem progress_setCell_of_present {cell : CellId} (present : machine.Present cell) (progress : Progress)
    (origin : Origin) : (machine.setCell cell progress).progress origin =
      if origin = cell.computation then progress else machine.progress origin := by
  have here : (machine.cell? cell).isSome := present
  simp [progress_setCell, here]

private theorem answers_slot (upright : world.Upright) {slot : SlotId}
    (asking : machine.Asking world frames stack (.slot slot)) : Answers world machine frames stack (.slot slot) := by
  have moves : machine.Advances ⟨.enter slot, frames⟩ (machine.enter 0 ⟨.enter slot, frames⟩ slot).1
      (machine.enter 0 ⟨.enter slot, frames⟩ slot).2 := advances_step (Or.inl rfl)
  unfold Machine.enter at moves
  cases known : machine.slots slot with
  | done outcome =>
    obtain ⟨component, rfl, present⟩ := asking.unspoilt.known (.slot slot) outcome known
    have leaves := leaves_known asking known present
    rw [known] at moves
    rcases leaves.granted with yields | ⟨cycle, _⟩
    · exact .known yields moves leaves
    · cases cycle
  | running owner =>
    have within := asking.unspoilt.busy (.slot slot) owner known
    obtain rfl : owner = 0 := by
      have own := (asking.held (.slot slot) within).symm.trans known
      cases own
      rfl
    have chain : (⟨.enter slot, frames⟩ : Thread).ownChain slot = World.circle stack slot := by
      simp only [Thread.ownChain, Thread.namesSince?, World.circle, ← asking.origins, Thread.forcing]
      rw [List.filterMap_filterMap]
      congr 4
      refine List.filterMap_congr fun frame _ => ?_
      cases frame <;> rfl
    simp only [known, if_pos, chain] at moves
    refine .again rfl within moves ⟨asking.faithful, asking.held, fun _ _ => rfl, Grows.refl machine, ?_, ?_⟩
    · exact Or.inr ⟨rfl, World.stuck_of_nested asking.nested within⟩
    · exact fun _ absurd => by cases absurd
  | pending =>
    have apart : Origin.slot slot ∉ stack := by
      intro within
      have running := (asking.held _ within).symm.trans known
      cases running
    have empty : (machine.setSlot slot (.running 0)).cellsMade (.slot slot) = 0 := asking.faithful.fresh (.slot slot) known
    have started : (machine.setSlot slot (.running 0)).Faithful world := asking.faithful.setSlot slot (by simp) (by simp)
    have grows : machine.Grows (machine.setSlot slot (.running 0)) := grows_of_cells rfl
    simp only [known, definition_eq asking.faithful.here] at moves
    refine .anew (.definition slot) apart empty moves ?_ fun last outcome leaves => ?_
    · exact within_start asking apart rfl (.definition slot) started grows (progress_setSlot machine slot _)
        (fun id cell found => ⟨cell, found, rfl⟩) empty fun given _ => upright.definition slot given
    · refine ⟨last.publish slot outcome, advances_step (Or.inl rfl), ?_⟩
      exact leaves_end apart grows (fun _ => rfl) leaves (leaves.faithful.publish leaves.granted) (grows_of_cells rfl)
        (fun _ => rfl) (progress_publish last slot outcome) fun id cell found => ⟨cell, found, rfl⟩

private theorem answers_cell (cell : CellId) (asking : machine.Asking world frames stack cell.computation) :
    Answers world machine frames stack cell.computation := by
  obtain ⟨present, made⟩ := asking.cell cell rfl
  obtain ⟨content, there⟩ := Option.isSome_iff_exists.mp present
  have known : machine.progress cell.computation = content.progress := by
    simp [Machine.progress, CellId.computation, there]
  have moves (still : machine.standing 0 ⟨.fill cell, frames⟩ = .moving) :
      machine.Advances ⟨.fill cell, frames⟩ (machine.fill 0 ⟨.fill cell, frames⟩ cell).1
        (machine.fill 0 ⟨.fill cell, frames⟩ cell).2 := advances_step (Or.inl still)
  obtain ⟨input, env, body, progress⟩ := content
  cases progress with
  | done outcome =>
    have moves := moves (by simp [Machine.standing, Machine.isFilling, there])
    simp only [Machine.fill, there] at moves
    obtain ⟨component, rfl, present⟩ := asking.unspoilt.known _ outcome known
    have leaves := leaves_known asking known present
    rcases leaves.granted with yields | ⟨cycle, _⟩
    · exact .known yields moves leaves
    · cases cycle
  | running owner =>
    refine .stays cell rfl (asking.unspoilt.busy _ owner known) fun bound => ?_
    have waits : machine.standing 0 ⟨.fill cell, frames⟩ = .waiting := by
      simp [Machine.standing, Machine.isFilling, there]
    cases bound with
    | zero => rfl
    | succ bound => simp [Machine.finish, entrance, CellId.computation, waits]
  | pending =>
    have moves := moves (by simp [Machine.standing, Machine.isFilling, there])
    simp only [Machine.fill, there, cellDemand_eq asking.faithful.here] at moves
    have apart : cell.computation ∉ stack := by
      intro within
      have running := (asking.held _ within).symm.trans known
      cases running
    obtain ⟨view, next, rfl, allots⟩ := asking.faithful.cells cell _ there made
    have starts : world.Starts cell.computation (world.fallback input view.env body) := .default allots
    have started : (machine.setCell cell (.running 0)).Faithful world := asking.faithful.setCell cell (by simp) (by simp)
    have grows := grows_setCell machine cell (.running 0)
    have empty : (machine.setCell cell (.running 0)).cellsMade cell.computation = 0 := by
      rw [cellsMade_setCell]
      exact asking.faithful.fresh _ known
    refine .anew starts apart empty moves ?_ fun last outcome leaves => ?_
    · refine within_start asking apart rfl starts started grows (progress_setCell_of_present present _) bodies_setCell empty ?_
      unfold World.fallback
      split
      · exact (asking.unspoilt.bodies cell _ there).grow grows
      · exact fun _ _ => rfl
    · have still : last.Present cell := leaves.grows cell (grows cell present)
      have ended : (last.setCell cell (.done outcome)).Faithful world :=
        leaves.faithful.setCell cell (by simp) fun other same => by
          cases same
          exact leaves.granted
      refine ⟨last.setCell cell (.done outcome), advances_step (Or.inl rfl), ?_⟩
      exact leaves_end apart grows (cellsMade_setCell machine cell _) leaves ended (grows_setCell last cell _)
        (cellsMade_setCell last cell _) (progress_setCell_of_present still _) bodies_setCell

/-- A thread that asks is answered as the meaning has it. -/
theorem Asking.answers (upright : world.Upright) (asking : machine.Asking world frames stack asked) :
    Answers world machine frames stack asked := by
  cases asked with
  | outside => exact absurd rfl asking.inside
  | slot slot => exact answers_slot upright asking
  | cell origin number => exact answers_cell ⟨origin, number⟩ asking

/-! ### Runs -/

/-- Wherever a thread is at a task, it comes to an outcome. -/
def Completes (world : World) (stack : List Origin) (outcome : Outcome) : Task → Prop
  | .meet made demand => ∀ (machine : Machine) frames origin outer raised, stack = origin :: outer →
      machine.cellsMade origin = made → machine.Within world frames origin outer raised demand →
        ∃ machine', machine.Runs ⟨.meet demand, frames⟩ machine' ⟨.yield outcome, frames⟩ ∧
          machine.Leaves world machine' outer stack origin outcome
  | .ask asked => ∀ (machine : Machine) frames, machine.Asking world frames stack asked →
      ∃ machine', machine.Runs ⟨entrance asked, frames⟩ machine' ⟨.yield outcome, frames⟩ ∧
        machine.Leaves world machine' stack stack asked outcome

/-- What a task comes to when nothing is remembered, it comes to on a machine. -/
theorem completes (upright : world.Upright) (before : world.Sealed) {task : Task} {outcome : Outcome}
    (comes : world.Comes stack task outcome) : Completes world stack outcome task := by
  induction comes with
  | settled outcome =>
    rintro machine frames origin outer raised rfl rfl within
    cases within.proceeds upright.lawful before with
    | settled other is moves leaves =>
      cases is
      exact ⟨machine, moves.runs, leaves⟩
    | crash is => cases is
    | further follows => cases follows
    | question asks => cases asks
  | @further inner outside made made' demand demand' outcome follows rest ih =>
    rintro machine frames origin outer raised same rfl within
    cases same
    cases within.proceeds upright.lawful before with
    | settled other is =>
      subst is
      cases follows
    | crash is =>
      subst is
      cases follows
    | @further middle _ control follows' moves goesOn grows made within' =>
      cases follows.symm.trans follows'
      obtain ⟨last, runs, leaves⟩ := ih middle frames _ _ raised rfl rfl within'
      have onwards : middle.Runs ⟨control, frames⟩ last ⟨.yield outcome, frames⟩ := by
        rcases goesOn with rfl | rfl
        · exact runs
        · exact (advances_paused middle _ frames).runs.trans runs
      exact ⟨last, moves.runs.trans onwards, leaves.after grows made⟩
    | question asks => cases follows.symm.trans asks
  | question asks answers rest ihAnswer ih =>
    rintro machine frames origin outer raised same rfl within
    cases same
    cases within.proceeds upright.lawful before with
    | settled other is =>
      subst is
      cases asks
    | crash is =>
      subst is
      cases asks
    | further follows => cases asks.symm.trans follows
    | question asks' moves asking returns =>
      cases asks.symm.trans asks'
      obtain ⟨middle, runs, leaves⟩ := ihAnswer machine _ asking
      obtain ⟨raised', within'⟩ := returns middle _ leaves
      obtain ⟨last, runs', leaves'⟩ := ih middle frames _ _ raised' rfl (leaves.made _ (by simp)) within'
      refine ⟨last, moves.runs.trans (runs.trans ((advances_resume middle _ _ frames).runs.trans runs')), ?_⟩
      exact leaves'.after leaves.grows fun other member => leaves.made other (List.mem_cons_of_mem _ member)
  | again within =>
    intro machine frames asking
    cases asking.answers upright with
    | again is _ moves leaves =>
      cases is
      exact ⟨machine, moves.runs, leaves⟩
    | known yields => exact absurd yields (World.stuck_of_nested asking.nested within _)
    | anew _ apart => exact absurd within apart
    | stays cell is => cases is
  | @anew stack asked body outcome starts apart comes ih =>
    intro machine frames asking
    cases asking.answers upright with
    | again is within => exact absurd within apart
    | known yields moves leaves =>
      have granted := (World.Comes.anew starts apart comes).grants upright.lawful ⟨rfl, asking.nested⟩
      rcases granted with yields' | ⟨_, nothing⟩
      · cases yields.unique yields'
        exact ⟨machine, moves.runs, leaves⟩
      · exact absurd yields (nothing _)
    | @anew middle frame _ starts' _ empty moves within ends =>
      cases starts.unique starts'
      obtain ⟨last, runs, leaves⟩ := ih middle _ _ _ none rfl empty within
      obtain ⟨final, returns, leaves'⟩ := ends last outcome leaves
      exact ⟨final, moves.runs.trans (runs.trans returns.runs), leaves'⟩
    | stays cell is within => exact absurd within apart

/-- Where a thread at a task finishes with an outcome, the task has come to one before. -/
def Passes (world : World) (machine : Machine) (frames : List Frame) (kept stack : List Origin) (origin : Origin)
    (task : Task) (bound : Nat) (result : Machine × Ending) : Prop :=
  ∃ outcome machine' less, world.Comes stack task outcome ∧ machine.Leaves world machine' kept stack origin outcome ∧
    less ≤ bound ∧ machine'.finish 0 less ⟨.yield outcome, frames⟩ = some result

/-- What a machine comes to, it comes to when nothing is remembered. -/
theorem passes (upright : world.Upright) (before : world.Sealed) {last : Machine} {final : Outcome} (bound : Nat) :
    (∀ (machine : Machine) frames origin outer raised demand, machine.Within world frames origin outer raised demand →
      machine.finish 0 bound ⟨.meet demand, frames⟩ = some (last, .ofOutcome final) →
        Passes world machine frames outer (origin :: outer) origin (.meet (machine.cellsMade origin) demand) bound
          (last, .ofOutcome final)) ∧
    ∀ (machine : Machine) frames stack asked, machine.Asking world frames stack asked →
      machine.finish 0 bound ⟨entrance asked, frames⟩ = some (last, .ofOutcome final) →
        Passes world machine frames stack stack asked (.ask asked) bound (last, .ofOutcome final) := by
  induction bound using Nat.strong_induction_on with
  | _ bound ih =>
    constructor
    · intro machine frames origin outer raised demand within finishes
      cases within.proceeds upright.lawful before with
      | settled outcome is moves leaves =>
        subst is
        obtain ⟨less, rfl, later⟩ := moves.before finishes
        exact ⟨outcome, machine, less, .settled outcome, leaves, by omega, later⟩
      | crash is moves =>
        obtain ⟨less, rfl, later⟩ := moves.before finishes
        exact absurd later (not_finish_unwind machine frames less final last)
      | @further middle demand' control follows moves goesOn grows made within' =>
        obtain ⟨less, rfl, later⟩ := moves.before finishes
        obtain ⟨less', small, onwards⟩ : ∃ less', less' ≤ less ∧
            middle.finish 0 less' ⟨.meet demand', frames⟩ = some (last, .ofOutcome final) := by
          rcases goesOn with rfl | rfl
          · exact ⟨less, le_rfl, later⟩
          · obtain ⟨less', rfl, onwards⟩ := (advances_paused middle demand' frames).before later
            exact ⟨less', by omega, onwards⟩
        obtain ⟨outcome, machine', rest, comes, leaves, smaller, ends⟩ :=
          (ih less' (by omega)).1 middle frames origin outer raised demand' within' onwards
        exact ⟨outcome, machine', rest, .further follows comes, leaves.after grows made, by omega, ends⟩
      | @question asked next asks moves asking returns =>
        obtain ⟨less, rfl, later⟩ := moves.before finishes
        obtain ⟨answer, middle, less', answers, leaves, small, onwards⟩ :=
          (ih less (by omega)).2 machine _ (origin :: outer) asked asking later
        obtain ⟨raised', within'⟩ := returns middle answer leaves
        obtain ⟨less'', rfl, resumed⟩ := (advances_resume middle answer next frames).before onwards
        obtain ⟨outcome, machine', rest, comes, leaves', smaller, ends⟩ :=
          (ih less'' (by omega)).1 middle frames origin outer raised' (next answer) within' resumed
        rw [leaves.made origin (by simp)] at comes
        refine ⟨outcome, machine', rest, .question asks answers comes, ?_, by omega, ends⟩
        exact leaves'.after leaves.grows fun other member => leaves.made other (List.mem_cons_of_mem _ member)
    · intro machine frames stack asked asking finishes
      cases asking.answers upright with
      | again is within moves leaves =>
        subst is
        obtain ⟨less, rfl, later⟩ := moves.before finishes
        exact ⟨_, machine, less, .again within, leaves, by omega, later⟩
      | known yields moves leaves =>
        obtain ⟨less, rfl, later⟩ := moves.before finishes
        exact ⟨_, machine, less, yields.comes asking.nested, leaves, by omega, later⟩
      | @anew middle frame body starts apart empty moves within ends =>
        obtain ⟨less, rfl, later⟩ := moves.before finishes
        obtain ⟨outcome, machine', less', comes, leaves, small, onwards⟩ :=
          (ih less (by omega)).1 middle (frame :: frames) asked stack none body within later
        rw [empty] at comes
        obtain ⟨last', returns, leaves'⟩ := ends machine' outcome leaves
        obtain ⟨less'', rfl, rest⟩ := returns.before onwards
        exact ⟨outcome, last', less'', .anew starts apart comes, leaves', by omega, rest⟩
      | stays cell is within waits =>
        rw [waits] at finishes
        cases finishes

end
end Machine

/-! ### Inquiries -/

/-- What an inquiry comes to when nothing is remembered. -/
def World.Concludes (world : World) (inquiry : Inquiry) (outcome : Outcome) : Prop :=
  match world.final? inquiry.view inquiry.name with
  | some slot => world.Comes [] (.ask (.slot slot)) outcome
  | none => outcome = .error (.notFound inquiry.name)

namespace Machine
variable {machine : Machine} {inquiry : Inquiry} {outcome : Outcome}

private theorem finish_returned {bound : Nat} {result : Machine × Ending}
    (finishes : machine.finish 0 bound ⟨.yield outcome, []⟩ = some result) : result = (machine, .ofOutcome outcome) := by
  cases bound with
  | zero => cases finishes
  | succ bound => exact (Option.some.inj finishes).symm

private theorem Fresh.asking (fresh : machine.Fresh) (slot : SlotId) :
    machine.Asking machine.environment? [.resume .done] [] (.slot slot) where
  faithful := fresh.atRest.faithful
  origins := rfl
  nested := .singleton _
  nodup := .nil
  held := by simp
  inside := by simp
  cell := fun cell same => by cases same
  unspoilt := by
    have idle (origin : Origin) : machine.progress origin = .pending := by
      cases origin <;> simp [Machine.progress, fresh.slots, cell?, fresh.cells]
    refine ⟨fun origin owner running => ?_, fun origin outcome done => ?_, fun id cell found => ?_⟩
    · simp [idle] at running
    · simp [idle] at done
    · simp [cell?, fresh.cells] at found

/-- An inquiry on a machine without a memory comes to what it comes to when nothing is
    remembered on the way either. -/
theorem Fresh.gets_iff (fresh : machine.Fresh) (upright : World.Upright machine.environment?)
    (before : World.Sealed machine.environment?) :
    (∃ last, machine.Gets inquiry outcome last) ↔ World.Concludes machine.environment? inquiry outcome := by
  have top := top?_eq_final? rfl before inquiry.view inquiry.name
  unfold World.Concludes
  cases shows : World.final? machine.environment? inquiry.view inquiry.name with
  | none =>
    have moves : machine.Advances (.start inquiry.demand) machine ⟨.meet (.done (.error (.notFound inquiry.name))), []⟩ := by
      have first : machine.Advances (.start inquiry.demand) _ _ := advances_step (Or.inl rfl)
      simpa [Machine.step, Thread.start, Inquiry.demand, Machine.meet, top, shows, Thread.turn] using first
    have ends : machine.Advances ⟨.meet (.done (.error (.notFound inquiry.name))), []⟩ machine
        ⟨.yield (.error (.notFound inquiry.name)), []⟩ := advances_step (Or.inl rfl)
    constructor
    · rintro ⟨last, bound, finishes⟩
      obtain ⟨less, _, later⟩ := moves.before finishes
      obtain ⟨less', _, returned⟩ := ends.before later
      exact ofOutcome_injective (Prod.mk.inj (finish_returned returned)).2
    · rintro rfl
      exact ⟨machine, 3, (moves 2).trans (ends 1)⟩
  | some slot =>
    have moves : machine.Advances (.start inquiry.demand) machine ⟨.enter slot, [.resume .done]⟩ := by
      have first : machine.Advances (.start inquiry.demand) _ _ := advances_step (Or.inl rfl)
      simpa [Machine.step, Thread.start, Inquiry.demand, Machine.meet, top, shows, Thread.push] using first
    have ends (last : Machine) (answer : Outcome) :
        last.Advances ⟨.meet (.done answer), []⟩ last ⟨.yield answer, []⟩ := advances_step (Or.inl rfl)
    constructor
    · rintro ⟨last, bound, finishes⟩
      obtain ⟨less, _, later⟩ := moves.before finishes
      obtain ⟨answer, machine', less', comes, _, _, onwards⟩ := (passes upright before less).2 machine _ [] _ (fresh.asking slot) later
      obtain ⟨_, _, resumed⟩ := (advances_resume machine' answer .done []).before onwards
      obtain ⟨_, _, returned⟩ := (ends machine' answer).before resumed
      cases ofOutcome_injective (Prod.mk.inj (finish_returned returned)).2
      exact comes
    · intro comes
      obtain ⟨last, runs, _⟩ := completes upright before comes machine _ (fresh.asking slot)
      obtain ⟨steps, all⟩ := moves.runs.trans (runs.trans ((advances_resume last outcome .done []).runs.trans
        (ends last outcome).runs))
      exact ⟨last, 1 + steps, all 1⟩

end Machine
end Pkgset

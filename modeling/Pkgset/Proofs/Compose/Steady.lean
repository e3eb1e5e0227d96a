import Pkgset.Proofs.Compose.Calm
import Pkgset.Proofs.Compose.Course
import Pkgset.Proofs.Compose.Once

/-!
# Threads that keep steady

In a tame world no thread crashes. A demand that a thread is at does not crash and refers
to cells that there are, also after every answer: those that a component refers to were
there before the component. The same goes for errors: those that are handed on were raised
before, so what is admitted of the errors that are raised holds of all that come out.
-/

namespace Pkgset
open Machine

namespace Machine

/-- A default cell was made. -/
def Present (machine : Machine) (cell : CellId) : Prop := (machine.cell? cell).isSome

/-- Cells are given, at least all that there are. -/
def Gives (machine : Machine) (given : CellId → Prop) : Prop := ∀ cell, machine.Present cell → given cell

/-- A demand never crashes, refers to cells that there are, and hands errors on. -/
structure Suits (machine : Machine) (raised : Option ComposeError) (demand : Demand) : Prop where
  calm : demand.Calm
  lawful : ∀ given, machine.Gives given → demand.Lawful given raised

/-- What follows on an answer never crashes, refers to cells that there are or that the
    answer refers to, and hands errors on. -/
structure Continues (machine : Machine) (next : Outcome → Demand) : Prop where
  calm : ∀ outcome, (next outcome).Calm
  replies : ∀ given, machine.Gives given → Demand.Replies given fun raised outcome => (next outcome).Lawful given raised

/-- An outcome refers to cells that there are, or is an error that is admitted. -/
def Admits (machine : Machine) (admitted : ComposeError → Prop) : Outcome → Prop
  | .ok component => ∀ cell ∈ component.cells, machine.Present cell
  | .error error => admitted error

/-- What a thread does next keeps it from crashing. -/
def Steady (machine : Machine) (admitted : ComposeError → Prop) : Control → Prop
  | .meet demand => ∃ raised, (∀ error ∈ raised, admitted error) ∧ machine.Suits raised demand
  | .paused demand => ∃ raised, (∀ error ∈ raised, admitted error) ∧ machine.Suits raised demand
  | .enter _ => True
  | .blocked _ => True
  | .fill cell => machine.Present cell
  | .yield outcome => machine.Admits admitted outcome
  | .unwind => False

/-- A thread is steady, and so it is with each answer that one of its frames gets. -/
structure Keeps (machine : Machine) (admitted : ComposeError → Prop) (thread : Thread) : Prop where
  control : machine.Steady admitted thread.control
  frames : ∀ next, .resume next ∈ thread.frames → machine.Continues next

/-- What is remembered is admitted, and the bodies of cells are suitable. -/
structure Sound (world : World) (admitted : ComposeError → Prop) (machine : Machine) : Prop where
  here : machine.environment? = world
  slots : ∀ slot outcome, machine.slots slot = .done outcome → machine.Admits admitted outcome
  bodies : ∀ id cell, machine.cell? id = some cell → machine.Suits none cell.body
  cells : ∀ id cell outcome, machine.cell? id = some cell → cell.progress = .done outcome →
    machine.Admits admitted outcome

/-! ### More cells -/

/-- No cells are lost. -/
def Grows (machine machine' : Machine) : Prop := ∀ cell, machine.Present cell → machine'.Present cell

section
variable {machine machine' : Machine} {admitted : ComposeError → Prop} (grows : machine.Grows machine')
include grows

theorem Grows.gives {given : CellId → Prop} (gives : machine'.Gives given) : machine.Gives given :=
  fun cell present => gives cell (grows cell present)

theorem Suits.grow {raised : Option ComposeError} {demand : Demand} (suits : machine.Suits raised demand) :
    machine'.Suits raised demand :=
  ⟨suits.calm, fun given gives => suits.lawful given (grows.gives gives)⟩

theorem Continues.grow {next : Outcome → Demand} (continues : machine.Continues next) : machine'.Continues next :=
  ⟨continues.calm, fun given gives => continues.replies given (grows.gives gives)⟩

theorem Admits.grow {outcome : Outcome} (admits : machine.Admits admitted outcome) : machine'.Admits admitted outcome := by
  cases outcome with
  | ok component => exact fun cell member => grows cell (admits cell member)
  | error error => exact admits

theorem Steady.grow {control : Control} (steady : machine.Steady admitted control) : machine'.Steady admitted control := by
  cases control with
  | meet demand =>
    obtain ⟨raised, admits, suits⟩ := steady
    exact ⟨raised, admits, suits.grow grows⟩
  | paused demand =>
    obtain ⟨raised, admits, suits⟩ := steady
    exact ⟨raised, admits, suits.grow grows⟩
  | fill cell => exact grows cell steady
  | yield outcome => exact Admits.grow grows steady
  | _ => exact steady

theorem Keeps.grow {thread : Thread} (keeps : machine.Keeps admitted thread) : machine'.Keeps admitted thread :=
  ⟨Steady.grow grows keeps.control, fun next member => (keeps.frames next member).grow grows⟩

end

theorem Grows.refl (machine : Machine) : machine.Grows machine := fun _ => id

theorem grows_of_cells {machine machine' : Machine} (same : machine'.cells = machine.cells) : machine.Grows machine' :=
  fun cell present => by simpa [Present, cell?, same] using present

theorem grows_setCell (machine : Machine) (cell : CellId) (progress : Progress) :
    machine.Grows (machine.setCell cell progress) := by
  intro other present
  unfold Present at present ⊢
  rw [cell?_setCell]
  split
  next same => simpa [same] using present
  next => exact present

theorem present_allot (machine : Machine) (origin : Origin) (input : String) (view : View) (body : Demand) :
    machine.Grows (machine.allot origin input view body).1 ∧
      (machine.allot origin input view body).1.Present ⟨origin, machine.cellsMade origin⟩ := by
  constructor
  · intro other present
    unfold Present at present ⊢
    rw [cell?_allot]
    simp [present]
  · simp [Present, cell?_allot]

theorem panic_of_meet (machine : Machine) (thread : Thread) {demand : Demand}
    (crashes : (machine.meet thread demand).2.control = .unwind) : demand = .panic := by
  fun_cases Machine.meet machine thread demand <;> simp_all [Machine.meet, Thread.turn, Thread.push]

/-! ### What is remembered -/

namespace Sound
variable {world : World} {admitted : ComposeError → Prop} {machine : Machine}

theorem congr (sound : machine.Sound world admitted) {machine' : Machine}
    (environments : machine'.environment? = machine.environment?) (slots : machine'.slots = machine.slots)
    (cells : machine'.cells = machine.cells) : machine'.Sound world admitted := by
  have grows : machine.Grows machine' := grows_of_cells cells
  have cell? (id : CellId) : machine'.cell? id = machine.cell? id := by simp [Machine.cell?, cells]
  refine ⟨environments.trans sound.here, ?_, ?_, ?_⟩
  · intro slot outcome known
    exact (sound.slots slot outcome (slots ▸ known)).grow grows
  · intro id cell found
    exact (sound.bodies id cell ((cell? id).symm.trans found)).grow grows
  · intro id cell outcome found known
    exact (sound.cells id cell outcome ((cell? id).symm.trans found) known).grow grows

theorem setSlot (sound : machine.Sound world admitted) (slot : SlotId) {progress : Progress}
    (admits : ∀ outcome, progress = .done outcome → machine.Admits admitted outcome) :
    (machine.setSlot slot progress).Sound world admitted := by
  have grows : machine.Grows (machine.setSlot slot progress) := grows_of_cells rfl
  refine ⟨sound.here, ?_, ?_, ?_⟩
  · intro other outcome known
    rw [slots_setSlot] at known
    split at known
    next => exact (admits outcome known).grow grows
    next => exact (sound.slots other outcome known).grow grows
  · exact fun id cell found => (sound.bodies id cell found).grow grows
  · exact fun id cell outcome found known => (sound.cells id cell outcome found known).grow grows

theorem publish (sound : machine.Sound world admitted) (slot : SlotId) {outcome : Outcome}
    (admits : machine.Admits admitted outcome) : (machine.publish slot outcome).Sound world admitted := by
  have settled : (machine.setSlot slot (.done outcome)).Sound world admitted := sound.setSlot slot fun other same => by
    cases same
    exact admits
  exact settled.congr rfl rfl rfl

theorem setCell (sound : machine.Sound world admitted) (cell : CellId) {progress : Progress}
    (admits : ∀ outcome, progress = .done outcome → machine.Admits admitted outcome) :
    (machine.setCell cell progress).Sound world admitted := by
  have grows := grows_setCell machine cell progress
  refine ⟨sound.here, ?_, ?_, ?_⟩
  · intro slot outcome known
    exact (sound.slots slot outcome known).grow grows
  · intro id content found
    rw [cell?_setCell] at found
    split at found
    next =>
      obtain ⟨old, there, rfl⟩ := Option.map_eq_some_iff.mp found
      exact (sound.bodies cell old there).grow grows
    next => exact (sound.bodies id content found).grow grows
  · intro id content outcome found known
    rw [cell?_setCell] at found
    split at found
    next =>
      obtain ⟨old, there, rfl⟩ := Option.map_eq_some_iff.mp found
      exact (admits outcome known).grow grows
    next => exact (sound.cells id content outcome found known).grow grows

theorem allot (sound : machine.Sound world admitted) (origin : Origin) (input : String) (view : View) {body : Demand}
    (suits : machine.Suits none body) : (machine.allot origin input view body).1.Sound world admitted := by
  have grows := (present_allot machine origin input view body).1
  refine ⟨sound.here, ?_, ?_, ?_⟩
  · intro slot outcome known
    exact (sound.slots slot outcome known).grow grows
  · intro id cell found
    rw [cell?_allot, Option.or_eq_some_iff] at found
    rcases found with old | ⟨_, new⟩
    · exact (sound.bodies id cell old).grow grows
    · simp only [Option.ite_none_right_eq_some, Option.some.injEq] at new
      obtain ⟨_, rfl⟩ := new
      exact suits.grow grows
  · intro id cell outcome found known
    rw [cell?_allot, Option.or_eq_some_iff] at found
    rcases found with old | ⟨_, new⟩
    · exact (sound.cells id cell outcome old known).grow grows
    · simp only [Option.ite_none_right_eq_some, Option.some.injEq] at new
      obtain ⟨_, rfl⟩ := new
      cases known

end Sound

/-! ### Moves -/

/-- A move loses no cells, what is remembered stays sound, and the thread keeps steady. -/
private def Steadies (world : World) (admitted : ComposeError → Prop) (machine : Machine)
    (result : Machine × Thread) : Prop :=
  machine.Grows result.1 ∧ result.1.Sound world admitted ∧ result.1.Keeps admitted result.2

section
variable {world : World} {admitted : ComposeError → Prop} {machine : Machine} {thread : Thread}

private theorem settled_admits (plain : ∀ error, error.isCycle = false → admitted error) {raised : Option ComposeError}
    (admits : ∀ error ∈ raised, admitted error) {outcome : Outcome} (suits : machine.Suits raised (.done outcome)) :
    machine.Admits admitted outcome := by
  have lawful := suits.lawful machine.Present fun _ => id
  cases raised with
  | some error =>
    have same : outcome = .error error := by simpa [Demand.Lawful] using lawful
    subst same
    exact admits error rfl
  | none =>
    cases outcome with
    | ok component => exact lawful
    | error error => exact plain error lawful

private theorem continues_of_question {raised : Option ComposeError} {demand : Demand} (suits : machine.Suits raised demand)
    {origin asked : Origin} {made : Nat} {next : Outcome → Demand}
    (asks : world.react origin made demand = .question asked next) : machine.Continues next :=
  ⟨World.calm_of_question suits.calm asks, fun given gives => World.replies_of_question (suits.lawful given gives) asks⟩

private theorem meet_steadies (plain : ∀ error, error.isCycle = false → admitted error) (before : world.Sealed)
    (sound : machine.Sound world admitted) (frames : ∀ next, .resume next ∈ thread.frames → machine.Continues next)
    {raised : Option ComposeError} (admits : ∀ error ∈ raised, admitted error) {demand : Demand}
    (suits : machine.Suits raised demand) : Steadies world admitted machine (machine.meet thread demand) := by
  have meets := Machine.meets sound.here before thread demand
  generalize met : machine.meet thread demand = result at meets ⊢
  cases meets with
  | settled outcome same =>
    subst same
    exact ⟨Grows.refl machine, sound, settled_admits plain admits suits, frames⟩
  | crash =>
    have panics : demand = .panic := panic_of_meet machine thread (by rw [met]; rfl)
    exact absurd suits.calm (by simp [panics, Demand.Calm])
  | further journal control demand' follows goesOn =>
    have grows : machine.Grows { machine with journal } := grows_of_cells rfl
    have suits' : machine.Suits raised demand' := by
      refine ⟨World.calm_of_further suits.calm (follows .outside 0), fun given gives => ?_⟩
      refine World.lawful_of_further (suits.lawful given gives) (follows .outside 0) ?_
      rintro input view body next rfl
      cases follows .outside 0
    refine ⟨grows, sound.congr rfl rfl rfl, ?_, fun next member => (frames next member).grow grows⟩
    rcases goesOn with rfl | rfl <;> exact ⟨raised, admits, suits'.grow grows⟩
  | allot input view body next same =>
    subst same
    obtain ⟨grows, present⟩ := present_allot machine thread.origin input view body
    have bodySuits : machine.Suits none body := ⟨suits.calm.1, fun given gives => (suits.lawful given gives).1⟩
    refine ⟨grows, sound.allot _ input view bodySuits, ⟨raised, admits, suits.calm.2 _, ?_⟩,
      fun next member => (frames next member).grow grows⟩
    intro given gives
    exact (suits.lawful given (grows.gives gives)).2 _ (gives _ present)
  | enter slot next asks =>
    refine ⟨Grows.refl machine, sound, trivial, fun next' member => ?_⟩
    rcases List.mem_cons.mp member with same | member
    · cases same
      exact continues_of_question suits (asks .outside 0)
    · exact frames next' member
  | fill cell next asks =>
    have present : machine.Present cell := by
      cases raised with
      | some error => exact absurd (asks .outside 0) (World.not_asks_of_raised (suits.lawful machine.Present fun _ => id))
      | none => exact World.given_of_question (suits.lawful machine.Present fun _ => id) (asks .outside 0)
    refine ⟨Grows.refl machine, sound, present, fun next' member => ?_⟩
    rcases List.mem_cons.mp member with same | member
    · cases same
      exact continues_of_question suits (asks .outside 0)
    · exact frames next' member

/-- A definition is entered. If that is refused, the error has to be admitted. -/
private theorem enter_steadies (tame : world.Tame) (sound : machine.Sound world admitted) (id : ThreadId) (slot : SlotId)
    (frames : ∀ next, .resume next ∈ thread.frames → machine.Continues next)
    (refused : ∀ owner, machine.slots slot = .running owner →
      owner = id ∨ (closing? machine.waits id owner slot).isSome → ∀ chain, admitted (.evaluationCycle slot.name chain)) :
    Steadies world admitted machine (machine.enter id thread slot) := by
  fun_cases Machine.enter machine id thread slot with
  | case1 outcome known => exact ⟨Grows.refl machine, sound, sound.slots slot outcome known, frames⟩
  | case2 pending =>
    have grows : machine.Grows (machine.setSlot slot (.running id)) := grows_of_cells rfl
    obtain ⟨calm, lawful⟩ := tame.definition slot
    have suits : machine.Suits none (machine.definition slot) := by
      rw [Machine.definition_eq sound.here]
      exact ⟨calm, fun given _ => lawful given⟩
    refine ⟨grows, sound.setSlot slot (by simp), ⟨none, by simp, suits.grow grows⟩, fun next member => ?_⟩
    exact (frames next (by simpa [Thread.push] using member)).grow grows
  | case3 own => exact ⟨Grows.refl machine, sound, refused id own (Or.inl rfl) _, frames⟩
  | case4 owner running other hops found =>
    exact ⟨Grows.refl machine, sound, refused owner running (Or.inr (by simp [found])) _, frames⟩
  | case5 owner running other clear =>
    have grows : machine.Grows (machine.addWait id ⟨slot, owner⟩) := grows_of_cells rfl
    exact ⟨grows, sound.congr rfl rfl rfl, trivial, fun next member => (frames next member).grow grows⟩

private theorem fill_steadies (sound : machine.Sound world admitted) (id : ThreadId) {cell : CellId}
    (fills : thread.control = .fill cell) (keeps : machine.Keeps admitted thread) : Steadies world admitted machine (machine.fill id thread cell) := by
  have present : machine.Present cell := by simpa [Machine.Steady, fills] using keeps.control
  fun_cases Machine.fill machine id thread cell with
  | case1 missing => simp [Machine.Present, missing] at present
  | case2 content there outcome known =>
    exact ⟨Grows.refl machine, sound, sound.cells cell content outcome there known, keeps.frames⟩
  | case3 content there owner running => exact ⟨Grows.refl machine, sound, keeps⟩
  | case4 content there pending =>
    have grows := grows_setCell machine cell (.running id)
    have suits : machine.Suits none (machine.cellDemand content) := by
      unfold Machine.cellDemand
      split
      · exact sound.bodies cell content there
      · exact ⟨trivial, fun _ _ => rfl⟩
    refine ⟨grows, sound.setCell cell (by simp), ⟨none, by simp, suits.grow grows⟩, fun next member => ?_⟩
    exact (keeps.frames next (by simpa [Thread.push] using member)).grow grows

private theorem handOver_steadies (sound : machine.Sound world admitted) {outcome : Outcome} {frame : Frame}
    {frames : List Frame} (admits : machine.Admits admitted outcome)
    (continues : ∀ next, .resume next ∈ frame :: frames → machine.Continues next) :
    Steadies world admitted machine (machine.handOver outcome frames frame) := by
  have below (next : Outcome → Demand) (member : .resume next ∈ frames) : machine.Continues next :=
    continues next (List.mem_cons_of_mem _ member)
  cases frame with
  | slot slot =>
    have grows : machine.Grows (machine.publish slot outcome) := grows_of_cells rfl
    exact ⟨grows, sound.publish slot admits, admits.grow grows, fun next member => (below next member).grow grows⟩
  | cell cell =>
    have grows := grows_setCell machine cell (.done outcome)
    refine ⟨grows, sound.setCell cell fun other same => ?_, admits.grow grows,
      fun next member => (below next member).grow grows⟩
    cases same
    exact admits
  | resume next =>
    have goesOn := continues next (List.mem_cons_self ..)
    refine ⟨Grows.refl machine, sound, ?_, below⟩
    cases outcome with
    | ok component =>
      exact ⟨none, by simp, goesOn.calm _, fun given gives =>
        (goesOn.replies given gives).1 component fun cell member => gives cell (admits cell member)⟩
    | error error =>
      exact ⟨some error, by simpa [Machine.Admits] using admits, goesOn.calm _, fun given gives =>
        (goesOn.replies given gives).2 error⟩

/-- A move keeps a thread steady, unless it is refused with an error that is not admitted. -/
private theorem step_steadies (tame : world.Tame) (plain : ∀ error, error.isCycle = false → admitted error)
    (before : world.Sealed) (sound : machine.Sound world admitted) (keeps : machine.Keeps admitted thread) (id : ThreadId)
    (refused : ∀ slot owner, thread.control = .enter slot → machine.slots slot = .running owner →
      owner = id ∨ (closing? machine.waits id owner slot).isSome → ∀ chain, admitted (.evaluationCycle slot.name chain)) :
    Steadies world admitted machine (machine.step id thread) := by
  have steady := keeps.control
  unfold Machine.step
  cases control : thread.control with
  | meet demand =>
    rw [control] at steady
    obtain ⟨raised, admits, suits⟩ := steady
    exact meet_steadies plain before sound keeps.frames admits suits
  | enter slot => exact enter_steadies tame sound id slot keeps.frames fun owner => refused slot owner control
  | fill cell => exact fill_steadies sound id control keeps
  | yield outcome =>
    rw [control] at steady
    have continues := keeps.frames
    cases held : thread.frames with
    | nil => exact ⟨Grows.refl machine, sound, keeps⟩
    | cons frame frames =>
      rw [held] at continues
      exact handOver_steadies sound steady continues
  | unwind =>
    rw [control] at steady
    exact steady.elim
  | blocked slot =>
    have grows : machine.Grows (machine.clearWait id) := grows_of_cells rfl
    exact ⟨grows, sound.congr rfl rfl rfl, trivial, fun next member => (keeps.frames next member).grow grows⟩
  | paused demand =>
    rw [control] at steady
    exact ⟨Grows.refl machine, sound, steady, keeps.frames⟩

end

theorem Steady.not_unwind {machine : Machine} {admitted : ComposeError → Prop} {control : Control}
    (steady : machine.Steady admitted control) : control ≠ .unwind := by
  rintro rfl
  exact steady

end Machine

/-- What is remembered is sound, and every thread keeps steady. -/
structure Pool.Steady (world : World) (admitted : ComposeError → Prop) (pool : Pool) : Prop where
  machine : pool.machine.Sound world admitted
  threads : ∀ id, pool.machine.Keeps admitted (pool.threads id)

/-- What one thread does keeps all threads steady, unless it is refused with an error that is
    not admitted. -/
theorem Pool.Steady.step {world : World} {admitted : ComposeError → Prop} {pool : Pool} (tame : world.Tame)
    (plain : ∀ error, error.isCycle = false → admitted error) (before : world.Sealed) (steady : pool.Steady world admitted)
    (id : ThreadId)
    (refused : ∀ slot owner, (pool.threads id).control = .enter slot → pool.machine.slots slot = .running owner →
      owner = id ∨ (closing? pool.machine.waits id owner slot).isSome →
        ∀ chain, admitted (.evaluationCycle slot.name chain)) :
    (pool.step id).Steady world admitted := by
  obtain ⟨grows, sound, keeps⟩ := step_steadies tame plain before steady.machine (steady.threads id) id refused
  refine ⟨sound, fun other => ?_⟩
  by_cases same : other = id
  · subst same
    rw [threads_step_self]
    exact keeps
  · rw [threads_step_of_ne same]
    exact (steady.threads other).grow grows

end Pkgset

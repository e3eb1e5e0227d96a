import Pkgset.Proofs.Compose.Course
import Pkgset.Proofs.Compose.Ownership

/-!
# Threads that follow the meaning

A thread that answers an inquiry follows the meaning: each of its frames waits for
what the computation above it comes to, and the computation is on its course. A move
keeps this, and what it publishes is granted. An outcome that one inquiry left behind
is the same that any later one would have come to, so it does not matter who left it.
-/

namespace Pkgset
open Relation

/-- An inquiry from outside of any computation: for the entry of a name, in a view. -/
structure Inquiry where
  view : View
  name : String

/-- What a thread meets for an inquiry. -/
def Inquiry.demand (inquiry : Inquiry) : Demand := .get inquiry.view inquiry.name .done

namespace World

/-- What the entry that an inquiry is for stands for. -/
def Means (world : World) (inquiry : Inquiry) (outcome : Outcome) : Prop :=
  match world.final? inquiry.view inquiry.name with
  | some slot => world.Yields (.slot slot) outcome
  | none => outcome = .error (.notFound inquiry.name)

variable {world : World} {inquiry : Inquiry}

theorem means_of_shown {slot : SlotId} (shows : world.final? inquiry.view inquiry.name = some slot) :
    world.Means inquiry = world.Yields (.slot slot) := by
  funext outcome
  simp [Means, shows]

theorem means_of_hidden (hidden : world.final? inquiry.view inquiry.name = none) (outcome : Outcome) :
    world.Means inquiry outcome ↔ outcome = .error (.notFound inquiry.name) := by
  simp [Means, hidden]

end World

/-- Frames that wait for what a computation comes to. Each goes on with the demand from
    which the computation of the frame below has asked; the lowest one ends the inquiry. -/
inductive Awaits (world : World) (made : Origin → Nat) (inquiry : Inquiry) : Origin → List Frame → Prop where
  | inquiry {slot : SlotId} (shows : world.final? inquiry.view inquiry.name = some slot) :
      Awaits world made inquiry (.slot slot) [.resume .done]
  | question {origin asked : Origin} {demand : Demand} {next : Outcome → Demand} {frame : Frame} {frames : List Frame}
      (is : frame.origin? = some origin) (reaches : world.Reaches origin (made origin) demand)
      (asks : world.react origin (made origin) demand = .question asked next)
      (below : Awaits world made inquiry origin frames) :
      Awaits world made inquiry asked (.resume next :: frame :: frames)

namespace Awaits
variable {world : World} {made made' : Origin → Nat} {inquiry : Inquiry} {asked : Origin} {frames : List Frame}

theorem congr (awaits : Awaits world made inquiry asked frames)
    (same : ∀ origin ∈ frames.filterMap Frame.origin?, made' origin = made origin) :
    Awaits world made' inquiry asked frames := by
  induction awaits with
  | inquiry shows => exact .inquiry shows
  | @question origin asked demand next frame frames is reaches asks below ih =>
    have here : made' origin = made origin := same origin (by simp [is])
    refine .question is (here ▸ reaches) (here ▸ asks) (ih fun origin member => same origin ?_)
    simp only [List.filterMap_cons, Frame.origin?_resume, is]
    exact List.mem_cons_of_mem _ member

/-- The computations of the frames ask, directly or through others, for what they wait for. -/
theorem path (awaits : Awaits world made inquiry asked frames) :
    ∀ origin ∈ frames.filterMap Frame.origin?, TransGen world.Asks origin asked := by
  induction awaits with
  | inquiry shows => simp
  | @question origin asked demand next frame frames is reaches asks below ih =>
    have edge : world.Asks origin asked := ⟨_, demand, next, reaches, asks⟩
    intro other member
    simp only [List.filterMap_cons, Frame.origin?_resume, is, List.mem_cons] at member
    rcases member with rfl | member
    · exact .single edge
    · exact (ih other member).tail edge

/-- A cell that is waited for is one that is made. -/
theorem made_cell (lawful : world.Lawful) {cell : CellId} (awaits : Awaits world made inquiry cell.computation frames) :
    world.Made cell := by
  generalize same : cell.computation = asked at awaits
  cases awaits with
  | inquiry shows => cases same
  | question is reaches asks below =>
    subst same
    exact World.given_of_question (reaches.lawful lawful fun _ => id) asks

end Awaits

/-- What a thread does for an inquiry: it meets the inquiry itself, is within a computation that
    is on its course, waits for one, or has been given what one comes to. -/
inductive Follows (world : World) (made : Origin → Nat) (inquiry : Inquiry) : Thread → Prop where
  | opening {control : Control} (starts : control = .meet inquiry.demand ∨ control = .paused inquiry.demand) :
      Follows world made inquiry ⟨control, []⟩
  | returning {outcome : Outcome} (granted : Granted (world.Means inquiry) outcome) :
      Follows world made inquiry ⟨.meet (.done outcome), []⟩
  | returned {outcome : Outcome} (granted : Granted (world.Means inquiry) outcome) :
      Follows world made inquiry ⟨.yield outcome, []⟩
  | within {frame : Frame} {frames : List Frame} {origin : Origin} {demand : Demand} {control : Control}
      (is : frame.origin? = some origin) (course : world.OnCourse origin (made origin) demand)
      (below : Awaits world made inquiry origin frames) (meets : control = .meet demand ∨ control = .paused demand) :
      Follows world made inquiry ⟨control, frame :: frames⟩
  | entering {slot : SlotId} {frames : List Frame} {control : Control}
      (awaits : Awaits world made inquiry (.slot slot) frames)
      (enters : control = .enter slot ∨ control = .blocked slot) : Follows world made inquiry ⟨control, frames⟩
  | filling {cell : CellId} {frames : List Frame} (awaits : Awaits world made inquiry cell.computation frames) :
      Follows world made inquiry ⟨.fill cell, frames⟩
  | finishing {frame : Frame} {frames : List Frame} {origin : Origin} {outcome : Outcome}
      (is : frame.origin? = some origin) (granted : world.Grants origin outcome)
      (below : Awaits world made inquiry origin frames) : Follows world made inquiry ⟨.yield outcome, frame :: frames⟩
  | answered {asked : Origin} {frames : List Frame} {outcome : Outcome} (awaits : Awaits world made inquiry asked frames)
      (granted : world.Grants asked outcome) : Follows world made inquiry ⟨.yield outcome, frames⟩

/-- A machine that knows nothing but what is granted, and whose cells are as their meaning
    has them. A computation that was not started has made no cells. -/
structure Machine.Faithful (world : World) (machine : Machine) : Prop where
  here : machine.environment? = world
  granted : ∀ origin outcome, machine.progress origin = .done outcome → world.Grants origin outcome
  cells : ∀ id cell, machine.cell? id = some cell → world.Made id →
    ∃ view next, cell.env = view.env ∧ world.Reaches id.origin id.number (.allot cell.input view cell.body next)
  fresh : ∀ origin, machine.progress origin = .pending → machine.cellsMade origin = 0

namespace Machine.Faithful
variable {world : World} {machine : Machine}

/-- What is not told apart by environments, computations and cells is as faithful. -/
theorem congr (faithful : machine.Faithful world) {machine' : Machine}
    (environments : machine'.environment? = machine.environment?)
    (progress : ∀ origin, machine'.progress origin = machine.progress origin) (cells : machine'.cells = machine.cells) :
    machine'.Faithful world := by
  have cell? (id : CellId) : machine'.cell? id = machine.cell? id := by simp [Machine.cell?, cells]
  have made (origin : Origin) : machine'.cellsMade origin = machine.cellsMade origin := by simp [cellsMade, cells]
  refine ⟨environments.trans faithful.here, ?_, ?_, ?_⟩
  · intro origin outcome known
    exact faithful.granted origin outcome ((progress origin).symm.trans known)
  · intro id cell found
    exact faithful.cells id cell ((cell? id).symm.trans found)
  · intro origin pending
    exact (made origin).trans (faithful.fresh origin ((progress origin).symm.trans pending))

/-- A definition is started, or ended with what is granted for it. -/
theorem setSlot (faithful : machine.Faithful world) (slot : SlotId) {progress : Progress} (busy : progress ≠ .pending)
    (granted : ∀ outcome, progress = .done outcome → world.Grants (.slot slot) outcome) :
    (machine.setSlot slot progress).Faithful world := by
  refine ⟨faithful.here, ?_, faithful.cells, ?_⟩
  · intro origin outcome known
    rw [progress_setSlot] at known
    split at known
    next same => exact same ▸ granted outcome known
    next => exact faithful.granted origin outcome known
  · intro origin pending
    rw [progress_setSlot] at pending
    split at pending
    next => exact absurd pending busy
    next => exact faithful.fresh origin pending

theorem publish (faithful : machine.Faithful world) {slot : SlotId} {outcome : Outcome}
    (granted : world.Grants (.slot slot) outcome) : (machine.publish slot outcome).Faithful world := by
  have settled : (machine.setSlot slot (.done outcome)).Faithful world :=
    faithful.setSlot slot (by simp) fun other same => by
      cases same
      exact granted
  exact settled.congr rfl (fun origin => by simp) rfl

/-- A default is started, or ended with what is granted for it. -/
theorem setCell (faithful : machine.Faithful world) (cell : CellId) {progress : Progress} (busy : progress ≠ .pending)
    (granted : ∀ outcome, progress = .done outcome → world.Grants cell.computation outcome) :
    (machine.setCell cell progress).Faithful world := by
  refine ⟨faithful.here, ?_, ?_, ?_⟩
  · intro origin outcome known
    rw [progress_setCell] at known
    split at known
    next same => exact same.1 ▸ granted outcome known
    next => exact faithful.granted origin outcome known
  · intro id content found made
    rw [cell?_setCell] at found
    split at found
    next same =>
      obtain ⟨before, there, rfl⟩ := Option.map_eq_some_iff.mp found
      exact same ▸ faithful.cells cell before there (same ▸ made)
    next => exact faithful.cells id content found made
  · intro origin pending
    rw [cellsMade_setCell]
    rw [progress_setCell] at pending
    split at pending
    next => exact absurd pending busy
    next => exact faithful.fresh origin pending

/-- A cell is made as its meaning has it, or it has no meaning. -/
theorem allot (faithful : machine.Faithful world) {origin : Origin} {input : String} {view : View} {body : Demand}
    {next : CellId → Demand} (course : world.OnCourse origin (machine.cellsMade origin) (.allot input view body next))
    (busy : machine.progress origin ≠ .pending) : (machine.allot origin input view body).1.Faithful world := by
  refine ⟨faithful.here, ?_, ?_, ?_⟩
  · intro other outcome known
    exact faithful.granted other outcome (by simpa using known)
  · intro id cell found made
    rw [cell?_allot, Option.or_eq_some_iff] at found
    rcases found with old | ⟨_, new⟩
    · exact faithful.cells id cell old made
    · simp only [Option.ite_none_right_eq_some, Option.some.injEq] at new
      obtain ⟨rfl, rfl⟩ := new
      rcases course with reaches | stalls
      · exact ⟨view, next, rfl, reaches⟩
      · exact absurd made (stalls.unmade _ le_rfl)
  · intro other pending
    rw [progress_allot] at pending
    have apart : other ≠ origin := by
      rintro rfl
      exact busy pending
    simp [cellsMade_allot, apart, faithful.fresh other pending]

end Machine.Faithful

namespace Follows
variable {world : World} {made made' : Origin → Nat} {inquiry : Inquiry} {thread : Thread}

theorem congr (follows : Follows world made inquiry thread)
    (same : ∀ origin ∈ thread.origins, made' origin = made origin) : Follows world made' inquiry thread := by
  cases follows with
  | opening starts => exact .opening starts
  | returning granted => exact .returning granted
  | returned granted => exact .returned granted
  | within is course below meets =>
    simp only [Thread.origins, List.filterMap_cons, is, List.mem_cons, forall_eq_or_imp] at same
    exact .within is (same.1 ▸ course) (below.congr same.2) meets
  | entering awaits enters => exact .entering (awaits.congr same) enters
  | filling awaits => exact .filling (awaits.congr same)
  | finishing is granted below =>
    simp only [Thread.origins, List.filterMap_cons, is, List.mem_cons, forall_eq_or_imp] at same
    exact .finishing is granted (below.congr same.2)
  | answered awaits granted => exact .answered (awaits.congr same) granted

/-! ### Moves -/

/-- After a move, the machine is faithful and the thread follows. -/
private def Keeps (world : World) (inquiry : Inquiry) (result : Machine × Thread) : Prop :=
  result.1.Faithful world ∧ Follows world result.1.cellsMade inquiry result.2

variable {machine : Machine}

private theorem meet_opening (before : world.Sealed) (faithful : machine.Faithful world) (inquiry : Inquiry)
    {control : Control} :
    Keeps world inquiry (machine.meet ⟨control, []⟩ inquiry.demand) := by
  have top := Machine.top?_eq_final? faithful.here before inquiry.view inquiry.name
  unfold Inquiry.demand Machine.meet
  cases shows : world.final? inquiry.view inquiry.name with
  | some slot =>
    simp only [top, shows]
    exact ⟨faithful, .entering (.inquiry shows) (Or.inl rfl)⟩
  | none =>
    simp only [top, shows]
    exact ⟨faithful, .returning (Or.inl ((World.means_of_hidden shows _).mpr rfl))⟩

private theorem meet_within (before : world.Sealed) (faithful : machine.Faithful world) {frame : Frame}
    {frames : List Frame} {origin : Origin} {demand : Demand} {control : Control} (is : frame.origin? = some origin)
    (course : world.OnCourse origin (machine.cellsMade origin) demand)
    (below : Awaits world machine.cellsMade inquiry origin frames) (busy : machine.progress origin ≠ .pending)
    (once : origin ∉ frames.filterMap Frame.origin?)
    (calm : (machine.meet ⟨control, frame :: frames⟩ demand).2.control ≠ .unwind) :
    Keeps world inquiry (machine.meet ⟨control, frame :: frames⟩ demand) := by
  have meets := Machine.meets faithful.here before ⟨control, frame :: frames⟩ demand
  have inner : (⟨control, frame :: frames⟩ : Thread).origin = origin := by simp [Thread.origin, is]
  generalize machine.meet ⟨control, frame :: frames⟩ demand = result at meets calm ⊢
  cases meets with
  | settled outcome same =>
    subst same
    exact ⟨faithful, .finishing is course.settled below⟩
  | crash => exact absurd rfl calm
  | further journal control' demand' follows goesOn =>
    exact ⟨faithful.congr rfl (Machine.progress_note machine journal) rfl,
      .within is (course.further (follows origin _)) below goesOn⟩
  | allot input view body next same =>
    subst same
    simp only [inner]
    refine ⟨faithful.allot course busy, .within is ?_ (below.congr fun other member => ?_) (Or.inl rfl)⟩
    · simpa [Machine.cellsMade_allot] using course.further rfl
    · have apart : other ≠ origin := fun equal => once (equal ▸ member)
      simp [Machine.cellsMade_allot, apart]
  | enter slot next asks =>
    have reaches := course.reaches (asks origin _)
    exact ⟨faithful, .entering (.question is reaches (asks origin _) below) (Or.inl rfl)⟩
  | fill cell next asks =>
    have reaches := course.reaches (asks origin _)
    exact ⟨faithful, .filling (.question is reaches (asks origin _) below)⟩

/-- A definition is entered. If that is refused, the definition has to be one without an
    outcome. -/
private theorem enter_keeps (faithful : machine.Faithful world) (id : ThreadId) {slot : SlotId} {frames : List Frame}
    {control : Control} (awaits : Awaits world machine.cellsMade inquiry (.slot slot) frames)
    (refused : ∀ owner, machine.slots slot = .running owner →
      owner = id ∨ (Machine.closing? machine.waits id owner slot).isSome → world.Stuck (.slot slot)) :
    Keeps world inquiry (machine.enter id ⟨control, frames⟩ slot) := by
  fun_cases Machine.enter machine id ⟨control, frames⟩ slot with
  | case1 outcome known => exact ⟨faithful, .answered awaits (faithful.granted (.slot slot) outcome known)⟩
  | case2 pending =>
    have reaches : world.Reaches (.slot slot) (machine.cellsMade (.slot slot)) (machine.definition slot) := by
      rw [faithful.fresh (.slot slot) pending, Machine.definition_eq faithful.here]
      exact .definition slot
    exact ⟨faithful.setSlot slot (by simp) (by simp), .within rfl (Or.inl reaches) awaits (Or.inl rfl)⟩
  | case3 own => exact ⟨faithful, .answered awaits (Or.inr ⟨rfl, refused id own (Or.inl rfl)⟩)⟩
  | case4 owner running other hops found =>
    exact ⟨faithful, .answered awaits (Or.inr ⟨rfl, refused owner running (Or.inr (by simp [found]))⟩)⟩
  | case5 owner running other clear =>
    exact ⟨faithful.congr rfl (Machine.progress_waits machine _) rfl, .entering awaits (Or.inr rfl)⟩

/-- A cell is used. One that is made starts with the default that it was made with. -/
private theorem fill_keeps (lawful : world.Lawful) (faithful : machine.Faithful world) (id : ThreadId) {cell : CellId}
    {frames : List Frame} (awaits : Awaits world machine.cellsMade inquiry cell.computation frames)
    (calm : (machine.fill id ⟨.fill cell, frames⟩ cell).2.control ≠ .unwind) :
    Keeps world inquiry (machine.fill id ⟨.fill cell, frames⟩ cell) := by
  fun_cases Machine.fill machine id ⟨.fill cell, frames⟩ cell with
  | case1 missing => simp [Machine.fill, missing, Thread.turn] at calm
  | case2 content there outcome known =>
    have done : machine.progress cell.computation = .done outcome := by
      simpa [Machine.progress, CellId.computation, there] using known
    exact ⟨faithful, .answered awaits (faithful.granted _ outcome done)⟩
  | case3 content there owner running => exact ⟨faithful, .filling awaits⟩
  | case4 content there pending =>
    have idle : machine.progress cell.computation = .pending := by
      simpa [Machine.progress, CellId.computation, there] using pending
    obtain ⟨view, next, env, allots⟩ := faithful.cells cell content there (awaits.made_cell lawful)
    have reaches : world.Reaches cell.computation (machine.cellsMade cell.computation) (machine.cellDemand content) := by
      rw [faithful.fresh _ idle, Machine.cellDemand_eq faithful.here, env]
      exact .default allots
    refine ⟨faithful.setCell cell (by simp) (by simp), .within rfl (Or.inl ?_) (awaits.congr ?_) (Or.inl rfl)⟩
    · simpa using reaches
    · simp

private theorem finishing_keeps (faithful : machine.Faithful world) {frame : Frame} {frames : List Frame}
    {origin : Origin} {outcome : Outcome} (is : frame.origin? = some origin) (granted : world.Grants origin outcome)
    (below : Awaits world machine.cellsMade inquiry origin frames) :
    Keeps world inquiry (machine.handOver outcome frames frame) := by
  cases frame with
  | slot slot =>
    cases is
    exact ⟨faithful.publish granted, .answered below granted⟩
  | cell cell =>
    cases is
    have still := below.congr fun origin _ => Machine.cellsMade_setCell machine cell (.done outcome) origin
    refine ⟨faithful.setCell cell (by simp) fun other same => ?_, .answered still granted⟩
    cases same
    exact granted
  | resume next => cases is

private theorem answered_keeps (lawful : world.Lawful) (faithful : machine.Faithful world) {frame : Frame}
    {frames : List Frame} {asked : Origin} {outcome : Outcome}
    (awaits : Awaits world machine.cellsMade inquiry asked (frame :: frames)) (granted : world.Grants asked outcome) :
    Keeps world inquiry (machine.handOver outcome frames frame) := by
  cases awaits with
  | inquiry shows =>
    refine ⟨faithful, .returning ?_⟩
    rw [World.means_of_shown shows]
    exact granted
  | question is reaches asks below =>
    exact ⟨faithful, .within is (World.OnCourse.answer lawful reaches asks granted) below (Or.inl rfl)⟩

/-- A thread that follows keeps following, and the machine stays faithful, unless the
    thread crashes. -/
theorem step (lawful : world.Lawful) (before : world.Sealed) (faithful : machine.Faithful world) (id : ThreadId)
    (owner : ∀ origin ∈ thread.origins, machine.progress origin = .running id) (once : thread.origins.Nodup)
    (refused : ∀ slot owner, thread.control = .enter slot → machine.slots slot = .running owner →
      owner = id ∨ (Machine.closing? machine.waits id owner slot).isSome → world.Stuck (.slot slot))
    (calm : (machine.step id thread).2.control ≠ .unwind) (follows : Follows world machine.cellsMade inquiry thread) :
    (machine.step id thread).1.Faithful world ∧
      Follows world (machine.step id thread).1.cellsMade inquiry (machine.step id thread).2 := by
  cases follows with
  | opening starts =>
    rcases starts with rfl | rfl
    · exact meet_opening before faithful inquiry
    · exact ⟨faithful, .opening (Or.inl rfl)⟩
  | returning granted => exact ⟨faithful, .returned granted⟩
  | returned granted => exact ⟨faithful, .returned granted⟩
  | @within frame frames origin demand control is course below meets =>
    simp only [Thread.origins, List.filterMap_cons, is, List.mem_cons, forall_eq_or_imp, List.nodup_cons] at owner once
    rcases meets with rfl | rfl
    · exact meet_within before faithful is course below (by simp [owner.1]) once.1 calm
    · exact ⟨faithful, .within is course below (Or.inl rfl)⟩
  | @entering slot frames control awaits enters =>
    rcases enters with rfl | rfl
    · exact enter_keeps faithful id awaits fun owner => refused slot owner rfl
    · exact ⟨faithful.congr rfl (Machine.progress_waits machine _) rfl, .entering awaits (Or.inl rfl)⟩
  | filling awaits => exact fill_keeps lawful faithful id awaits calm
  | finishing is granted below => exact finishing_keeps faithful is granted below
  | @answered asked frames outcome awaits granted =>
    cases frames with
    | nil => cases awaits
    | cons frame frames => exact answered_keeps lawful faithful awaits granted

end Follows
end Pkgset

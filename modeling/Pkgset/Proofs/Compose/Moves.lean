import Pkgset.Compose.Machine

/-!
# What a move does to definitions and waits

A thread moves in five ways: it starts a definition, goes to sleep, wakes up,
publishes a definition, or leaves definitions and waits as they are.
-/

namespace Pkgset

/-- The definition that a sleeping thread waits for. -/
def Thread.sleepsOn? (thread : Thread) : Option SlotId :=
  match thread.control with
  | .blocked slot => some slot
  | _ => none

/-- The definition whose outcome a thread is about to publish. -/
def Thread.publishes? (thread : Thread) : Option SlotId :=
  match thread.control, thread.frames with
  | .yield _, .slot slot :: _ => some slot
  | .unwind, .slot slot :: _ => some slot
  | _, _ => none

theorem Thread.awake_of_publishes {thread : Thread} {slot : SlotId} (publishes : thread.publishes? = some slot) :
    thread.sleepsOn? = none := by
  fun_cases Thread.publishes? thread <;> simp_all [Thread.publishes?, Thread.sleepsOn?]

namespace Machine

@[simp] theorem slots_setCell (machine : Machine) (cell : CellId) (progress : Progress) :
    (machine.setCell cell progress).slots = machine.slots := rfl
@[simp] theorem waits_setCell (machine : Machine) (cell : CellId) (progress : Progress) :
    (machine.setCell cell progress).waits = machine.waits := rfl
@[simp] theorem slots_setSlot (machine : Machine) (slot other : SlotId) (progress : Progress) :
    (machine.setSlot slot progress).slots other = if other = slot then progress else machine.slots other := rfl
@[simp] theorem slots_publish (machine : Machine) (slot other : SlotId) (outcome : Outcome) :
    (machine.publish slot outcome).slots other = if other = slot then .done outcome else machine.slots other := rfl
@[simp] theorem waits_publish (machine : Machine) (slot : SlotId) (outcome : Outcome) :
    (machine.publish slot outcome).waits = machine.waits.filter fun entry => entry.2.slot != slot := rfl

/-- The five ways in which a thread moves. -/
inductive Effect (machine : Machine) (id : ThreadId) (thread : Thread) : Machine × Thread → Prop where
  | quiet {machine' : Machine} {thread' : Thread} (slots : machine'.slots = machine.slots)
      (waits : machine'.waits = machine.waits) (forcing : thread'.forcing = thread.forcing)
      (awake : thread.sleepsOn? = none) (stillAwake : thread'.sleepsOn? = none) (silent : thread.publishes? = none) :
      Effect machine id thread (machine', thread')
  | start (slot : SlotId) (enters : thread.control = .enter slot) (pending : machine.slots slot = .pending) :
      Effect machine id thread
        (machine.setSlot slot (.running id), thread.push (.slot slot) (.meet (machine.definition slot)))
  | sleep (slot : SlotId) (owner : ThreadId) (enters : thread.control = .enter slot)
      (running : machine.slots slot = .running owner) (other : owner ≠ id)
      (clear : closing? machine.waits id owner slot = none) :
      Effect machine id thread (machine.addWait id ⟨slot, owner⟩, thread.turn (.blocked slot))
  | wake (slot : SlotId) (asleep : thread.control = .blocked slot) :
      Effect machine id thread (machine.clearWait id, thread.turn (.enter slot))
  | publish (slot : SlotId) (outcome : Outcome) (frames : List Frame) (control : Control)
      (publishes : thread.publishes? = some slot) (held : thread.frames = .slot slot :: frames)
      (next : control = .yield outcome ∨ control = .unwind) :
      Effect machine id thread (machine.publish slot outcome, ⟨control, frames⟩)

/-- A demand that is met leaves definitions and waits as they are. -/
theorem meet_quiet (machine : Machine) (thread : Thread) (demand : Demand) :
    (machine.meet thread demand).1.slots = machine.slots ∧ (machine.meet thread demand).1.waits = machine.waits ∧
      (machine.meet thread demand).2.forcing = thread.forcing ∧ (machine.meet thread demand).2.sleepsOn? = none := by
  fun_cases Machine.meet machine thread demand with
  | case15 input view body next larger cell made =>
    cases made
    exact ⟨rfl, rfl, rfl, rfl⟩
  | _ => simp [Thread.turn, Thread.push, Thread.forcing, Thread.sleepsOn?]

theorem fill_quiet (machine : Machine) (id : ThreadId) {thread : Thread} {cell : CellId}
    (fills : thread.control = .fill cell) :
    (machine.fill id thread cell).1.slots = machine.slots ∧ (machine.fill id thread cell).1.waits = machine.waits ∧
      (machine.fill id thread cell).2.forcing = thread.forcing ∧
      (machine.fill id thread cell).2.sleepsOn? = none := by
  fun_cases Machine.fill machine id thread cell <;>
    simp [Thread.turn, Thread.push, Thread.forcing, Thread.sleepsOn?, fills]

theorem enter_effect (machine : Machine) (id : ThreadId) {thread : Thread} {slot : SlotId}
    (enters : thread.control = .enter slot) : Effect machine id thread (machine.enter id thread slot) := by
  have awake : thread.sleepsOn? = none := by simp [Thread.sleepsOn?, enters]
  have silent : thread.publishes? = none := by simp [Thread.publishes?, enters]
  fun_cases Machine.enter machine id thread slot with
  | case1 outcome known => exact .quiet rfl rfl rfl awake rfl silent
  | case2 pending => exact .start slot enters pending
  | case3 own => exact .quiet rfl rfl rfl awake rfl silent
  | case4 owner running other hops found => exact .quiet rfl rfl rfl awake rfl silent
  | case5 owner running other clear => exact .sleep slot owner enters running other clear

theorem handOver_effect (machine : Machine) (id : ThreadId) {thread : Thread} {outcome : Outcome} {frame : Frame}
    {frames : List Frame} (yields : thread.control = .yield outcome) (held : thread.frames = frame :: frames) :
    Effect machine id thread (machine.handOver outcome frames frame) := by
  cases frame with
  | slot slot =>
    exact .publish slot outcome frames (.yield outcome) (by simp [Thread.publishes?, yields, held]) held (Or.inl rfl)
  | cell cell =>
    exact .quiet rfl rfl (by simp [Thread.forcing, held]) (by simp [Thread.sleepsOn?, yields]) rfl
      (by simp [Thread.publishes?, yields, held])
  | resume next =>
    exact .quiet rfl rfl (by simp [Thread.forcing, held]) (by simp [Thread.sleepsOn?, yields]) rfl
      (by simp [Thread.publishes?, yields, held])

theorem crash_effect (machine : Machine) (id : ThreadId) {thread : Thread} {frame : Frame} {frames : List Frame}
    (crashes : thread.control = .unwind) (held : thread.frames = frame :: frames) :
    Effect machine id thread (machine.crash frames frame) := by
  cases frame with
  | slot slot =>
    exact .publish slot _ frames .unwind (by simp [Thread.publishes?, crashes, held]) held (Or.inr rfl)
  | cell cell =>
    exact .quiet rfl rfl (by simp [Thread.forcing, held]) (by simp [Thread.sleepsOn?, crashes]) rfl
      (by simp [Thread.publishes?, crashes, held])
  | resume next =>
    exact .quiet rfl rfl (by simp [Thread.forcing, held]) (by simp [Thread.sleepsOn?, crashes]) rfl
      (by simp [Thread.publishes?, crashes, held])

/-- Every move is one of the five. -/
theorem step_effect (machine : Machine) (id : ThreadId) (thread : Thread) :
    Effect machine id thread (machine.step id thread) := by
  unfold Machine.step
  cases control : thread.control with
  | meet demand =>
    obtain ⟨slots, waits, forcing, awake⟩ := meet_quiet machine thread demand
    exact .quiet slots waits forcing (by simp [Thread.sleepsOn?, control]) awake (by simp [Thread.publishes?, control])
  | enter slot => exact enter_effect machine id control
  | fill cell =>
    obtain ⟨slots, waits, forcing, awake⟩ := fill_quiet machine id control
    exact .quiet slots waits forcing (by simp [Thread.sleepsOn?, control]) awake (by simp [Thread.publishes?, control])
  | yield outcome =>
    cases frames : thread.frames with
    | nil =>
      have awake : thread.sleepsOn? = none := by simp [Thread.sleepsOn?, control]
      exact .quiet rfl rfl rfl awake awake (by simp [Thread.publishes?, control, frames])
    | cons frame frames' => exact handOver_effect machine id control frames
  | unwind =>
    cases frames : thread.frames with
    | nil =>
      have awake : thread.sleepsOn? = none := by simp [Thread.sleepsOn?, control]
      exact .quiet rfl rfl rfl awake awake (by simp [Thread.publishes?, control, frames])
    | cons frame frames' => exact crash_effect machine id control frames
  | blocked slot => exact .wake slot control
  | paused demand =>
    exact .quiet rfl rfl rfl (by simp [Thread.sleepsOn?, control]) rfl (by simp [Thread.publishes?, control])

end Machine
end Pkgset

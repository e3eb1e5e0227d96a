import Pkgset.Proofs.Compose.Moves
import Pkgset.Proofs.Compose.Waiting

/-!
# Threads that wait for each other

Threads that sleep on definitions never wait for each other in a circle, however
their moves are interleaved and whenever they wake up without reason. What carries
this: every entry of the table belongs to a sleeping thread and names the thread that
computes its definition, and a sleeping thread keeps its entry until it is notified.

A move is what a thread does under the lock of a definition with one use of the table
at most: the state of the definition cannot be seen in between, so the move takes
effect when the table is used. A thread that wakes up uses the table twice, once to
take its entry back and once more if it has to wait again; these are two moves.
-/

namespace Pkgset
open Machine Waiting Relation

namespace Pool

/-- The pool after a thread has changed what is shared. -/
def moved (pool : Pool) (id : ThreadId) (machine : Machine) (thread : Thread) : Pool :=
  ⟨machine, fun other => if other = id then thread else pool.threads other⟩

@[simp] theorem machine_moved (pool : Pool) (id : ThreadId) (machine : Machine) (thread : Thread) :
    (pool.moved id machine thread).machine = machine := rfl
@[simp] theorem threads_moved (pool : Pool) (id other : ThreadId) (machine : Machine) (thread : Thread) :
    (pool.moved id machine thread).threads other = if other = id then thread else pool.threads other := rfl

theorem step_eq_moved {pool : Pool} {id : ThreadId} {machine : Machine} {thread : Thread}
    (moves : pool.machine.step id (pool.threads id) = (machine, thread)) : pool.step id = pool.moved id machine thread := by
  simp only [Pool.step, moves, moved]

end Pool

/-- The table of waits is acyclic, its entries are those of sleeping threads with the
    owners of the definitions that they sleep on, and an owner is at its definition. -/
structure Pool.Orderly (pool : Pool) : Prop where
  single : Single pool.machine.waits
  acyclic : Acyclic pool.machine.waits
  backed : ∀ id wait, waitOf? pool.machine.waits id = some wait →
    (pool.threads id).sleepsOn? = some wait.slot ∧ pool.machine.slots wait.slot = .running wait.owner
  held : ∀ slot owner, pool.machine.slots slot = .running owner → slot ∈ (pool.threads owner).forcing

namespace Pool.Orderly

/-- A thread that is awake has no entry in the table. -/
theorem free {pool : Pool} (orderly : pool.Orderly) {id : ThreadId} (awake : (pool.threads id).sleepsOn? = none) :
    waitOf? pool.machine.waits id = none := by
  cases found : waitOf? pool.machine.waits id with
  | none => rfl
  | some wait =>
    have asleep := (orderly.backed id wait found).1
    simp [awake] at asleep

/-- What leaves definitions and waits alone keeps the table in order. -/
theorem quiet {pool : Pool} (orderly : pool.Orderly) {id : ThreadId} {machine : Machine} {thread : Thread}
    (slots : machine.slots = pool.machine.slots) (waits : machine.waits = pool.machine.waits)
    (forcing : thread.forcing = (pool.threads id).forcing) (awake : (pool.threads id).sleepsOn? = none) :
    (pool.moved id machine thread).Orderly := by
  refine ⟨by simpa [waits] using orderly.single, by simpa [waits] using orderly.acyclic, ?_, ?_⟩
  · intro other wait found
    simp only [machine_moved, waits] at found
    have differs : other ≠ id := by
      rintro rfl
      simp [orderly.free awake] at found
    simpa [differs, slots] using orderly.backed other wait found
  · intro slot owner running
    have holds := orderly.held slot owner (by simpa [slots] using running)
    by_cases same : owner = id
    · subst same
      simpa [forcing] using holds
    · simpa [same] using holds

private theorem start {pool : Pool} (orderly : pool.Orderly) {id : ThreadId} {slot : SlotId} (control : Control)
    (awake : (pool.threads id).sleepsOn? = none) (pending : pool.machine.slots slot = .pending) :
    (pool.moved id (pool.machine.setSlot slot (.running id)) ((pool.threads id).push (.slot slot) control)).Orderly := by
  refine ⟨orderly.single, orderly.acyclic, ?_, ?_⟩
  · intro other wait found
    have differs : other ≠ id := by
      rintro rfl
      simp [setSlot, orderly.free awake] at found
    obtain ⟨asleep, running⟩ := orderly.backed other wait found
    have elsewhere : wait.slot ≠ slot := by
      rintro same
      simp [same, pending] at running
    simp [differs, elsewhere, asleep, running]
  · intro other owner running
    by_cases here : other = slot
    · simp only [machine_moved, slots_setSlot, here, ↓reduceIte, Progress.running.injEq] at running
      simp [← running, here, Thread.forcing, Thread.push]
    · have holds := orderly.held other owner (by simpa [here] using running)
      by_cases same : owner = id
      · subst same
        simpa [here, Thread.forcing, Thread.push] using holds
      · simpa [same] using holds

private theorem sleep {pool : Pool} (orderly : pool.Orderly) {id owner : ThreadId} {slot : SlotId}
    (awake : (pool.threads id).sleepsOn? = none) (running : pool.machine.slots slot = .running owner)
    (other : owner ≠ id) (clear : closing? pool.machine.waits id owner slot = none) :
    (pool.moved id (pool.machine.addWait id ⟨slot, owner⟩) ((pool.threads id).turn (.blocked slot))).Orderly := by
  have still : Acyclic (record pool.machine.waits id ⟨slot, owner⟩) := by
    by_contra closes
    have refused := (closing?_isSome_iff orderly.single orderly.acyclic (orderly.free awake) other slot).mpr closes
    simp [clear] at refused
  refine ⟨single_record orderly.single _ _, still, ?_, ?_⟩
  · intro id' wait found
    have entry : waitOf? (record pool.machine.waits id ⟨slot, owner⟩) id' = some wait := found
    rw [waitOf?_record orderly.single] at entry
    by_cases same : id' = id
    · simp only [same, ↓reduceIte, Option.some.injEq] at entry
      simp [same, ← entry, Thread.sleepsOn?, Thread.turn, addWait, running]
    · simp only [same, ↓reduceIte] at entry
      simpa [same, addWait] using orderly.backed id' wait entry
  · intro slot' owner' computes
    have holds := orderly.held slot' owner' computes
    by_cases same : owner' = id
    · subst same
      simpa [Thread.turn, Thread.forcing] using holds
    · simpa [same] using holds

private theorem wake {pool : Pool} (orderly : pool.Orderly) (id : ThreadId) (slot : SlotId) :
    (pool.moved id (pool.machine.clearWait id) ((pool.threads id).turn (.enter slot))).Orderly := by
  refine ⟨single_filter orderly.single _, orderly.acyclic.filter orderly.single _, ?_, ?_⟩
  · intro other wait found
    have entry : waitOf? (pool.machine.waits.filter fun entry => entry.1 != id) other = some wait := found
    rw [waitOf?_forget orderly.single] at entry
    by_cases same : other = id
    · simp [same] at entry
    · simp only [same, ↓reduceIte] at entry
      simpa [same, clearWait] using orderly.backed other wait entry
  · intro slot' owner running
    have holds := orderly.held slot' owner running
    by_cases same : owner = id
    · subst same
      simpa [Thread.turn, Thread.forcing] using holds
    · simpa [same] using holds

private theorem publish {pool : Pool} (orderly : pool.Orderly) {id : ThreadId} {slot : SlotId} (outcome : Outcome)
    {frames : List Frame} (control : Control) (awake : (pool.threads id).sleepsOn? = none)
    (held : (pool.threads id).frames = .slot slot :: frames) :
    (pool.moved id (pool.machine.publish slot outcome) ⟨control, frames⟩).Orderly := by
  refine ⟨single_filter orderly.single _, orderly.acyclic.filter orderly.single _, ?_, ?_⟩
  · intro other wait found
    rw [machine_moved, waits_publish, waitOf?_filter orderly.single, Option.filter_eq_some_iff] at found
    obtain ⟨before, elsewhere⟩ := found
    have differs : other ≠ id := by
      rintro rfl
      simp [orderly.free awake] at before
    have different : wait.slot ≠ slot := by simpa using elsewhere
    simpa [differs, different] using orderly.backed other wait before
  · intro slot' owner running
    have different : slot' ≠ slot := by
      rintro rfl
      simp at running
    have holds := orderly.held slot' owner (by simpa [different] using running)
    by_cases same : owner = id
    · subst same
      simpa [Thread.forcing, held, different] using holds
    · simpa [same] using holds

/-- What one thread does keeps the table in order. -/
theorem step {pool : Pool} (orderly : pool.Orderly) (id : ThreadId) : (pool.step id).Orderly := by
  have effect := step_effect pool.machine id (pool.threads id)
  generalize moves : pool.machine.step id (pool.threads id) = result at effect
  rw [step_eq_moved moves]
  cases effect with
  | quiet slots waits forcing awake _ _ => exact orderly.quiet slots waits forcing awake
  | start slot enters pending => exact orderly.start _ (by simp [Thread.sleepsOn?, enters]) pending
  | sleep slot owner enters running other clear =>
    exact orderly.sleep (by simp [Thread.sleepsOn?, enters]) running other clear
  | wake slot asleep => exact orderly.wake id slot
  | publish slot outcome frames control publishes held next =>
    exact orderly.publish outcome control (Thread.awake_of_publishes publishes) held

end Pool.Orderly
end Pkgset

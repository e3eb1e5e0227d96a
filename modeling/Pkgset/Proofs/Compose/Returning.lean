import Pkgset.Proofs.Compose.Directness

/-!
# Inquiries about direct definitions come back

A thread that makes an inquiry alone is in direct computations from its first move to its last.
It is never stuck, so it comes to an end and leaves nothing in progress, and the next inquiry
finds the same. What it begins on the way was pending and will not be again.
-/

namespace Pkgset
open Machine Relation

/-- A thread, and no others. -/
def Pool.alone (machine : Machine) (thread : Thread) : Pool := ⟨machine, fun id => if id = 0 then thread else ⟨.unwind, []⟩⟩

theorem Pool.alone_step (machine : Machine) (thread : Thread) :
    (Pool.alone machine thread).step 0 = Pool.alone (machine.step 0 thread).1 (machine.step 0 thread).2 := by
  simp only [Pool.step, alone, ↓reduceIte]
  congr 1
  funext other
  split <;> rfl

namespace Machine

/-- A thread alone in direct computations: what is in progress is what it is in. -/
structure Straight (fit : Component → Prop) (panics : Prop) (machine : Machine) (thread : Thread) : Prop where
  world : World.Direct fit panics machine.environment?
  proper : machine.Proper fit panics thread
  owned : (Pool.alone machine thread).Owned
  held : (Pool.alone machine thread).Held
  named : machine.Named thread

namespace Straight
variable {fit : Component → Prop} {panics : Prop} {machine machine' : Machine} {thread thread' : Thread}

/-- What is in progress is a computation that the thread is in. -/
theorem inside (straight : machine.Straight fit panics thread) {origin : Origin} {owner : ThreadId}
    (running : machine.progress origin = .running owner) : owner = 0 ∧ origin ∈ thread.origins := by
  have member := straight.held origin owner running
  simp only [Pool.alone] at member
  split at member
  next own => exact ⟨own, member⟩
  next => simp [Thread.origins] at member

theorem solitary (straight : machine.Straight fit panics thread) : machine.Solitary :=
  fun slot _ running => (straight.inside (show machine.progress (.slot slot) = _ from running)).1

theorem own (straight : machine.Straight fit panics thread) (slot : SlotId) (inside : slot ∈ thread.forcing) :
    machine.slots slot = .running 0 := straight.owned.owner 0 (.slot slot) (Thread.slot_mem_origins inside)

theorem step (straight : machine.Straight fit panics thread) :
    (machine.step 0 thread).1.Straight fit panics (machine.step 0 thread).2 where
  world := by
    have same : (machine.step 0 thread).1.environment? = machine.environment? := by
      funext env
      simp only [environment?, environments_step]
    exact same ▸ straight.world
  proper := straight.proper.step straight.world straight.solitary
  owned := Pool.alone_step machine thread ▸ straight.owned.step 0
  held := Pool.alone_step machine thread ▸ straight.held.step 0
  named := straight.named.step straight.own

theorem travels (straight : machine.Straight fit panics thread) (travels : machine.Travels thread machine' thread') :
    machine'.Straight fit panics thread' := travels.keeps (Straight fit panics) (fun _ _ straight => straight.step) straight

/-- A thread in direct computations is never stuck: the default that it uses was made by the
    computation that it is in, so it is not in that. -/
theorem not_stuck (straight : machine.Straight fit panics thread) : ¬ machine.Stuck thread := by
  obtain ⟨control, frames⟩ := thread
  obtain ⟨plain, origin, piles, goes⟩ := straight.proper
  rintro (waits | ⟨component, next, meets, circle⟩)
  · cases control with
    | fill cell =>
      have filling : machine.isFilling cell = true := by
        by_contra idle
        simp [Machine.standing, idle] at waits
      obtain ⟨owner, running⟩ := isFilling_iff.mp filling
      exact piles.apart (straight.owned.nodup 0) goes.1 (straight.inside running).2
    | blocked slot => exact goes.elim
    | yield outcome | unwind => cases frames <;> cases waits
    | _ => cases waits
  · obtain rfl : control = .meet (.settle component next) := meets
    obtain ⟨other, leads, _⟩ := TransGen.head'_iff.mp circle
    cases leads <;> exact goes.elim

/-- Who enters a definition in progress is refused by the next move, which changes nothing else. -/
theorem refused (straight : machine.Straight fit panics thread) {slot : SlotId} {owner : ThreadId}
    (enters : thread.control = .enter slot) (running : machine.slots slot = .running owner) :
    ∃ chain, machine.step 0 thread = (machine, ⟨.yield (.error (.evaluationCycle slot.name chain)), thread.frames⟩) := by
  obtain rfl : owner = 0 := straight.solitary slot owner running
  exact ⟨thread.ownChain slot, by simp [Machine.step, enters, Machine.enter, running, Thread.turn]⟩

end Straight

/-! ### Machines between inquiries -/

/-- A machine of direct definitions in which nothing is in progress. -/
structure Rests (fit : Component → Prop) (panics : Prop) (machine : Machine) : Prop where
  world : World.Direct fit panics machine.environment?
  plain : machine.Plain fit panics
  idle : ∀ origin owner, machine.progress origin ≠ .running owner
  tried : ∀ slot, machine.slots slot ≠ .pending → slot ∈ machine.slotIds

/-- An inquiry that one thread makes alone comes to an end. -/
def Inquires (machine machine' : Machine) : Prop :=
  ∃ (inquiry : Inquiry) (bound : Nat) (ending : Ending), machine.finish 0 bound (.start inquiry.demand) = some (machine', ending)

section
variable {fit : Component → Prop} {panics : Prop} {machine machine' : Machine}

theorem Fresh.rests (fresh : machine.Fresh) (direct : World.Direct fit panics machine.environment?) : machine.Rests fit panics := by
  have pending (origin : Origin) : machine.progress origin = .pending := by
    cases origin <;> simp [Machine.progress, fresh.slots, cell?, fresh.cells]
  refine ⟨direct, ⟨fun origin outcome done => ?_, fun id cell found => ?_⟩, fun origin owner running => ?_, fun slot tried => ?_⟩
  · simp [pending] at done
  · simp [cell?, fresh.cells] at found
  · simp [pending] at running
  · exact absurd (fresh.slots slot) tried

theorem Rests.straight (rests : machine.Rests fit panics) (inquiry : Inquiry) :
    machine.Straight fit panics (.start inquiry.demand) where
  world := rests.world
  proper := ⟨rests.plain, .outside, .nil, trivial, fun _ fits => fits⟩
  owned := by
    have outside (id : ThreadId) : ((Pool.alone machine (.start inquiry.demand)).threads id).origins = [] := by
      simp only [Pool.alone]
      split <;> rfl
    exact ⟨fun id => by simp [outside id], fun id origin member => by simp [outside id] at member⟩
  held := fun origin owner running => absurd running (rests.idle origin owner)
  named := ⟨rests.tried, by simp [Thread.start, Inquiry.demand]⟩

theorem Straight.rests {control : Control} (straight : machine.Straight fit panics ⟨control, []⟩) : machine.Rests fit panics where
  world := straight.world
  plain := straight.proper.1
  idle := fun origin owner running => by
    have member := (straight.inside running).2
    simp [Thread.origins] at member
  tried := straight.named.tried

/-- An inquiry about direct definitions comes to an end, with an outcome unless they may panic. -/
theorem Rests.comes_back (rests : machine.Rests fit panics) (inquiry : Inquiry) :
    ∃ bound last ending, machine.finish 0 bound (.start inquiry.demand) = some (last, ending) ∧ last.Rests fit panics ∧
      ((∃ outcome, ending = .ofOutcome outcome) ∨ panics ∧ ending = .error .crash) := by
  have straight := rests.straight inquiry
  cases ends straight.solitary (.meet inquiry.demand) [] [] with
  | returns outcome _ travels =>
    obtain ⟨steps, runs⟩ := travels.runs
    exact ⟨1 + steps, _, .ofOutcome outcome, runs 1, (straight.travels travels).rests, Or.inl ⟨outcome, rfl⟩⟩
  | crashes travels =>
    obtain ⟨steps, runs⟩ := travels.runs
    have arrived := straight.travels travels
    obtain ⟨_, _, _, crashing⟩ := arrived.proper
    exact ⟨1 + steps, _, .error .crash, runs 1, arrived.rests, Or.inr ⟨crashing, rfl⟩⟩
  | sticks stuck travels => exact absurd stuck (straight.travels travels).not_stuck

theorem Rests.inquires (rests : machine.Rests fit panics) (inquires : machine.Inquires machine') : machine'.Rests fit panics := by
  obtain ⟨inquiry, bound, ending, finishes⟩ := inquires
  obtain ⟨bound', last, ending', finishes', rests', _⟩ := rests.comes_back inquiry
  have same := (finish_mono (le_max_left bound bound') finishes).symm.trans (finish_mono (le_max_right bound bound') finishes')
  exact (Prod.mk.inj (Option.some.inj same)).1 ▸ rests'

theorem Rests.later (rests : machine.Rests fit panics) (inquiries : ReflTransGen Inquires machine machine') :
    machine'.Rests fit panics := by
  induction inquiries with
  | refl => exact rests
  | tail _ inquires ih => exact ih.inquires inquires

end

end Machine

/-! ### What one inquiry tries -/

section
variable {fit : Component → Prop} {panics : Prop} {machine machine' : Machine} {thread : Thread}

theorem Machine.Straight.run (straight : machine.Straight fit panics thread) (steps : Nat) :
    ∃ machine' thread', (Pool.alone machine thread).run (List.replicate steps 0) = Pool.alone machine' thread' ∧
      machine'.Straight fit panics thread' ∧ machine'.slotIds = machine.slotIds := by
  induction steps generalizing machine thread with
  | zero => exact ⟨machine, thread, rfl, straight, rfl⟩
  | succ steps ih =>
    obtain ⟨machine', thread', same, straight', ids⟩ := ih straight.step
    refine ⟨machine', thread', ?_, straight', ids.trans (slotIds_step machine 0 thread)⟩
    rw [List.replicate_succ, Pool.run_cons, Pool.alone_step, same]

theorem Pool.Owned.begins {pool : Pool} (owned : pool.Owned) {id : ThreadId} {slot : SlotId}
    (begins : (pool.threads id).begins? ((pool.step id).threads id) = some slot) :
    pool.machine.slots slot = .pending ∧ (pool.step id).machine.slots slot = .running id := by
  obtain ⟨pending, after⟩ := (Pool.begins?_iff owned id slot).mp begins
  have advances := owned.advances id slot
  rw [pending] at advances
  generalize (pool.step id).machine.slots slot = progress at advances after ⊢
  cases advances with
  | stay => exact absurd rfl after
  | begin => exact ⟨pending, rfl⟩

end

/-! ### Aliases of each other, and a default -/

namespace Twisted

/-- An entry of the circle. -/
def left : SlotId := ⟨1, "left", 2⟩

/-- What the first inquiry about the circle comes to. -/
def refused : Outcome := .error (.evaluationCycle "left" ["left", "right", "left"])

end Twisted
end Pkgset

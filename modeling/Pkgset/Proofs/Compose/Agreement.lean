import Pkgset.Compose.Evaluation
import Pkgset.Proofs.Compose.Blocking
import Pkgset.Proofs.Compose.Following

/-!
# Agreement with the meaning

Whatever threads do, what they come to is granted by the meaning. A definition is only
refused to a thread if it depends on itself, so the error of a cycle is never found where
there is an outcome. For a thread alone, this makes what an entry comes to independent of
what was forced before it.
-/

namespace Pkgset
open Machine Waiting Relation

theorem Follows.awaits_of_entering {world : World} {made : Origin → Nat} {inquiry : Inquiry} {thread : Thread}
    {slot : SlotId} (follows : Follows world made inquiry thread)
    (enters : thread.control = .enter slot ∨ thread.control = .blocked slot) :
    Awaits world made inquiry (.slot slot) thread.frames := by
  cases follows with
  | opening starts => rcases starts with rfl | rfl <;> simp at enters
  | within is course below meets => rcases meets with rfl | rfl <;> simp at enters
  | entering awaits control =>
    rcases control with rfl | rfl
    · simp only [Control.enter.injEq, reduceCtorEq, or_false] at enters
      exact enters ▸ awaits
    · simp only [Control.blocked.injEq, reduceCtorEq, false_or] at enters
      exact enters ▸ awaits
  | _ => simp at enters

/-- What a thread that has come to an outcome has come to is granted. -/
theorem Follows.granted {world : World} {made : Origin → Nat} {inquiry : Inquiry} {outcome : Outcome}
    (follows : Follows world made inquiry ⟨.yield outcome, []⟩) : Granted (world.Means inquiry) outcome := by
  cases follows with
  | opening starts => simp at starts
  | returned granted => exact granted
  | entering awaits enters => cases awaits
  | answered awaits granted => cases awaits

namespace Pool

/-- The machine is faithful, each thread follows the meaning for its inquiry, and the
    computations and the table of waits are in order. -/
structure Faithful (world : World) (inquiries : ThreadId → Inquiry) (pool : Pool) : Prop where
  machine : pool.machine.Faithful world
  follows : ∀ id, Follows world pool.machine.cellsMade (inquiries id) (pool.threads id)
  owned : pool.Owned
  orderly : pool.Orderly

namespace Faithful
variable {world : World} {inquiries : ThreadId → Inquiry} {pool : Pool}

/-- A thread that waits depends on the definition that it waits for, which its owner is at. -/
theorem asks_of_wait (faithful : pool.Faithful world inquiries) {id : ThreadId} {wait : Wait}
    (found : waitOf? pool.machine.waits id = some wait) :
    wait.slot ∈ (pool.threads wait.owner).forcing ∧
      ∀ origin ∈ (pool.threads id).origins, TransGen world.Asks origin (.slot wait.slot) := by
  obtain ⟨asleep, running⟩ := faithful.orderly.backed id wait found
  have blocked : (pool.threads id).control = .blocked wait.slot := by
    unfold Thread.sleepsOn? at asleep
    split at asleep
    next control => rw [control, Option.some.inj asleep]
    next => cases asleep
  exact ⟨faithful.orderly.held _ _ running, ((faithful.follows id).awaits_of_entering (Or.inr blocked)).path⟩

/-- On a way along the table to a thread that asks for something, everything is asked for by
    what comes before it, and asks for that. -/
private theorem asks_of_trail (faithful : pool.Faithful world inquiries) {me : ThreadId} {target : Origin}
    (asks : ∀ origin ∈ (pool.threads me).origins, TransGen world.Asks origin target) {bound : Nat} {id : ThreadId}
    {hops : List SlotId} (found : trail pool.machine.waits me bound id = some hops) :
    (∀ origin ∈ (pool.threads id).origins, TransGen world.Asks origin target) ∧
      ∀ hop ∈ hops, TransGen world.Asks (.slot hop) target ∧
        ∀ origin ∈ (pool.threads id).origins, TransGen world.Asks origin (.slot hop) := by
  induction bound generalizing id hops with
  | zero => cases found
  | succ bound ih =>
    unfold trail at found
    split at found
    next => cases found
    next wait entry =>
      obtain ⟨holds, before⟩ := faithful.asks_of_wait entry
      have member := Thread.slot_mem_origins holds
      split at found
      next own =>
        cases found
        have after := asks _ (own ▸ member)
        refine ⟨fun origin inside => (before origin inside).trans after, fun hop inside => ?_⟩
        cases List.mem_singleton.mp inside
        exact ⟨after, before⟩
      next =>
        obtain ⟨later, more, rfl⟩ := Option.map_eq_some_iff.mp found
        obtain ⟨after, onwards⟩ := ih more
        refine ⟨fun origin inside => (before origin inside).trans (after _ member), fun hop inside => ?_⟩
        rcases List.mem_cons.mp inside with rfl | inside
        · exact ⟨after _ member, before⟩
        · obtain ⟨back, there⟩ := onwards hop inside
          exact ⟨back, fun origin first => (before origin first).trans (there _ member)⟩

/-- The definitions of a cycle that is closed through other threads depend on each other. -/
theorem asks_of_closing (faithful : pool.Faithful world inquiries) {id owner : ThreadId} {slot : SlotId}
    {hops : List SlotId} (enters : (pool.threads id).control = .enter slot)
    (running : pool.machine.slots slot = .running owner) (closes : closing? pool.machine.waits id owner slot = some hops) :
    ∀ hop ∈ hops, TransGen world.Asks (.slot slot) (.slot hop) ∧ TransGen world.Asks (.slot hop) (.slot slot) := by
  obtain ⟨later, found, rfl⟩ := Option.map_eq_some_iff.mp closes
  have held := Thread.slot_mem_origins (faithful.orderly.held slot owner running)
  obtain ⟨after, onwards⟩ := faithful.asks_of_trail ((faithful.follows id).awaits_of_entering (Or.inl enters)).path found
  intro hop member
  rcases List.mem_cons.mp member with rfl | member
  · exact ⟨after _ held, after _ held⟩
  · obtain ⟨back, there⟩ := onwards hop member
    exact ⟨there _ held, back⟩

/-- A definition that is refused to a thread within itself depends on itself. -/
theorem asks_of_own (faithful : pool.Faithful world inquiries) {id : ThreadId} {slot : SlotId}
    (enters : (pool.threads id).control = .enter slot) (running : pool.machine.slots slot = .running id) :
    TransGen world.Asks (.slot slot) (.slot slot) :=
  ((faithful.follows id).awaits_of_entering (Or.inl enters)).path _
    (Thread.slot_mem_origins (faithful.orderly.held slot id running))

/-- A definition that is refused to a thread has no outcome. -/
theorem stuck_of_refused (faithful : pool.Faithful world inquiries) {id owner : ThreadId} {slot : SlotId}
    (enters : (pool.threads id).control = .enter slot) (running : pool.machine.slots slot = .running owner)
    (refused : owner = id ∨ (closing? pool.machine.waits id owner slot).isSome) : world.Stuck (.slot slot) := by
  rcases refused with rfl | found
  · exact World.stuck_of_circle (faithful.asks_of_own enters running)
  · have closes := Option.eq_some_of_isSome found
    obtain ⟨later, _, hops⟩ := Option.map_eq_some_iff.mp closes
    exact World.stuck_of_circle (faithful.asks_of_closing enters running closes slot (by simp [← hops])).1

/-- What one thread does leaves the cells alone that other threads' computations have made. -/
private theorem cellsMade_step (faithful : pool.Faithful world inquiries) {id other : ThreadId} (apart : other ≠ id)
    {origin : Origin} (member : origin ∈ (pool.threads other).origins) :
    (pool.step id).machine.cellsMade origin = pool.machine.cellsMade origin := by
  have outer : origin ≠ (pool.threads id).origin := by
    intro same
    obtain ⟨frame, _, is⟩ := Thread.mem_origins.mp member
    rw [Thread.origin_eq] at same
    cases first : (pool.threads id).origins.head? with
    | none => exact Frame.origin?_ne_outside is (by simpa [first] using same)
    | some top =>
      have mine : origin ∈ (pool.threads id).origins := by
        rw [same, first]
        exact List.mem_of_head? first
      have running := (faithful.owned.owner id origin mine).symm.trans (faithful.owned.owner other origin member)
      simp only [Progress.running.injEq] at running
      exact apart running.symm
  have turns := step_turns pool.machine id (pool.threads id)
  unfold Pool.step
  generalize pool.machine.step id (pool.threads id) = result at turns ⊢
  cases turns with
  | stay progress origins made => exact made origin outer
  | start started pending progress origins made => exact made origin
  | finish left after idle progress origins made => exact made origin

/-- What one thread does keeps the pool faithful, unless the thread crashes. -/
theorem step (lawful : world.Lawful) (before : world.Sealed) (faithful : pool.Faithful world inquiries) (id : ThreadId)
    (calm : ((pool.step id).threads id).control ≠ .unwind) : (pool.step id).Faithful world inquiries := by
  have kept := Follows.step lawful before faithful.machine id (faithful.owned.owner id) (faithful.owned.nodup id)
    (fun slot owner enters running => faithful.stuck_of_refused enters running) (by simpa [Pool.step] using calm)
    (faithful.follows id)
  refine ⟨kept.1, fun other => ?_, faithful.owned.step id, faithful.orderly.step id⟩
  by_cases same : other = id
  · subst same
    simpa [Pool.step] using kept.2
  · have follows := (faithful.follows other).congr fun origin member => faithful.cellsMade_step same member
    simpa [Pool.step, same] using follows

end Faithful

/-- A crash goes on to the end of the thread. -/
theorem unwinds_step {pool : Pool} {id : ThreadId} (unwinds : (pool.threads id).control = .unwind) (other : ThreadId) :
    ((pool.step other).threads id).control = .unwind := by
  by_cases same : id = other
  · subst same
    simp only [Pool.step, Machine.step, unwinds, ↓reduceIte]
    cases (pool.threads id).frames with
    | nil => exact unwinds
    | cons frame frames => cases frame <;> rfl
  · simpa [Pool.step, same] using unwinds

theorem unwinds_run {pool : Pool} {id : ThreadId} (unwinds : (pool.threads id).control = .unwind)
    (interleaving : List ThreadId) : ((pool.run interleaving).threads id).control = .unwind := by
  induction interleaving generalizing pool with
  | nil => exact unwinds
  | cons other rest ih => exact ih (unwinds_step unwinds other)

/-- However threads are interleaved, the pool stays faithful if no thread crashes. -/
theorem Faithful.run {world : World} {inquiries : ThreadId → Inquiry} {pool : Pool} (lawful : world.Lawful)
    (before : world.Sealed) (faithful : pool.Faithful world inquiries) {interleaving : List ThreadId}
    (calm : ∀ id, ((pool.run interleaving).threads id).control ≠ .unwind) :
    (pool.run interleaving).Faithful world inquiries := by
  induction interleaving generalizing pool with
  | nil => exact faithful
  | cons id rest ih =>
    have quiet : ((pool.step id).threads id).control ≠ .unwind := fun unwinds => calm id (unwinds_run unwinds rest)
    exact ih (faithful.step lawful before id quiet) calm

end Pool
end Pkgset

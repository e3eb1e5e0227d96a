import Pkgset.Proofs.Compose.Deadlock
import Pkgset.Proofs.Compose.Ownership

/-!
# Definitions are computed once

However threads are interleaved, and whatever definitions do, a definition is begun by
one thread at most, is in progress while that thread is inside of it, and keeps the
outcome that it was left with. Everyone who asks for it and is not refused gets that
outcome.

What carries this is that the definitions in progress are exactly those that some
thread is inside of. A thread that asks for a definition is followed from its entering
to its return: it sleeps, or it is inside of the definition, or it crashes.
-/

namespace Pkgset
open Machine

/-- What one move of a thread makes of what is known of a definition. -/
inductive Progress.Advances (id : ThreadId) : Progress → Progress → Prop where
  | stay (progress : Progress) : Advances id progress progress
  | begin : Advances id .pending (.running id)
  | finish (outcome : Outcome) : Advances id (.running id) (.done outcome)

/-- The definition that a move has begun: the thread is inside of it now, and of all
    those that it was inside of before. -/
def Thread.begins? (before after : Thread) : Option SlotId :=
  if after.forcing.length = before.forcing.length + 1 then after.forcing.head? else none

/-- Below the frame of a definition are those that the thread was inside of before. -/
theorem Thread.forcing_of_slot {thread : Thread} {slot : SlotId} {frames : List Frame}
    (held : thread.frames = .slot slot :: frames) (control : Control) :
    thread.forcing = slot :: (⟨control, frames⟩ : Thread).forcing := by simp [forcing, held]

namespace Pool

/-- The definitions that are begun in an interleaving, in their order. -/
def begun : Pool → List ThreadId → List SlotId
  | _, [] => []
  | pool, id :: rest => ((pool.threads id).begins? ((pool.step id).threads id)).toList ++ begun (pool.step id) rest

@[simp] theorem run_nil (pool : Pool) : pool.run [] = pool := rfl
@[simp] theorem run_cons (pool : Pool) (id : ThreadId) (rest : List ThreadId) :
    pool.run (id :: rest) = (pool.step id).run rest := rfl
theorem run_append (pool : Pool) (earlier later : List ThreadId) :
    pool.run (earlier ++ later) = (pool.run earlier).run later := by simp [run]

theorem threads_step_self (pool : Pool) (id : ThreadId) :
    (pool.step id).threads id = (pool.machine.step id (pool.threads id)).2 := by simp [step]
theorem threads_step_of_ne {pool : Pool} {id other : ThreadId} (differs : other ≠ id) :
    (pool.step id).threads other = pool.threads other := by simp [step, differs]
theorem machine_step (pool : Pool) (id : ThreadId) :
    (pool.step id).machine = (pool.machine.step id (pool.threads id)).1 := rfl

end Pool

/-! ### What one move does to a definition -/

namespace Machine

/-- What is known of a definition changes only in its order, and for the thread that moves. -/
theorem step_advances {machine : Machine} {id : ThreadId} {thread : Thread} {slot : SlotId}
    (own : slot ∈ thread.forcing → machine.slots slot = .running id) :
    Progress.Advances id (machine.slots slot) ((machine.step id thread).1.slots slot) := by
  have effect := step_effect machine id thread
  generalize machine.step id thread = result at effect
  cases effect with
  | quiet slots waits forcing awake stillAwake silent => simpa [slots] using Progress.Advances.stay _
  | start begun enters pending =>
    by_cases here : slot = begun
    · subst here
      simpa [pending] using Progress.Advances.begin
    · simpa [here] using Progress.Advances.stay _
  | sleep other owner enters running apart clear => exact .stay _
  | wake other asleep => exact .stay _
  | publish left outcome frames control publishes held next =>
    by_cases here : slot = left
    · subst here
      simpa [own (by simp [Thread.forcing, held])] using Progress.Advances.finish outcome
    · simpa [here] using Progress.Advances.stay _

/-- A move begins a definition exactly when it takes it away from pending. -/
theorem begins?_step_iff {machine : Machine} {id : ThreadId} {thread : Thread} {slot : SlotId}
    (own : slot ∈ thread.forcing → machine.slots slot = .running id) :
    thread.begins? (machine.step id thread).2 = some slot ↔
      machine.slots slot = .pending ∧ (machine.step id thread).1.slots slot ≠ .pending := by
  have effect := step_effect machine id thread
  generalize machine.step id thread = result at effect ⊢
  cases effect with
  | quiet slots waits forcing awake stillAwake silent => simp [Thread.begins?, forcing, slots]
  | start begun enters pending =>
    by_cases here : slot = begun
    · simp [Thread.begins?, Thread.push, Thread.forcing, here, pending]
    · simp [Thread.begins?, Thread.push, Thread.forcing, here, @eq_comm _ begun]
  | sleep other owner enters running apart clear => simp [Thread.begins?, Thread.turn, Thread.forcing, addWait]
  | wake other asleep => simp [Thread.begins?, Thread.turn, Thread.forcing, clearWait]
  | publish left outcome frames control publishes held next =>
    have forcing := Thread.forcing_of_slot held control
    have shorter : thread.begins? ⟨control, frames⟩ = none := by
      rw [Thread.begins?, if_neg]
      simp only [forcing, List.length_cons]
      omega
    by_cases here : slot = left
    · have running := own (by simp [forcing, here])
      simp [shorter, running]
    · simp [shorter, here]

/-- A thread that is about to publish a definition leaves it with the outcome that it goes
    on with, or crashes and leaves it with the error of that. -/
theorem step_of_publishes (machine : Machine) (id : ThreadId) {thread : Thread} {slot : SlotId}
    (publishes : thread.publishes? = some slot) :
    ∃ frames, (∃ outcome, machine.step id thread = (machine.publish slot outcome, ⟨.yield outcome, frames⟩)) ∨
      machine.step id thread = (machine.publish slot (.error (crashed slot)), ⟨.unwind, frames⟩) := by
  fun_cases Thread.publishes? thread with
  | case1 outcome slot' frames control held =>
    obtain rfl : slot' = slot := by simpa [Thread.publishes?, control, held] using publishes
    exact ⟨frames, Or.inl ⟨outcome, by simp only [Machine.step, control, held, Machine.handOver]⟩⟩
  | case2 slot' frames control held =>
    obtain rfl : slot' = slot := by simpa [Thread.publishes?, control, held] using publishes
    exact ⟨frames, Or.inr (by simp only [Machine.step, control, held, Machine.crash])⟩
  | case3 => simp_all [Thread.publishes?]

/-- The only way out of a definition is to publish it. -/
theorem publishes_of_left {machine : Machine} {id : ThreadId} {thread : Thread} {slot : SlotId}
    (inside : slot ∈ thread.forcing) (left : slot ∉ (machine.step id thread).2.forcing) :
    thread.publishes? = some slot := by
  have effect := step_effect machine id thread
  generalize machine.step id thread = result at effect left
  cases effect with
  | quiet slots waits forcing awake stillAwake silent => exact absurd (forcing ▸ inside) left
  | start begun enters pending => exact absurd (List.mem_cons_of_mem _ inside) left
  | sleep other owner enters running apart clear => exact absurd inside left
  | wake other asleep => exact absurd inside left
  | publish other outcome frames control publishes held next =>
    rw [Thread.forcing_of_slot held control] at inside
    rcases List.mem_cons.mp inside with rfl | inside
    · exact publishes
    · exact absurd inside left

theorem meet_grows (machine : Machine) (thread : Thread) (demand : Demand) :
    ∃ above, (machine.meet thread demand).2.frames = above ++ thread.frames := by
  fun_cases Machine.meet machine thread demand <;> first | exact ⟨[], rfl⟩ | exact ⟨[_], rfl⟩

theorem enter_grows (machine : Machine) (id : ThreadId) (thread : Thread) (slot : SlotId) :
    ∃ above, (machine.enter id thread slot).2.frames = above ++ thread.frames := by
  fun_cases Machine.enter machine id thread slot <;> first | exact ⟨[], rfl⟩ | exact ⟨[_], rfl⟩

theorem fill_grows (machine : Machine) (id : ThreadId) (thread : Thread) (cell : CellId) :
    ∃ above, (machine.fill id thread cell).2.frames = above ++ thread.frames := by
  fun_cases Machine.fill machine id thread cell <;> first | exact ⟨[], rfl⟩ | exact ⟨[_], rfl⟩

end Machine

/-! ### Asking for a definition -/

/-- A thread with these frames has asked for a definition: it is entering it, asleep on
    it, or inside of it, or it crashes. -/
inductive Thread.Asks (slot : SlotId) (frames : List Frame) : Thread → Prop where
  | entering : Asks slot frames ⟨.enter slot, frames⟩
  | asleep : Asks slot frames ⟨.blocked slot, frames⟩
  | inside {thread : Thread} (above : List Frame) (held : thread.frames = above ++ .slot slot :: frames) :
      Asks slot frames thread
  | crashing {thread : Thread} (crashes : thread.control = .unwind) : Asks slot frames thread

/-- Who still asks has not come back. -/
theorem Thread.Asks.away {thread : Thread} {slot : SlotId} {frames : List Frame} (asks : thread.Asks slot frames)
    (outcome : Outcome) : thread ≠ ⟨.yield outcome, frames⟩ := by
  rintro rfl
  cases asks with
  | inside above held =>
    have longer := congrArg List.length held
    simp only [List.length_append, List.length_cons] at longer
    omega
  | crashing crashes => cases crashes

/-- A thread is refused with the error of a cycle, because the definition that it enters
    is in progress. -/
def Machine.Denies (machine : Machine) (thread : Thread) (slot : SlotId) (outcome : Outcome) : Prop :=
  ∃ owner chain, thread.control = .enter slot ∧ machine.slots slot = .running owner ∧
    outcome = .error (.evaluationCycle slot.name chain)

namespace Machine

/-- A move inside of a definition stays inside, crashes, or returns with what it publishes. -/
theorem step_inside (machine : Machine) (id : ThreadId) {thread : Thread} {above : List Frame} {slot : SlotId}
    {frames : List Frame} (held : thread.frames = above ++ .slot slot :: frames) :
    (machine.step id thread).2.Asks slot frames ∨
      ∃ outcome, (machine.step id thread).2 = ⟨.yield outcome, frames⟩ ∧
        (machine.step id thread).1.slots slot = .done outcome := by
  have grown {result : Thread} (grows : ∃ more, result.frames = more ++ thread.frames) : result.Asks slot frames := by
    obtain ⟨more, grows⟩ := grows
    exact .inside (more ++ above) (by simp [grows, held])
  unfold Machine.step
  cases control : thread.control with
  | meet demand => exact Or.inl (grown (meet_grows machine thread demand))
  | enter other => exact Or.inl (grown (enter_grows machine id thread other))
  | fill cell => exact Or.inl (grown (fill_grows machine id thread cell))
  | blocked other => exact Or.inl (.inside above held)
  | paused demand => exact Or.inl (.inside above held)
  | yield outcome =>
    cases above with
    | nil =>
      simp only [held, List.nil_append, Machine.handOver]
      exact Or.inr ⟨outcome, rfl, by simp⟩
    | cons frame above =>
      simp only [held, List.cons_append]
      cases frame <;> exact Or.inl (.inside above rfl)
  | unwind =>
    refine Or.inl (.crashing ?_)
    cases above with
    | nil => simp [held, Machine.crash]
    | cons frame above => cases frame <;> simp [held, Machine.crash]

/-- A move of a thread that has asked for a definition: it asks on, or comes back with an answer. -/
theorem step_asks (machine : Machine) (id : ThreadId) {thread : Thread} {slot : SlotId} {frames : List Frame}
    (asks : thread.Asks slot frames) :
    (machine.step id thread).2.Asks slot frames ∨
      ∃ outcome, (machine.step id thread).2 = ⟨.yield outcome, frames⟩ ∧
        ((machine.step id thread).1.slots slot = .done outcome ∨ machine.Denies thread slot outcome) := by
  cases asks with
  | entering =>
    simp only [Machine.step]
    fun_cases Machine.enter machine id ⟨.enter slot, frames⟩ slot with
    | case1 outcome known => exact Or.inr ⟨outcome, rfl, Or.inl known⟩
    | case2 pending => exact Or.inl (.inside [] rfl)
    | case3 running => exact Or.inr ⟨_, rfl, Or.inr ⟨id, _, rfl, running, rfl⟩⟩
    | case4 owner running other hops found => exact Or.inr ⟨_, rfl, Or.inr ⟨owner, _, rfl, running, rfl⟩⟩
    | case5 owner running other clear => exact Or.inl .asleep
  | asleep => exact Or.inl .entering
  | inside above held =>
    rcases step_inside machine id held with asks | ⟨outcome, returns, done⟩
    · exact Or.inl asks
    · exact Or.inr ⟨outcome, returns, Or.inl done⟩
  | crashing crashes =>
    refine Or.inl (.crashing ?_)
    simp only [Machine.step, crashes]
    cases thread.frames with
    | nil => exact crashes
    | cons frame frames => cases frame <;> rfl

end Machine

namespace Pool

/-- A thread asks for a definition at the beginning of an interleaving, and is back from
    it, for the first time, at the end. -/
structure Forces (pool : Pool) (id : ThreadId) (slot : SlotId) (during : List ThreadId) (outcome : Outcome) : Prop where
  enters : (pool.threads id).control = .enter slot
  returns : (pool.run during).threads id = ⟨.yield outcome, (pool.threads id).frames⟩
  first : ∀ before, before <+: during → before ≠ during →
    ∀ other, (pool.run before).threads id ≠ ⟨.yield other, (pool.threads id).frames⟩

/-- The last move of an interleaving refuses a thread that enters a definition. -/
def Denied (pool : Pool) (id : ThreadId) (slot : SlotId) (during : List ThreadId) (outcome : Outcome) : Prop :=
  ∃ before, during = before ++ [id] ∧
    (pool.run before).machine.Denies ((pool.run before).threads id) slot outcome

private theorem answered_of_asks {pool : Pool} {id : ThreadId} {slot : SlotId} {frames : List Frame} {during : List ThreadId}
    {outcome : Outcome} (asks : (pool.threads id).Asks slot frames)
    (returns : (pool.run during).threads id = ⟨.yield outcome, frames⟩)
    (first : ∀ before, before <+: during → before ≠ during →
      ∀ other, (pool.run before).threads id ≠ ⟨.yield other, frames⟩) :
    (pool.run during).machine.slots slot = .done outcome ∨ pool.Denied id slot during outcome := by
  induction during generalizing pool with
  | nil => exact absurd returns (asks.away outcome)
  | cons mover rest ih =>
    have later (asks : ((pool.step mover).threads id).Asks slot frames) :
        (pool.run (mover :: rest)).machine.slots slot = .done outcome ∨ pool.Denied id slot (mover :: rest) outcome := by
      have first' : ∀ before, before <+: rest → before ≠ rest →
          ∀ other, ((pool.step mover).run before).threads id ≠ ⟨.yield other, frames⟩ :=
        fun before within short => first (mover :: before) (by simpa using within) (by simpa using short)
      rcases ih asks returns first' with done | ⟨before, rfl, denies⟩
      · exact Or.inl done
      · exact Or.inr ⟨mover :: before, rfl, denies⟩
    by_cases own : mover = id
    · subst own
      rcases step_asks pool.machine mover asks with asks | ⟨other, back, answer⟩
      · exact later (by rwa [threads_step_self])
      · have alone : [mover] = mover :: rest := by
          by_contra more
          exact first [mover] (by simp) more other (by rw [run_cons, run_nil, threads_step_self, back])
        obtain rfl : rest = [] := (List.cons.inj alone).2.symm
        obtain rfl : other = outcome := by
          rw [run_cons, run_nil, threads_step_self, back] at returns
          simpa using returns
        rcases answer with done | denies
        · exact Or.inl done
        · exact Or.inr ⟨[], rfl, denies⟩
    · exact later (by rwa [threads_step_of_ne (Ne.symm own)])

/-- Whoever comes back from a definition has its outcome, or was refused. -/
theorem Forces.answered {pool : Pool} {id : ThreadId} {slot : SlotId} {during : List ThreadId} {outcome : Outcome}
    (forces : pool.Forces id slot during outcome) :
    (pool.run during).machine.slots slot = .done outcome ∨ pool.Denied id slot during outcome := by
  have entering : pool.threads id = ⟨.enter slot, (pool.threads id).frames⟩ := by
    rw [← forces.enters]
  have asks : (pool.threads id).Asks slot (pool.threads id).frames := by
    rw [entering]
    exact .entering
  exact answered_of_asks asks forces.returns forces.first

/-! ### Runs -/

/-- What every move keeps holds after all of them. -/
theorem run_keeps {Holds : Pool → Prop} (step : ∀ pool id, Holds pool → Holds (pool.step id)) {pool : Pool}
    (holds : Holds pool) (interleaving : List ThreadId) : Holds (pool.run interleaving) := by
  induction interleaving generalizing pool with
  | nil => exact holds
  | cons id rest ih => exact ih (step pool id holds)

theorem Idle.owned {pool : Pool} (idle : pool.Idle) : pool.Owned := by
  have outside (id : ThreadId) : (pool.threads id).origins = [] := by
    obtain ⟨demand, starts⟩ := idle.threads id
    simp [starts, Thread.start, Thread.origins]
  exact ⟨fun id => by simp [outside id], fun id origin member => by simp [outside id] at member⟩

/-- A definition is in progress for a thread exactly while the thread is inside of it. -/
theorem running_iff {pool : Pool} (orderly : pool.Orderly) (owned : pool.Owned) (slot : SlotId) (owner : ThreadId) :
    pool.machine.slots slot = .running owner ↔ slot ∈ (pool.threads owner).forcing :=
  ⟨orderly.held slot owner, fun inside => owned.owner owner (.slot slot) (Thread.slot_mem_origins inside)⟩

theorem Owned.advances {pool : Pool} (owned : pool.Owned) (id : ThreadId) (slot : SlotId) :
    Progress.Advances id (pool.machine.slots slot) ((pool.step id).machine.slots slot) :=
  step_advances fun inside => owned.owner id (.slot slot) (Thread.slot_mem_origins inside)

/-- A definition that was left keeps its outcome. -/
theorem done_run {pool : Pool} (owned : pool.Owned) {slot : SlotId} {outcome : Outcome}
    (done : pool.machine.slots slot = .done outcome) (later : List ThreadId) :
    (pool.run later).machine.slots slot = .done outcome := by
  induction later generalizing pool with
  | nil => exact done
  | cons id rest ih =>
    refine ih (owned.step id) ?_
    have advances := owned.advances id slot
    generalize (pool.step id).machine.slots slot = after at advances ⊢
    cases (done ▸ advances : Progress.Advances id (.done outcome) after)
    rfl

/-- What is pending has always been so. -/
theorem pending_of_run {pool : Pool} (owned : pool.Owned) {slot : SlotId} {later : List ThreadId}
    (pending : (pool.run later).machine.slots slot = .pending) : pool.machine.slots slot = .pending := by
  induction later generalizing pool with
  | nil => exact pending
  | cons id rest ih =>
    have advances := owned.advances id slot
    rw [ih (owned.step id) pending] at advances
    generalize pool.machine.slots slot = before at advances ⊢
    cases advances
    rfl

theorem begins?_iff {pool : Pool} (owned : pool.Owned) (id : ThreadId) (slot : SlotId) :
    (pool.threads id).begins? ((pool.step id).threads id) = some slot ↔
      pool.machine.slots slot = .pending ∧ (pool.step id).machine.slots slot ≠ .pending := by
  rw [threads_step_self, machine_step]
  exact begins?_step_iff fun inside => owned.owner id (.slot slot) (Thread.slot_mem_origins inside)

/-- The definitions that are begun are those that are not pending any more. -/
theorem mem_begun_iff {pool : Pool} (owned : pool.Owned) (interleaving : List ThreadId) (slot : SlotId) :
    slot ∈ pool.begun interleaving ↔
      pool.machine.slots slot = .pending ∧ (pool.run interleaving).machine.slots slot ≠ .pending := by
  induction interleaving generalizing pool with
  | nil => simp [begun]
  | cons id rest ih =>
    rw [begun, List.mem_append, Option.mem_toList, begins?_iff owned, ih (owned.step id), run_cons]
    constructor
    · rintro (⟨pending, begins⟩ | ⟨pending, begins⟩)
      · exact ⟨pending, fun still => begins (pending_of_run (owned.step id) still)⟩
      · have once : (pool.run [id]).machine.slots slot = .pending := pending
        exact ⟨pending_of_run owned once, begins⟩
    · rintro ⟨pending, begins⟩
      by_cases still : (pool.step id).machine.slots slot = .pending
      · exact Or.inr ⟨still, begins⟩
      · exact Or.inl ⟨pending, still⟩

/-- No definition is begun twice. -/
theorem nodup_begun {pool : Pool} (owned : pool.Owned) (interleaving : List ThreadId) :
    (pool.begun interleaving).Nodup := by
  induction interleaving generalizing pool with
  | nil => exact List.nodup_nil
  | cons id rest ih =>
    rw [begun]
    cases begins : (pool.threads id).begins? ((pool.step id).threads id) with
    | none => exact ih (owned.step id)
    | some slot =>
      refine List.nodup_cons.mpr ⟨fun again => ?_, ih (owned.step id)⟩
      exact ((begins?_iff owned id slot).mp begins).2 ((mem_begun_iff (owned.step id) rest slot).mp again).1

/-- A thread that leaves a definition leaves it with the outcome that it goes on with, or
    crashes and leaves it with the error of that. -/
theorem done_of_left {pool : Pool} {id : ThreadId} {slot : SlotId} (inside : slot ∈ (pool.threads id).forcing)
    (left : slot ∉ ((pool.step id).threads id).forcing) :
    ∃ outcome, (pool.step id).machine.slots slot = .done outcome ∧
      (((pool.step id).threads id).control = .yield outcome ∨
        ((pool.step id).threads id).control = .unwind ∧ outcome = .error (crashed slot)) := by
  rw [threads_step_self] at left ⊢
  rw [machine_step]
  obtain ⟨frames, ⟨outcome, moves⟩ | moves⟩ :=
    step_of_publishes pool.machine id (publishes_of_left inside left)
  · exact ⟨outcome, by simp [moves], Or.inl (by simp [moves])⟩
  · exact ⟨_, by simp [moves], Or.inr ⟨by simp [moves], rfl⟩⟩

/-- However threads that start in an idle pool are interleaved, and whatever definitions
    do: no definition is begun twice; those that are begun are not pending any more; what
    is known of a definition goes from pending to in progress for the thread that moves,
    and from there to an outcome; a definition is in progress for a thread exactly while
    the thread is inside of it, and has the outcome that the thread goes on with, or the
    error of a crash, once the thread has left; an outcome never changes; and a thread that
    asks for a definition comes back with the outcome of the definition, unless it was
    refused as a cycle. -/
theorem Idle.computes_once {pool : Pool} (idle : pool.Idle) (interleaving : List ThreadId) :
    let reached := pool.run interleaving
    (pool.begun interleaving).Nodup ∧
      (∀ slot, slot ∈ pool.begun interleaving ↔
        pool.machine.slots slot = .pending ∧ reached.machine.slots slot ≠ .pending) ∧
      (∀ id slot, Progress.Advances id (reached.machine.slots slot) ((reached.step id).machine.slots slot)) ∧
      (∀ slot owner, reached.machine.slots slot = .running owner ↔ slot ∈ (reached.threads owner).forcing) ∧
      (∀ id slot, slot ∈ (reached.threads id).forcing → slot ∉ ((reached.step id).threads id).forcing →
        ∃ outcome, (reached.step id).machine.slots slot = .done outcome ∧
          (((reached.step id).threads id).control = .yield outcome ∨
            ((reached.step id).threads id).control = .unwind ∧ outcome = .error (crashed slot))) ∧
      (∀ slot outcome, reached.machine.slots slot = .done outcome →
        ∀ later, (reached.run later).machine.slots slot = .done outcome) ∧
      ∀ id slot during outcome, reached.Forces id slot during outcome →
        (∀ later, (reached.run (during ++ later)).machine.slots slot = .done outcome) ∨
          reached.Denied id slot during outcome := by
  intro reached
  have owned : reached.Owned := run_keeps (fun _ id owned => owned.step id) idle.owned interleaving
  have orderly : reached.Orderly := run_keeps (fun _ id orderly => orderly.step id) idle.orderly interleaving
  refine ⟨nodup_begun idle.owned interleaving, mem_begun_iff idle.owned interleaving, owned.advances,
    running_iff orderly owned, fun _ _ => done_of_left, fun _ _ done => done_run owned done, ?_⟩
  intro id slot during outcome forces
  rcases forces.answered with done | denied
  · refine Or.inl fun later => ?_
    rw [run_append]
    exact done_run (run_keeps (fun _ id owned => owned.step id) owned during) done later
  · exact Or.inr denied

/-- A thread falls asleep on an alias that another thread is at, is woken when that is
    published, and comes back with what was published, which stays. -/
theorem Idle.computes_once_crossed :
    let reached := crossed.run [1, 0, 0, 0, 0, 0, 0, 0, 0]
    let slot : SlotId := ⟨1, "b", 0⟩
    (crossed.begun [1, 0, 0, 0, 0, 0, 0, 0, 0]).Nodup ∧ ∃ outcome, reached.Forces 1 slot [1, 0, 1, 1] outcome ∧
      ∀ later, (reached.run ([1, 0, 1, 1] ++ later)).machine.slots slot = .done outcome := by
  intro reached slot
  have idle : crossed.Idle := by
    refine ⟨rfl, ?_, fun id => ⟨_, rfl⟩⟩
    intro slot owner running
    cases running
  obtain ⟨distinct, _, _, _, _, _, answered⟩ := Idle.computes_once idle [1, 0, 0, 0, 0, 0, 0, 0, 0]
  have forces : reached.Forces 1 slot [1, 0, 1, 1] (.error (.evaluationCycle "a" ["a", "b", "a"])) := by
    refine ⟨rfl, rfl, fun before within short other returns => ?_⟩
    simp only [List.prefix_cons_iff, List.prefix_nil] at within
    rcases within with rfl | ⟨_, rfl, rfl | ⟨_, rfl, rfl | ⟨_, rfl, rfl | ⟨_, rfl, rfl⟩⟩⟩⟩
    all_goals first | exact short rfl | cases congrArg Thread.control returns
  refine ⟨distinct, _, forces, ?_⟩
  rcases answered 1 slot _ _ forces with done | ⟨before, same, denies⟩
  · exact done
  · obtain rfl : before = [1, 0, 1] := by simpa using (List.append_inj_left' same rfl).symm
    obtain ⟨owner, _, _, running, _⟩ := denies
    cases running

end Pool
end Pkgset

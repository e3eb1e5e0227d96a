import Pkgset.Proofs.Compose.Blocking

/-!
# Freedom from deadlock

A watch follows a pool and notes which sleeping threads were notified: a publisher
notifies all who sleep on its definition. Threads that sleep without having been
notified keep the entries that lead to those who have to wake them, so no set of them
is cut off from the threads that still move.
-/

namespace Pkgset
open Machine Waiting

/-- A pool, and the threads that were notified since they fell asleep. -/
structure Watch where
  pool : Pool
  notified : ThreadId → Bool

/-- Nothing is waited for or in progress, and every thread is about to meet its demand. -/
structure Pool.Idle (pool : Pool) : Prop where
  waits : pool.machine.waits = []
  slots : ∀ slot owner, pool.machine.slots slot ≠ .running owner
  threads : ∀ id, ∃ demand, pool.threads id = .start demand

/-- A thread that would enter a definition is refused: it gets the error of a cycle. -/
def Pool.Refuses (pool : Pool) (id : ThreadId) (slot : SlotId) : Prop :=
  ∃ chain, ((pool.step id).threads id).control = .yield (.error (.evaluationCycle slot.name chain))

theorem Pool.Idle.orderly {pool : Pool} (idle : pool.Idle) : pool.Orderly := by
  refine ⟨by simp [Single, idle.waits], ?_, by simp [waitOf?, idle.waits], ?_⟩
  · intro id cycle
    obtain ⟨_, ⟨wait, found, _⟩, _⟩ := Relation.TransGen.head'_iff.mp cycle
    simp [waitOf?, idle.waits] at found
  · intro slot owner running
    exact absurd running (idle.slots slot owner)

/-- In an orderly pool, a thread that would wait for another one is refused exactly
    when its entry would close a cycle; otherwise it falls asleep. -/
theorem Pool.Orderly.refuses_iff {pool : Pool} (orderly : pool.Orderly) {id owner : ThreadId} {slot : SlotId}
    (enters : (pool.threads id).control = .enter slot) (running : pool.machine.slots slot = .running owner)
    (other : owner ≠ id) :
    (pool.Refuses id slot ↔ ¬ Acyclic (pool.machine.addWait id ⟨slot, owner⟩).waits) ∧
      (Acyclic (pool.machine.addWait id ⟨slot, owner⟩).waits →
        ((pool.step id).threads id).sleepsOn? = some slot) := by
  have awake : (pool.threads id).sleepsOn? = none := by simp [Thread.sleepsOn?, enters]
  have closes : (closing? pool.machine.waits id owner slot).isSome ↔
      ¬ Acyclic (pool.machine.addWait id ⟨slot, owner⟩).waits :=
    closing?_isSome_iff orderly.single orderly.acyclic (orderly.free awake) other slot
  have moves : pool.machine.step id (pool.threads id) = pool.machine.enter id (pool.threads id) slot := by
    simp only [Machine.step, enters]
  simp only [Machine.enter, running, other, ↓reduceIte] at moves
  cases found : closing? pool.machine.waits id owner slot with
  | some hops =>
    simp only [found] at moves
    have cyclic := closes.mp (by simp [found])
    refine ⟨iff_of_true ⟨(pool.threads id).sharedChain hops slot, ?_⟩ cyclic, fun acyclic => absurd acyclic cyclic⟩
    rw [step_eq_moved moves]
    simp only [threads_moved, ↓reduceIte]
    rfl
  | none =>
    simp only [found] at moves
    have acyclic : Acyclic (pool.machine.addWait id ⟨slot, owner⟩).waits := by
      by_contra cyclic
      simpa [found] using closes.mpr cyclic
    refine ⟨iff_of_false ?_ (not_not.mpr acyclic), fun _ => ?_⟩
    · rintro ⟨chain, refused⟩
      simp [step_eq_moved moves, Thread.turn] at refused
    · simp [step_eq_moved moves, Thread.turn, Thread.sleepsOn?]

namespace Watch

/-- A watch on threads of which none was notified. -/
def start (pool : Pool) : Watch := ⟨pool, fun _ => false⟩

/-- A thread moves. It is not asleep as a notified one any more, and what it publishes
    notifies those who sleep on it. -/
def step (watch : Watch) (id : ThreadId) : Watch where
  pool := watch.pool.step id
  notified other :=
    if other = id then false
    else watch.notified other || (watch.pool.threads id).publishes?.any fun slot =>
      (watch.pool.threads other).sleepsOn? = some slot

/-- The threads of a list move, one after another. -/
def run (watch : Watch) (interleaving : List ThreadId) : Watch := interleaving.foldl step watch

/-- A thread sleeps on a definition and was not notified. -/
def Asleep (watch : Watch) (id : ThreadId) (slot : SlotId) : Prop :=
  (watch.pool.threads id).sleepsOn? = some slot ∧ watch.notified id = false

/-- Threads that sleep on definitions that no thread outside of them is at. -/
def Deadlocked (watch : Watch) (threads : Set ThreadId) : Prop :=
  threads.Nonempty ∧ ∀ id ∈ threads, ∃ slot, watch.Asleep id slot ∧
    ∀ other, slot ∈ (watch.pool.threads other).forcing → other ∈ threads

/-- The watch is on what the pool does. -/
theorem pool_run (watch : Watch) (interleaving : List ThreadId) :
    (watch.run interleaving).pool = watch.pool.run interleaving := by
  induction interleaving generalizing watch with
  | nil => rfl
  | cons id rest ih => exact ih (watch.step id)

/-- The pool is orderly, and the threads with entries are those who sleep without
    having been notified. -/
structure Orderly (watch : Watch) : Prop where
  pool : watch.pool.Orderly
  recorded : ∀ id slot, watch.Asleep id slot → ∃ owner, waitOf? watch.pool.machine.waits id = some ⟨slot, owner⟩
  unnotified : ∀ id wait, waitOf? watch.pool.machine.waits id = some wait → watch.notified id = false

end Watch

/-- A move takes no entries of other threads from the table but those for the
    definition that it publishes. -/
theorem Pool.waitOf?_step_iff {pool : Pool} (single : Single pool.machine.waits) {id other : ThreadId}
    (differs : other ≠ id) (wait : Wait) :
    waitOf? (pool.step id).machine.waits other = some wait ↔
      waitOf? pool.machine.waits other = some wait ∧ (pool.threads id).publishes? ≠ some wait.slot := by
  have effect := step_effect pool.machine id (pool.threads id)
  generalize moves : pool.machine.step id (pool.threads id) = result at effect
  rw [step_eq_moved moves]
  cases effect with
  | quiet slots waits forcing awake stillAwake silent => simp [waits, silent]
  | start slot enters pending => simp [setSlot, Thread.publishes?, enters]
  | sleep slot owner enters running apart clear =>
    have entry : waitOf? (record pool.machine.waits id ⟨slot, owner⟩) other = waitOf? pool.machine.waits other := by
      simp [waitOf?_record single, differs]
    simp only [record] at entry
    simp [addWait, entry, Thread.publishes?, enters]
  | wake slot asleep =>
    simp [clearWait, waitOf?_forget single, differs, Thread.publishes?, asleep]
  | publish slot outcome frames control publishes held next =>
    rw [machine_moved, waits_publish, waitOf?_filter single, Option.filter_eq_some_iff, publishes]
    simp [@eq_comm _ slot]

/-- A thread that falls asleep has its entry. -/
theorem Pool.waitOf?_step_self {pool : Pool} {id : ThreadId} {slot : SlotId}
    (asleep : ((pool.step id).threads id).sleepsOn? = some slot) :
    ∃ owner, waitOf? (pool.step id).machine.waits id = some ⟨slot, owner⟩ := by
  have effect := step_effect pool.machine id (pool.threads id)
  generalize moves : pool.machine.step id (pool.threads id) = result at effect
  rw [step_eq_moved moves] at asleep ⊢
  simp only [threads_moved, ↓reduceIte] at asleep
  cases effect with
  | quiet slots waits forcing awake stillAwake silent => simp [stillAwake] at asleep
  | start slot' enters pending => simp [Thread.sleepsOn?, Thread.push] at asleep
  | sleep slot' owner enters running apart clear =>
    have same : slot' = slot := by simpa [Thread.sleepsOn?, Thread.turn] using asleep
    exact ⟨owner, by simp [addWait, waitOf?, same]⟩
  | wake slot' woken => simp [Thread.sleepsOn?, Thread.turn] at asleep
  | publish slot' outcome frames control publishes held next =>
    rcases next with rfl | rfl <;> simp [Thread.sleepsOn?] at asleep

namespace Watch

theorem Orderly.start {pool : Pool} (idle : pool.Idle) : (Watch.start pool).Orderly := by
  refine ⟨idle.orderly, ?_, fun _ _ _ => rfl⟩
  rintro id slot ⟨asleep, _⟩
  obtain ⟨demand, starts⟩ := idle.threads id
  simp [Watch.start, starts, Thread.start, Thread.sleepsOn?] at asleep

/-- What one thread does keeps the entries of those who sleep. -/
theorem Orderly.step {watch : Watch} (orderly : watch.Orderly) (id : ThreadId) : (watch.step id).Orderly := by
  have single := orderly.pool.single
  refine ⟨orderly.pool.step id, ?_, ?_⟩
  · rintro other slot ⟨asleep, silent⟩
    by_cases same : other = id
    · subst same
      exact Pool.waitOf?_step_self asleep
    · simp only [Watch.step, same, ↓reduceIte, Bool.or_eq_false_iff] at silent
      have before : (watch.pool.threads other).sleepsOn? = some slot := by
        simpa [Watch.step, Pool.step, same] using asleep
      obtain ⟨owner, found⟩ := orderly.recorded other slot ⟨before, silent.1⟩
      refine ⟨owner, ?_⟩
      have kept : (watch.pool.threads id).publishes? ≠ some slot := by
        intro publishes
        simp [publishes, before] at silent
      exact (Pool.waitOf?_step_iff single same _).mpr ⟨found, kept⟩
  · intro other wait found
    by_cases same : other = id
    · simp [Watch.step, same]
    · obtain ⟨before, kept⟩ := (Pool.waitOf?_step_iff single same wait).mp found
      have asleep := (orderly.pool.backed other wait before).1
      have notNotified := orderly.unnotified other wait before
      cases publishes : (watch.pool.threads id).publishes? with
      | none => simp [Watch.step, same, notNotified, publishes]
      | some slot =>
        have apart : wait.slot ≠ slot := by
          rintro rfl
          simp [publishes] at kept
        simp [Watch.step, same, notNotified, publishes, asleep, apart]

theorem Orderly.run {watch : Watch} (orderly : watch.Orderly) (interleaving : List ThreadId) :
    (watch.run interleaving).Orderly := by
  induction interleaving generalizing watch with
  | nil => exact orderly
  | cons id rest ih => exact ih (orderly.step id)

/-- Threads that sleep without having been notified are never cut off: one of them
    waits for a thread that is not of them. -/
theorem Orderly.not_deadlocked {watch : Watch} (orderly : watch.Orderly) (threads : Set ThreadId) :
    ¬ watch.Deadlocked threads := by
  rintro ⟨inhabited, stuck⟩
  obtain ⟨id, member, free⟩ := orderly.pool.acyclic.exists_free inhabited
  obtain ⟨slot, asleep, confined⟩ := stuck id member
  obtain ⟨owner, found⟩ := orderly.recorded id slot asleep
  have running := (orderly.pool.backed id _ found).2
  have within : owner ∈ threads := confined owner (orderly.pool.held slot owner running)
  exact free owner within ⟨_, found, rfl⟩

/-- However threads that start in an idle pool are interleaved: the table of waits is
    acyclic; a thread that sleeps without having been notified has an entry, for a
    definition in progress and with the thread that is at it; a thread is refused a wait
    exactly when its entry would close a cycle, and falls asleep otherwise; and no set of
    threads is deadlocked. -/
theorem run_never_deadlocked {pool : Pool} (idle : pool.Idle) (interleaving : List ThreadId) :
    let watch := (Watch.start pool).run interleaving
    let machine := watch.pool.machine
    Acyclic machine.waits ∧
      (∀ id slot, watch.Asleep id slot →
        ∃ owner, waitOf? machine.waits id = some ⟨slot, owner⟩ ∧ machine.slots slot = .running owner) ∧
      (∀ id wait, waitOf? machine.waits id = some wait →
        watch.Asleep id wait.slot ∧ machine.slots wait.slot = .running wait.owner) ∧
      (∀ id slot owner, (watch.pool.threads id).control = .enter slot → machine.slots slot = .running owner →
        owner ≠ id →
          (watch.pool.Refuses id slot ↔ ¬ Acyclic (machine.addWait id ⟨slot, owner⟩).waits) ∧
            (Acyclic (machine.addWait id ⟨slot, owner⟩).waits →
              ((watch.pool.step id).threads id).sleepsOn? = some slot)) ∧
      ∀ threads, ¬ watch.Deadlocked threads := by
  intro watch machine
  have orderly : watch.Orderly := (Orderly.start idle).run interleaving
  refine ⟨orderly.pool.acyclic, ?_, ?_, ?_, orderly.not_deadlocked⟩
  · intro id slot asleep
    obtain ⟨owner, found⟩ := orderly.recorded id slot asleep
    exact ⟨owner, found, (orderly.pool.backed id _ found).2⟩
  · intro id wait found
    obtain ⟨asleep, running⟩ := orderly.pool.backed id wait found
    exact ⟨⟨asleep, orderly.unnotified id wait found⟩, running⟩
  · intro id slot owner enters running other
    exact orderly.pool.refuses_iff enters running other

end Watch

/-- Two entries that are aliases of each other, forced from two threads. -/
def Pool.crossed : Pool where
  machine := { Machine.empty with
    environments := [some ⟨"crossed", ["base"],
      [("a", [⟨0, .library, .aliasOf "b"⟩]), ("b", [⟨0, .library, .aliasOf "a"⟩])]⟩] }
  threads id := .start (.get (.whole 1) (if id = 0 then "a" else "b") .done)

/-- The thread that forces the first entry sleeps on the second, with its entry in the
    table; the other thread would close the cycle and is refused. -/
theorem Watch.run_never_deadlocked_crossed :
    let watch := (Watch.start Pool.crossed).run [0, 0, 0, 1, 1, 1, 0]
    (∃ owner, waitOf? watch.pool.machine.waits 0 = some ⟨⟨1, "b", 0⟩, owner⟩) ∧
      ¬ Acyclic (watch.pool.machine.addWait 1 ⟨⟨1, "a", 0⟩, 0⟩).waits ∧ ¬ watch.Deadlocked {0, 1} := by
  intro watch
  have idle : Pool.crossed.Idle := by
    refine ⟨rfl, ?_, fun id => ⟨_, rfl⟩⟩
    intro slot owner running
    cases running
  obtain ⟨_, recorded, _, refused, free⟩ := Watch.run_never_deadlocked idle [0, 0, 0, 1, 1, 1, 0]
  obtain ⟨owner, found, _⟩ := recorded 0 ⟨1, "b", 0⟩ ⟨rfl, rfl⟩
  have cyclic := (refused 1 ⟨1, "a", 0⟩ 0 rfl rfl (by decide)).1.mp ⟨_, rfl⟩
  exact ⟨⟨owner, found⟩, cyclic, free _⟩

end Pkgset

import Pkgset.Proofs.Compose.Standstill

/-!
# Threads that get entries side by side

Each thread of a crowd gets entries one after another. However the threads are
interleaved, none of them is held up for good, and what each gets is what a thread alone
gets from a fresh machine: the same component, the same error, or the error of a cycle in
both cases.
-/

namespace Pkgset
open Machine Waiting Relation

/-- The pool with a thread that is about to meet an inquiry. -/
def Pool.restart (pool : Pool) (id : ThreadId) (inquiry : Inquiry) : Pool :=
  pool.moved id pool.machine (.start inquiry.demand)

/-- A thread that has come to an outcome may go on with another inquiry. -/
theorem Pool.Faithful.restart {world : World} {inquiries : ThreadId → Inquiry} {pool : Pool}
    (faithful : pool.Faithful world inquiries) (inquiries' : ThreadId → Inquiry) {id : ThreadId} {outcome : Outcome}
    (ended : pool.threads id = ⟨.yield outcome, []⟩)
    (others : ∀ other, other ≠ id → inquiries' other = inquiries other) :
    (pool.restart id (inquiries' id)).Faithful world inquiries' := by
  have awake : (pool.threads id).sleepsOn? = none := by simp [ended, Thread.sleepsOn?]
  have outside : (pool.threads id).forcing = [] := by simp [ended, Thread.forcing]
  refine ⟨faithful.machine, fun other => ?_, ⟨fun other => ?_, fun other origin member => ?_⟩,
    faithful.orderly.quiet rfl rfl outside.symm awake⟩
  · by_cases same : other = id
    · subst same
      have follows : Follows world pool.machine.cellsMade (inquiries' other) (.start (inquiries' other).demand) :=
        .opening (Or.inl rfl)
      simpa [Pool.restart] using follows
    · simpa [Pool.restart, same, others other same] using faithful.follows other
  · by_cases same : other = id
    · simp [Pool.restart, same, Thread.start, Thread.origins]
    · simpa [Pool.restart, same] using faithful.owned.nodup other
  · by_cases same : other = id
    · simp [Pool.restart, same, Thread.start, Thread.origins] at member
    · exact faithful.owned.owner other origin (by simpa [Pool.restart, same] using member)

/-- Threads that each get entries: what they are doing, what each has still to get, of which it is at the first,
    and what each has got. -/
structure Crowd where
  pool : Pool
  due : ThreadId → List Inquiry
  log : ThreadId → List (Inquiry × Outcome)

namespace Crowd

/-- The inquiry that a thread is at, with those that it has still to make. A thread without any
    does not move, so it does not matter which one it has. -/
def current (due : List Inquiry) : Inquiry := due.headD ⟨.whole 0, ""⟩

/-- Threads that are about to make their first inquiries. -/
def start (machine : Machine) (due : ThreadId → List Inquiry) : Crowd :=
  ⟨⟨machine, fun id => .start (current (due id)).demand⟩, due, fun _ => []⟩

/-- A thread has got an entry and goes on to the next. -/
def proceed (crowd : Crowd) (id : ThreadId) (inquiry : Inquiry) (rest : List Inquiry) (outcome : Outcome) : Crowd where
  pool := crowd.pool.restart id (current rest)
  due other := if other = id then rest else crowd.due other
  log other := if other = id then crowd.log other ++ [(inquiry, outcome)] else crowd.log other

/-- A thread moves. One that has got all of its entries stays as it is. -/
def step (crowd : Crowd) (id : ThreadId) : Crowd :=
  match crowd.due id, crowd.pool.threads id with
  | [], _ => crowd
  | inquiry :: rest, ⟨.yield outcome, []⟩ => crowd.proceed id inquiry rest outcome
  | _ :: _, _ => { crowd with pool := crowd.pool.step id }

/-- The threads of a list move, one after another. -/
def run (crowd : Crowd) (interleaving : List ThreadId) : Crowd := interleaving.foldl step crowd

/-- No thread that has still entries to get can move: it waits, or has crashed. -/
def Complete (crowd : Crowd) : Prop :=
  ∀ id, crowd.due id ≠ [] → crowd.pool.machine.standing id (crowd.pool.threads id) = .waiting ∨
    crowd.pool.machine.standing id (crowd.pool.threads id) = .crashed

/-- The ways in which a thread of a crowd moves. -/
inductive Moves (crowd : Crowd) (id : ThreadId) : Crowd → Prop where
  | rest (none : crowd.due id = []) : Moves crowd id crowd
  | proceed {inquiry : Inquiry} {later : List Inquiry} {outcome : Outcome} (due : crowd.due id = inquiry :: later)
      (ended : crowd.pool.threads id = ⟨.yield outcome, []⟩) : Moves crowd id (crowd.proceed id inquiry later outcome)
  | within (due : crowd.due id ≠ []) : Moves crowd id { crowd with pool := crowd.pool.step id }

theorem step_moves (crowd : Crowd) (id : ThreadId) : crowd.Moves id (crowd.step id) := by
  unfold step
  split
  next none => exact .rest none
  next due ended => exact .proceed due ended
  next due _ => exact .within (by simp [due])

/-- What carries the results on crowds: what the threads do follows the meaning, no thread
    crashes, those that are in computations are the owners, and what was got is granted. -/
structure Sound (world : World) (crowd : Crowd) : Prop where
  faithful : crowd.pool.Faithful world fun id => current (crowd.due id)
  steady : crowd.pool.Steady world fun _ => True
  held : crowd.pool.Held
  idle : ∀ id, crowd.due id = [] → (crowd.pool.threads id).frames = []
  answers : ∀ id, ∀ entry ∈ crowd.log id, Granted (world.Means entry.1) entry.2

namespace Sound
variable {world : World} {crowd : Crowd}

theorem start {machine : Machine} (fresh : machine.Fresh) (due : ThreadId → List Inquiry) :
    (Crowd.start machine due).Sound machine.environment? := by
  refine ⟨fresh.atRest.starts _, fresh.steady _ _, ?_, fun _ _ => rfl, fun id entry member => ?_⟩
  · intro origin owner running
    cases origin <;> simp [Crowd.start, Machine.progress, fresh.slots, cell?, fresh.cells] at running
  · cases member

/-- A thread that has got an entry got what is granted for it. -/
private theorem granted (sound : crowd.Sound world) {id : ThreadId} {inquiry : Inquiry} {later : List Inquiry}
    {outcome : Outcome} (due : crowd.due id = inquiry :: later)
    (ended : crowd.pool.threads id = ⟨.yield outcome, []⟩) : Granted (world.Means inquiry) outcome := by
  have follows := sound.faithful.follows id
  rw [ended, due] at follows
  exact follows.granted

private theorem proceed (sound : crowd.Sound world) {id : ThreadId} {inquiry : Inquiry} {later : List Inquiry}
    {outcome : Outcome} (due : crowd.due id = inquiry :: later)
    (ended : crowd.pool.threads id = ⟨.yield outcome, []⟩) : (crowd.proceed id inquiry later outcome).Sound world := by
  have outside : (crowd.pool.threads id).origins = [] := by simp [ended, Thread.origins]
  refine ⟨?_, ⟨sound.steady.machine, fun other => ?_⟩, fun origin owner running => ?_, fun other none => ?_,
    fun other entry member => ?_⟩
  · have restarted := sound.faithful.restart (fun other => current (if other = id then later else crowd.due other)) ended
      fun other apart => by simp [apart]
    simpa [Crowd.proceed] using restarted
  · by_cases same : other = id
    · simpa [Crowd.proceed, Pool.restart, same] using Machine.keeps_start crowd.pool.machine _ _
    · simpa [Crowd.proceed, Pool.restart, same] using sound.steady.threads other
  · have member := sound.held origin owner running
    have apart : owner ≠ id := by
      rintro rfl
      simp [outside] at member
    simpa [Crowd.proceed, Pool.restart, apart] using member
  · by_cases same : other = id
    · simp [Crowd.proceed, Pool.restart, same, Thread.start]
    · simpa [Crowd.proceed, Pool.restart, same] using sound.idle other (by simpa [Crowd.proceed, same] using none)
  · by_cases same : other = id
    · simp only [Crowd.proceed, same, ↓reduceIte, List.mem_append, List.mem_singleton] at member
      rcases member with old | rfl
      · exact sound.answers id entry old
      · exact sound.granted due ended
    · exact sound.answers other entry (by simpa [Crowd.proceed, same] using member)

private theorem within (tame : world.Tame) (before : world.Sealed) (sound : crowd.Sound world) {id : ThreadId}
    (due : crowd.due id ≠ []) : ({ crowd with pool := crowd.pool.step id } : Crowd).Sound world := by
  have steady := sound.steady.step tame (fun _ _ => trivial) before id fun _ _ _ _ _ _ => trivial
  refine ⟨?_, steady, sound.held.step id, fun other none => ?_, sound.answers⟩
  · exact sound.faithful.step tame.lawful before id (steady.threads id).control.not_unwind
  · have apart : other ≠ id := fun same => due (same ▸ none)
    rw [Pool.threads_step_of_ne apart]
    exact sound.idle other none

/-- What one thread does keeps a crowd sound. -/
theorem step (tame : world.Tame) (before : world.Sealed) (sound : crowd.Sound world) (id : ThreadId) :
    (crowd.step id).Sound world := by
  have moves := crowd.step_moves id
  generalize crowd.step id = reached at moves ⊢
  cases moves with
  | rest none => exact sound
  | proceed due ended => exact sound.proceed due ended
  | within due => exact sound.within tame before due

theorem run (tame : world.Tame) (before : world.Sealed) (sound : crowd.Sound world) (interleaving : List ThreadId) :
    (crowd.run interleaving).Sound world := by
  induction interleaving generalizing crowd with
  | nil => exact sound
  | cons id rest ih => exact ih (sound.step tame before id)

end Sound

/-- What a thread has got and has still to get stays the same. -/
theorem account_step (crowd : Crowd) (id other : ThreadId) :
    ((crowd.step id).log other).map Prod.fst ++ (crowd.step id).due other =
      (crowd.log other).map Prod.fst ++ crowd.due other := by
  have moves := crowd.step_moves id
  generalize crowd.step id = reached at moves ⊢
  cases moves with
  | rest none => rfl
  | proceed due ended =>
    by_cases same : other = id
    · simp [Crowd.proceed, same, due]
    · simp [Crowd.proceed, same]
  | within due => rfl

theorem account_run (crowd : Crowd) (interleaving : List ThreadId) (id : ThreadId) :
    ((crowd.run interleaving).log id).map Prod.fst ++ (crowd.run interleaving).due id =
      (crowd.log id).map Prod.fst ++ crowd.due id := by
  induction interleaving generalizing crowd with
  | nil => rfl
  | cons first rest ih => exact (ih (crowd.step first)).trans (crowd.account_step first id)

private theorem unwinds_of_crashed {machine : Machine} {id : ThreadId} {thread : Thread}
    (crashed : machine.standing id thread = .crashed) : thread.control = .unwind := by
  fun_cases Machine.standing machine id thread <;> simp_all [Machine.standing]

private theorem current_mem {due : List Inquiry} (some : due ≠ []) : current due ∈ due := by
  cases due with
  | nil => exact absurd rfl some
  | cons first rest => exact List.mem_cons_self ..

/-- If a thread alone comes to an end with every inquiry, a crowd in which no thread can move
    has got all of its entries. -/
theorem Sound.finished {machine : Machine} {crowd : Crowd} (fresh : machine.Fresh) (tame : World.Tame machine.environment?)
    (before : World.Sealed machine.environment?) (sound : crowd.Sound machine.environment?)
    (ends : ∀ id, ∀ inquiry ∈ crowd.due id, ∃ outcome machine', machine.Gets inquiry outcome machine')
    (complete : crowd.Complete) (id : ThreadId) : crowd.due id = [] := by
  have waiting (id : ThreadId) (due : crowd.due id ≠ []) :
      crowd.pool.machine.standing id (crowd.pool.threads id) = .waiting :=
    (complete id due).resolve_right fun crashed =>
      (sound.steady.threads id).control.not_unwind (unwinds_of_crashed crashed)
  have due_of_inside (id : ThreadId) (inside : (crowd.pool.threads id).frames ≠ []) : crowd.due id ≠ [] :=
    fun none => inside (sound.idle id none)
  have still : crowd.pool.Standstill machine.environment? fun id => current (crowd.due id) :=
    ⟨sound.faithful, sound.held, fun id inside => waiting id (due_of_inside id inside)⟩
  by_contra due
  refine still.not_waiting (fun id slot inside shows stuck => ?_) id (waiting id due)
  obtain ⟨outcome, machine', gets⟩ := ends id _ (current_mem (due_of_inside id inside))
  exact fresh.enters tame before gets shows stuck

/-- What is granted twice for an entry is the same, or the error of a cycle both times. -/
private theorem eq_or_cycles {world : World} {inquiry : Inquiry} {outcome other : Outcome}
    (granted : Granted (world.Means inquiry) outcome) (granted' : Granted (world.Means inquiry) other) :
    outcome = other ∨ Outcome.isCycle outcome = true ∧ Outcome.isCycle other = true := by
  rcases granted with means | ⟨cycle, nothing⟩
  · rcases granted' with means' | ⟨_, nothing⟩
    · exact Or.inl (means.unique means')
    · exact absurd means (nothing outcome)
  · rcases granted' with means' | ⟨cycle', _⟩
    · exact absurd means' (nothing other)
    · exact Or.inr ⟨cycle, cycle'⟩

/-- However threads that get entries from a fresh machine are interleaved, if definitions
    never crash and hand errors on, and a thread alone comes to an end with each of the
    entries: each thread has got what it was to get, up to what is still due; when no thread
    can move any more, nothing is due; what was got for an entry is what a thread alone gets
    for it from the fresh machine, or both are errors of a cycle; and a cycle that is closed
    within a thread, or through others, is only found where the definitions depend on
    themselves, or on each other. -/
theorem run_agrees {machine : Machine} (fresh : machine.Fresh) (tame : World.Tame machine.environment?)
    (before : World.Sealed machine.environment?) {due : ThreadId → List Inquiry}
    (ends : ∀ id, ∀ inquiry ∈ due id, ∃ outcome machine', machine.Gets inquiry outcome machine')
    (interleaving : List ThreadId) :
    let crowd := (start machine due).run interleaving
    (∀ id, (crowd.log id).map Prod.fst ++ crowd.due id = due id) ∧
      (crowd.Complete → ∀ id, crowd.due id = []) ∧
      (∀ id inquiry outcome, (inquiry, outcome) ∈ crowd.log id → ∀ alone machine', machine.Gets inquiry alone machine' →
        outcome = alone ∨ Outcome.isCycle outcome = true ∧ Outcome.isCycle alone = true) ∧
      ∀ id slot owner, (crowd.pool.threads id).control = .enter slot → crowd.pool.machine.slots slot = .running owner →
        (owner = id → TransGen (World.Asks machine.environment?) (.slot slot) (.slot slot)) ∧
          ∀ hops, closing? crowd.pool.machine.waits id owner slot = some hops →
            ∀ hop ∈ hops, TransGen (World.Asks machine.environment?) (.slot slot) (.slot hop) ∧
              TransGen (World.Asks machine.environment?) (.slot hop) (.slot slot) := by
  intro crowd
  have account : ∀ id, (crowd.log id).map Prod.fst ++ crowd.due id = due id :=
    (start machine due).account_run interleaving
  have sound : crowd.Sound machine.environment? := (Sound.start fresh due).run tame before interleaving
  refine ⟨account, sound.finished fresh tame before fun id inquiry member => ends id inquiry ?_, ?_, ?_⟩
  · rw [← account id]
    exact List.mem_append_right _ member
  · intro id inquiry outcome member alone machine' gets
    exact eq_or_cycles (sound.answers id _ member) (fresh.atRest.gets tame.lawful before gets).1
  · intro id slot owner enters running
    refine ⟨?_, fun hops closes => sound.faithful.asks_of_closing enters running closes⟩
    rintro rfl
    exact sound.faithful.asks_of_own enters running

end Crowd

namespace Twisted

/-- What two threads get: one of them a circular entry and the greeting, the other one the
    other circular entry. -/
def sides : ThreadId → List Inquiry
  | 0 => [⟨.whole 1, "left"⟩, ⟨.whole 1, "greeting"⟩]
  | 1 => [⟨.whole 1, "right"⟩]
  | _ => []

/-- Moves up to where the first thread sleeps on the definition that the other one is at, which
    is about to enter that of the first. -/
def crossing : List ThreadId := [0, 0, 0, 1, 1, 1, 0]

theorem tame : World.Tame machine.environment? := by
  have calm : environment.Every Definition.Calm := by
    refine Environment.Every.compose "twisted" ?_ ?_
    · intro entry member
      rw [List.mem_singleton.mp member]
      refine ⟨fun inputs => inputs.calm_get "name", fun input default found view => ?_⟩
      simp only [Descriptor.optional, Descriptor.new, Descriptor.requires, Dict.get?, Dict.insert, CallSite.new] at found
      split at found
      · cases found
        exact trivial
      · cases found
    · intro overlay member entry inside
      rcases List.mem_cons.mp member with rfl | member
      · rw [List.mem_singleton.mp inside]
        exact fun scope => Demand.Calm.andThen (fun _ => trivial) fun component => trivial
      · rw [List.mem_singleton.mp member] at inside
        rcases List.mem_cons.mp inside with rfl | inside
        · trivial
        · rw [List.mem_singleton.mp inside]
          trivial
  intro env found here
  rw [eq_environment here]
  exact fun name slot member => ⟨calm name slot member, fun given => every_lawful given name slot member⟩

end Twisted

/-- Two threads close a cycle between each other, because the two entries demand each other.
    Both have got the error of a cycle in the end, as a thread alone does, and the first one
    the greeting, as a thread alone does. -/
theorem Crowd.run_agrees_twisted :
    let moves := Twisted.crossing ++ List.replicate 7 1 ++ List.replicate 27 0
    let crowd := (Crowd.start Twisted.machine Twisted.sides).run moves
    let asks := World.Asks Twisted.machine.environment?
    (∀ id, crowd.due id = []) ∧
      (∀ alone machine', Twisted.machine.Gets ⟨.whole 1, "right"⟩ alone machine' → Outcome.isCycle alone = true) ∧
      (∀ alone machine', Twisted.machine.Gets ⟨.whole 1, "greeting"⟩ alone machine' → Twisted.greeting = alone) ∧
      TransGen asks (.slot ⟨1, "left", 2⟩) (.slot ⟨1, "right", 2⟩) ∧
      TransGen asks (.slot ⟨1, "right", 2⟩) (.slot ⟨1, "left", 2⟩) := by
  intro moves crowd asks
  have fresh : Twisted.machine.Fresh := ⟨fun _ => rfl, rfl, rfl⟩
  have before : World.Sealed Twisted.machine.environment? := by
    intro env environment found
    rw [Twisted.eq_environment found]
    exact Environment.sealed_compose _ _ _
  have ends :
      ∀ id, ∀ inquiry ∈ Twisted.sides id, ∃ outcome machine', Twisted.machine.Gets inquiry outcome machine' := by
    intro id inquiry member
    match id with
    | 0 =>
      rcases List.mem_cons.mp member with rfl | member
      · exact ⟨_, _, 40, rfl⟩
      · rw [List.mem_singleton.mp member]
        exact ⟨_, _, 40, rfl⟩
    | 1 =>
      rw [List.mem_singleton.mp member]
      exact ⟨_, _, 40, rfl⟩
    | other + 2 => cases member
  obtain ⟨account, _, agree, _⟩ := Crowd.run_agrees fresh Twisted.tame before ends moves
  obtain ⟨_, _, _, closes⟩ := Crowd.run_agrees fresh Twisted.tame before ends Twisted.crossing
  have first : crowd.log 0 = [(⟨.whole 1, "left"⟩, .error (.evaluationCycle "left" ["left", "right", "left"])),
      (⟨.whole 1, "greeting"⟩, Twisted.greeting)] := rfl
  have second : crowd.log 1 = [(⟨.whole 1, "right"⟩, .error (.evaluationCycle "left" ["left", "right", "left"]))] := rfl
  refine ⟨fun id => ?_, fun alone machine' gets => ?_, fun alone machine' gets => ?_, ?_⟩
  · match id with
    | 0 => rfl
    | 1 => rfl
    | other + 2 => exact (List.append_eq_nil_iff.mp (account (other + 2))).2
  · rcases agree 1 _ _ (second ▸ List.mem_singleton_self _) alone machine' gets with rfl | ⟨_, cycle⟩
    · rfl
    · exact cycle
  · rcases agree 0 _ Twisted.greeting (by rw [first]; simp) alone machine' gets with same | ⟨cycle, _⟩
    · exact same
    · cases cycle
  · obtain ⟨_, others⟩ := closes 1 ⟨1, "left", 2⟩ 0 rfl rfl
    exact others [⟨1, "left", 2⟩, ⟨1, "right", 2⟩] rfl ⟨1, "right", 2⟩ (by simp)

end Pkgset

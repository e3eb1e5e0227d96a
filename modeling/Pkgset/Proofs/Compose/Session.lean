import Pkgset.Proofs.Compose.Agreement
import Pkgset.Proofs.Compose.Deadlock

/-!
# Getting entries one after another

A session is what one thread gets from a machine that remembers. What comes of each
inquiry is what its entry stands for, whatever was computed before; an entry that stands
for nothing is always found to be in a cycle.
-/

namespace Pkgset
open Machine Waiting

namespace Machine

/-- An inquiry comes to an outcome, and leaves the machine with what it remembers then. -/
def Gets (machine : Machine) (inquiry : Inquiry) (outcome : Outcome) (machine' : Machine) : Prop :=
  ∃ bound, machine.finish 0 bound (.start inquiry.demand) = some (machine', .ofOutcome outcome)

/-- What inquiries come to, one after another. -/
inductive Session : Machine → List (Inquiry × Outcome) → Machine → Prop where
  | nil (machine : Machine) : Session machine [] machine
  | cons {machine middle machine' : Machine} {inquiry : Inquiry} {outcome : Outcome} {log : List (Inquiry × Outcome)}
      (gets : machine.Gets inquiry outcome middle) (rest : Session middle log machine') :
      Session machine ((inquiry, outcome) :: log) machine'

/-- Nothing was computed yet. -/
structure Fresh (machine : Machine) : Prop where
  slots : ∀ slot, machine.slots slot = .pending
  cells : machine.cells = []
  waits : machine.waits = []

/-- A faithful machine that no thread is at work on. -/
structure AtRest (world : World) (machine : Machine) : Prop where
  faithful : machine.Faithful world
  waits : machine.waits = []
  slots : ∀ slot owner, machine.slots slot ≠ .running owner

theorem Fresh.atRest {machine : Machine} (fresh : machine.Fresh) : machine.AtRest machine.environment? := by
  have progress (origin : Origin) : machine.progress origin = .pending := by
    cases origin <;> simp [Machine.progress, fresh.slots, cell?, fresh.cells]
  refine ⟨⟨rfl, ?_, ?_, ?_⟩, fresh.waits, ?_⟩
  · intro origin outcome known
    simp [progress] at known
  · intro id cell found
    simp [cell?, fresh.cells] at found
  · intro origin _
    simp [cellsMade, fresh.cells]
  · intro slot owner running
    simp [fresh.slots] at running

theorem ofOutcome_injective : Function.Injective Ending.ofOutcome := by
  intro outcome other same
  cases outcome <;> cases other <;> cases same <;> rfl

/-- What finishes within a number of moves finishes within any larger one. -/
theorem finish_mono {id : ThreadId} {bound more : Nat} (larger : bound ≤ more) {machine : Machine} {thread : Thread}
    {result : Machine × Ending} (finishes : machine.finish id bound thread = some result) :
    machine.finish id more thread = some result := by
  induction bound generalizing more machine thread with
  | zero => cases finishes
  | succ bound ih =>
    obtain ⟨more, rfl⟩ := Nat.exists_eq_add_of_lt larger
    unfold Machine.finish at finishes ⊢
    cases standing : machine.standing id thread with
    | returned outcome => simpa [standing] using finishes
    | crashed => simpa [standing] using finishes
    | waiting => simp [standing] at finishes
    | moving =>
      simp only [standing] at finishes ⊢
      exact ih (Nat.le_add_right _ _) finishes
    | resting =>
      simp only [standing] at finishes ⊢
      exact ih (Nat.le_add_right _ _) finishes

/-- An inquiry comes to one outcome at most. -/
theorem Gets.unique {machine last last' : Machine} {inquiry : Inquiry} {outcome outcome' : Outcome}
    (gets : machine.Gets inquiry outcome last) (gets' : machine.Gets inquiry outcome' last') : outcome = outcome' := by
  obtain ⟨bound, finishes⟩ := gets
  obtain ⟨bound', finishes'⟩ := gets'
  have same := (finish_mono (le_max_left bound bound') finishes).symm.trans (finish_mono (le_max_right bound bound') finishes')
  exact ofOutcome_injective (Prod.mk.inj (Option.some.inj same)).2

theorem eq_of_standing_returned {machine : Machine} {id : ThreadId} {thread : Thread} {outcome : Outcome}
    (returned : machine.standing id thread = .returned outcome) : thread = ⟨.yield outcome, []⟩ := by
  fun_cases Machine.standing machine id thread <;> simp_all [Machine.standing]

/-- A thread that comes to an outcome has moved, on its own, to its end. -/
theorem run_of_finish {id : ThreadId} {bound : Nat} {machine machine' : Machine} {thread : Thread} {outcome : Outcome}
    (finishes : machine.finish id bound thread = some (machine', .ofOutcome outcome)) (threads : ThreadId → Thread)
    (at' : threads id = thread) :
    ∃ steps : Nat, let pool := (⟨machine, threads⟩ : Pool).run (List.replicate steps id)
      pool.machine = machine' ∧ pool.threads id = ⟨.yield outcome, []⟩ ∧
        ∀ other, other ≠ id → pool.threads other = threads other := by
  induction bound generalizing machine thread threads with
  | zero => cases finishes
  | succ bound ih =>
    unfold Machine.finish at finishes
    split at finishes
    next other returned =>
      obtain ⟨rfl, ending⟩ := Prod.mk.inj (Option.some.inj finishes)
      cases ofOutcome_injective ending
      exact ⟨0, rfl, at'.trans (eq_of_standing_returned returned), fun _ _ => rfl⟩
    next =>
      obtain ⟨_, ending⟩ := Prod.mk.inj (Option.some.inj finishes)
      cases outcome <;> cases ending
    next => cases finishes
    next =>
      subst at'
      generalize moves : machine.step id (threads id) = result at finishes
      obtain ⟨after, thread⟩ := result
      have first : (⟨machine, threads⟩ : Pool).step id = Pool.moved ⟨machine, threads⟩ id after thread :=
        Pool.step_eq_moved moves
      obtain ⟨steps, ends, last, others⟩ :=
        ih finishes (fun other => if other = id then thread else threads other) (if_pos rfl)
      refine ⟨steps + 1, ?_⟩
      simp only [List.replicate_succ, Pool.run, List.foldl_cons, first]
      exact ⟨ends, last, fun other apart => (others other apart).trans (if_neg apart)⟩

end Machine

/-! ### An example

A greeting of someone by default, which an overlay wraps, and two entries that another
overlay makes aliases of each other. -/

namespace Twisted

/-- The environment, from a registry and two overlays. -/
def environment : Environment :=
  .compose "twisted"
    ⟨[("greeting", (Descriptor.new "greeting" .library fun inputs => inputs.get "name").optional "name" fun _ =>
      .pure (.text "world"))]⟩
    [⟨"wrapped", [.define "greeting" none fun scope =>
        .andThen (scope.prev "greeting") fun earlier => .pure (.attrs [("wrapped", earlier)])]⟩,
      ⟨"circular", [.aliasOf "left" "right", .aliasOf "right" "left"]⟩]

/-- The machine before anything is computed. -/
def machine : Machine := { Machine.empty with environments := [some environment] }

/-- What the greeting comes to. -/
def greeting : Outcome := .ok (.attrs [("wrapped", .text "world")])

/-- What the entries come to if a circular one is the first. -/
def forwards : List (Inquiry × Outcome) :=
  [(⟨.whole 1, "left"⟩, .error (.evaluationCycle "left" ["left", "right", "left"])),
    (⟨.whole 1, "greeting"⟩, greeting)]

/-- What they come to in another order, in which the circle is closed elsewhere. -/
def backwards : List (Inquiry × Outcome) :=
  [(⟨.whole 1, "greeting"⟩, greeting),
    (⟨.whole 1, "right"⟩, .error (.evaluationCycle "right" ["right", "left", "right"])),
    (⟨.whole 1, "left"⟩, .error (.evaluationCycle "right" ["right", "left", "right"]))]

theorem every_lawful (given : CellId → Prop) : environment.Every (Definition.Lawful given) := by
  refine Environment.Every.compose "twisted" ?_ ?_
  · intro entry member
    rw [List.mem_singleton.mp member]
    refine ⟨fun inputs known => known.get "name", ?_, ?_⟩
    · intro input default found view
      simp only [Descriptor.optional, Descriptor.new, Descriptor.requires, Dict.get?, Dict.insert, CallSite.new] at found
      split at found
      · cases found
        exact fun cell member => by cases member
      · cases found
    · intro input component found
      cases found
  · intro overlay member entry inside
    rcases List.mem_cons.mp member with rfl | member
    · rw [List.mem_singleton.mp inside]
      intro scope
      refine Demand.Lawful.andThen ⟨fun _ => id, fun _ => rfl⟩ fun component known => ?_
      simpa [Demand.pure, Demand.Lawful, Component.cells, cellsOfFields] using known
    · rw [List.mem_singleton.mp member] at inside
      rcases List.mem_cons.mp inside with rfl | inside
      · trivial
      · rw [List.mem_singleton.mp inside]
        trivial

theorem eq_environment {env : EnvId} {found : Environment} (here : machine.environment? env = some found) :
    found = environment := by
  match env with
  | 0 => cases here
  | 1 => exact (Option.some.inj here).symm
  | place + 2 => cases here

end Twisted

/-! ### What inquiries come to -/

section
variable {world : World} {machine machine' : Machine} {inquiry : Inquiry} {outcome : Outcome}

/-- What comes of an inquiry is granted, and the machine is at rest again. -/
theorem Machine.AtRest.gets (lawful : world.Lawful) (before : world.Sealed) (rest : machine.AtRest world)
    (gets : machine.Gets inquiry outcome machine') : Granted (world.Means inquiry) outcome ∧ machine'.AtRest world := by
  obtain ⟨bound, finishes⟩ := gets
  -- The other threads of the pool are about to meet the same inquiry and never move.
  obtain ⟨steps, rfl, ended, others⟩ := run_of_finish finishes (fun _ => .start inquiry.demand) rfl
  have idle : (⟨machine, fun _ => .start inquiry.demand⟩ : Pool).Idle := ⟨rest.waits, rest.slots, fun _ => ⟨_, rfl⟩⟩
  have starts : (⟨machine, fun _ => .start inquiry.demand⟩ : Pool).Faithful world fun _ => inquiry :=
    ⟨rest.faithful, fun _ => .opening (Or.inl rfl), ⟨fun _ => List.nodup_nil, fun _ _ member => by cases member⟩,
      idle.orderly⟩
  generalize same : (⟨machine, fun _ => .start inquiry.demand⟩ : Pool).run (List.replicate steps 0) = pool at *
  have still (id : ThreadId) :
      (pool.threads id).control ≠ .unwind ∧ (pool.threads id).frames = [] ∧ (pool.threads id).sleepsOn? = none := by
    by_cases own : id = 0
    · simp [own, ended, Thread.sleepsOn?]
    · simp [others id own, Thread.start, Thread.sleepsOn?]
  have faithful : pool.Faithful world fun _ => inquiry := by
    rw [← same]
    exact starts.run lawful before fun id => by rw [same]; exact (still id).1
  refine ⟨?_, faithful.machine, ?_, ?_⟩
  · have follows := faithful.follows 0
    rw [ended] at follows
    exact follows.granted
  · cases waits : pool.machine.waits with
    | nil => rfl
    | cons entry later =>
      have found : waitOf? pool.machine.waits entry.1 = some entry.2 :=
        waitOf?_of_mem faithful.orderly.single (by simp [waits])
      have asleep := (faithful.orderly.backed _ _ found).1
      simp [(still entry.1).2.2] at asleep
  · intro slot owner running
    have holds := faithful.orderly.held slot owner running
    simp [Thread.forcing, (still owner).2.1] at holds

theorem World.Means.unique {other : Outcome} (means : world.Means inquiry outcome) (means' : world.Means inquiry other) :
    outcome = other := by
  cases shows : world.final? inquiry.view inquiry.name with
  | some slot =>
    rw [World.means_of_shown shows] at means means'
    exact means.unique means'
  | none =>
    rw [World.means_of_hidden shows] at means means'
    exact means.trans means'.symm

theorem World.Means.not_isCycle (lawful : world.Lawful) (means : world.Means inquiry outcome) :
    Outcome.isCycle outcome = false := by
  cases shows : world.final? inquiry.view inquiry.name with
  | some slot =>
    rw [World.means_of_shown shows] at means
    exact means.not_isCycle lawful
  | none =>
    rw [World.means_of_hidden shows] at means
    rw [means]
    rfl

namespace Machine.Session
variable {log log' : List (Inquiry × Outcome)}

/-- What comes of the inquiries of a session is granted. -/
theorem granted (lawful : world.Lawful) (before : world.Sealed) (session : machine.Session log machine')
    (rest : machine.AtRest world) :
    ∀ inquiry outcome, (inquiry, outcome) ∈ log → Granted (world.Means inquiry) outcome := by
  induction session with
  | nil => simp
  | cons gets _ ih =>
    obtain ⟨first, rest'⟩ := rest.gets lawful before gets
    intro inquiry outcome member
    rcases List.mem_cons.mp member with same | later
    · cases same
      exact first
    · exact ih rest' inquiry outcome later

/-- A machine that remembers agrees with the meaning, which remembers nothing. An inquiry
    comes to a component, or to an error that is not that of a cycle, exactly when this is
    what the entry stands for; the error of a cycle is found only where an entry stands
    for nothing. So what an inquiry comes to does not depend on those before it. -/
theorem agrees (fresh : machine.Fresh) (lawful : World.Lawful machine.environment?)
    (before : World.Sealed machine.environment?) {last last' : Machine} (session : machine.Session log last)
    (session' : machine.Session log' last') :
    (∀ inquiry outcome, (inquiry, outcome) ∈ log → ∀ other,
      World.Means machine.environment? inquiry other ↔ other = outcome ∧ Outcome.isCycle outcome = false) ∧
    ∀ inquiry outcome outcome', (inquiry, outcome) ∈ log → (inquiry, outcome') ∈ log' →
      outcome' = outcome ∨ Outcome.isCycle outcome = true ∧ Outcome.isCycle outcome' = true := by
  have granted := session.granted lawful before fresh.atRest
  have granted' := session'.granted lawful before fresh.atRest
  constructor
  · intro inquiry outcome member other
    rcases granted inquiry outcome member with means | ⟨cycle, nothing⟩
    · constructor
      · exact fun also => ⟨also.unique means, means.not_isCycle lawful⟩
      · rintro ⟨rfl, _⟩
        exact means
    · simp [nothing other, cycle]
  · intro inquiry outcome outcome' member member'
    rcases granted inquiry outcome member with means | ⟨cycle, nothing⟩
    · rcases granted' inquiry outcome' member' with means' | ⟨_, nothing⟩
      · exact Or.inl (means'.unique means)
      · exact absurd means (nothing outcome)
    · rcases granted' inquiry outcome' member' with means' | ⟨cycle', _⟩
      · exact absurd means' (nothing outcome')
      · exact Or.inr ⟨cycle, cycle'⟩

end Machine.Session
end

/-- In both orders, the greeting comes to what it stands for, and the circular entries,
    whose errors depend on the order, stand for nothing. -/
theorem Machine.Session.agrees_twisted :
    ∃ last last', Twisted.machine.Session Twisted.forwards last ∧ Twisted.machine.Session Twisted.backwards last' ∧
      World.Means Twisted.machine.environment? ⟨.whole 1, "greeting"⟩ Twisted.greeting ∧
      ∀ outcome, ¬ World.Means Twisted.machine.environment? ⟨.whole 1, "left"⟩ outcome := by
  have fresh : Twisted.machine.Fresh := ⟨fun _ => rfl, rfl, rfl⟩
  have lawful : World.Lawful Twisted.machine.environment? := by
    intro env environment found given _
    rw [Twisted.eq_environment found]
    exact Twisted.every_lawful given
  have before : World.Sealed Twisted.machine.environment? := by
    intro env environment found
    rw [Twisted.eq_environment found]
    exact Environment.sealed_compose _ _ _
  obtain ⟨last, session⟩ : ∃ last, Twisted.machine.Session Twisted.forwards last :=
    ⟨_, .cons ⟨40, rfl⟩ (.cons ⟨40, rfl⟩ (.nil _))⟩
  obtain ⟨last', session'⟩ : ∃ last, Twisted.machine.Session Twisted.backwards last :=
    ⟨_, .cons ⟨40, rfl⟩ (.cons ⟨40, rfl⟩ (.cons ⟨40, rfl⟩ (.nil _)))⟩
  obtain ⟨means, _⟩ := Machine.Session.agrees fresh lawful before session session'
  refine ⟨last, last', session, session', ?_, fun outcome stands => ?_⟩
  · exact (means ⟨.whole 1, "greeting"⟩ Twisted.greeting (by simp [Twisted.forwards]) _).mpr ⟨rfl, rfl⟩
  · have plain := (means ⟨.whole 1, "left"⟩ _ (List.mem_cons_self ..) outcome).mp stands
    cases plain.2

end Pkgset

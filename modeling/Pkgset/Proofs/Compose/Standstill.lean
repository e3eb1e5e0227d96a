import Pkgset.Proofs.Compose.Circles
import Pkgset.Proofs.Compose.Session
import Pkgset.Proofs.Compose.Steady

/-!
# Freedom from standstill

Threads may wait for definitions, which are in the table of waits, and for defaults, which
are not. If all threads that are in a computation waited, what they are in would have no
outcomes, and some of it would form a circle. Circles are entered at definitions; so in
each thread that is in a circle, the outermost computation of the circle is a definition,
which the thread with the computation before it in the circle waits for. That one is again
in a circle, and so on: the table of waits would have no end.
-/

namespace Pkgset
open Machine Waiting Relation

/-! ## A thread alone in a circle

A thread alone that gets an entry goes along the computations that hang on each other,
until it comes to one that it is in already. It comes to an end only if that is a
definition, which it is refused: it would stay with a default in progress. So if every
entry can be got by a thread alone, circles are entered at definitions.
-/

section
variable {world : World} {inquiries : ThreadId → Inquiry} {pool : Pool}

/-- Threads that are about to meet their inquiries to a machine at rest follow the meaning. -/
theorem Machine.AtRest.starts {machine : Machine} (rest : machine.AtRest world) (inquiries : ThreadId → Inquiry) :
    (⟨machine, fun id => .start (inquiries id).demand⟩ : Pool).Faithful world inquiries := by
  have idle : (⟨machine, fun id => .start (inquiries id).demand⟩ : Pool).Idle :=
    ⟨rest.waits, rest.slots, fun _ => ⟨_, rfl⟩⟩
  exact ⟨rest.faithful, fun _ => .opening (Or.inl rfl), idle.owned, idle.orderly⟩

/-- A thread that is about to meet an inquiry is steady. -/
theorem Machine.keeps_start (machine : Machine) (admitted : ComposeError → Prop) (inquiry : Inquiry) :
    machine.Keeps admitted (.start inquiry.demand) := by
  have suits : machine.Suits none inquiry.demand :=
    ⟨fun _ => trivial, fun _ _ => ⟨fun _ known => known, fun _ => rfl⟩⟩
  exact ⟨⟨none, by simp, suits⟩, by simp [Thread.start]⟩

/-- Threads that are about to meet their inquiries to a fresh machine are steady. -/
theorem Machine.Fresh.steady {machine : Machine} (fresh : machine.Fresh) (admitted : ComposeError → Prop)
    (inquiries : ThreadId → Inquiry) :
    (⟨machine, fun id => .start (inquiries id).demand⟩ : Pool).Steady machine.environment? admitted := by
  refine ⟨⟨rfl, ?_, ?_, ?_⟩, fun id => machine.keeps_start admitted _⟩
  · simp [fresh.slots]
  · simp [cell?, fresh.cells]
  · simp [cell?, fresh.cells]

namespace Pool

/-- A thread is about to enter a definition that it is refused. -/
def Refused (pool : Pool) (id : ThreadId) (slot : SlotId) : Prop :=
  (pool.threads id).control = .enter slot ∧ ∃ owner, pool.machine.slots slot = .running owner ∧
    (owner = id ∨ (closing? pool.machine.waits id owner slot).isSome)

/-- A thread alone only comes to the error of a cycle by being refused. -/
theorem exists_refused (tame : world.Tame) (before : world.Sealed) {id : ThreadId} (faithful : pool.Faithful world inquiries)
    (steady : pool.Steady world fun error => error.isCycle = false) {steps : Nat} {outcome : Outcome}
    (ends : (pool.run (List.replicate steps id)).threads id = ⟨.yield outcome, []⟩)
    (cycle : Outcome.isCycle outcome = true) :
    ∃ reached : Pool, reached.Faithful world inquiries ∧
      (∀ other, other ≠ id → reached.threads other = pool.threads other) ∧ ∃ slot, reached.Refused id slot := by
  induction steps generalizing pool with
  | zero =>
    have admits : pool.machine.Admits (fun error => error.isCycle = false) outcome := by
      have control := (steady.threads id).control
      rw [show pool.threads id = ⟨.yield outcome, []⟩ from ends] at control
      exact control
    cases outcome with
    | ok component => cases cycle
    | error error => simp [Outcome.isCycle, show error.isCycle = false from admits] at cycle
  | succ steps ih =>
    by_cases refused : ∃ slot, pool.Refused id slot
    · exact ⟨pool, faithful, fun _ _ => rfl, refused⟩
    · have steady' := steady.step tame (fun _ plain => plain) before id fun slot owner enters running closes =>
        absurd ⟨slot, enters, owner, running, closes⟩ refused
      have faithful' := faithful.step tame.lawful before id (steady'.threads id).control.not_unwind
      obtain ⟨reached, follows, others, found⟩ := ih faithful' steady' ends
      exact ⟨reached, follows, fun other apart => (others other apart).trans (threads_step_of_ne apart), found⟩

/-- A thread that is refused a definition that it is in itself enters the circle of its entry
    there. -/
theorem Faithful.enters {id : ThreadId} {slot entrance : SlotId} (faithful : pool.Faithful world inquiries)
    (shows : world.final? (inquiries id).view (inquiries id).name = some slot)
    (enters : (pool.threads id).control = .enter entrance) (own : pool.machine.slots entrance = .running id) :
    world.Enters (.slot slot) (.slot entrance) := by
  have stuck := faithful.stuck_of_refused enters own (Or.inl rfl)
  have member := Thread.slot_mem_origins (faithful.orderly.held entrance id own)
  obtain ⟨hung, first, shows', last⟩ := ((faithful.follows id).awaits_of_entering (Or.inl enters)).chain stuck
  cases shows.symm.trans shows'
  obtain ⟨above, below, origins⟩ := List.append_of_mem member
  rw [show (pool.threads id).frames.filterMap Frame.origin? = above ++ .slot entrance :: below from origins] at hung last
  refine World.enters_of_chain hung (origins ▸ faithful.owned.nodup id) ?_
  rwa [← List.cons_append, List.getLast?_append_of_ne_nil _ (List.cons_ne_nil _ _)] at last

end Pool

/-- A thread alone that comes to an end with an entry that stands for nothing has entered the
    circle of the entry at a definition. -/
theorem Machine.Fresh.enters {machine machine' : Machine} (fresh : machine.Fresh) (tame : World.Tame machine.environment?)
    (before : World.Sealed machine.environment?) {inquiry : Inquiry} {outcome : Outcome}
    (gets : machine.Gets inquiry outcome machine') {slot : SlotId}
    (shows : World.final? machine.environment? inquiry.view inquiry.name = some slot)
    (stuck : World.Stuck machine.environment? (.slot slot)) :
    ∃ entrance : SlotId, World.Enters machine.environment? (.slot slot) (.slot entrance) := by
  obtain ⟨granted, _⟩ := fresh.atRest.gets tame.lawful before gets
  rw [World.means_of_shown shows] at granted
  have cycle : Outcome.isCycle outcome = true := (granted.resolve_left (stuck outcome)).1
  obtain ⟨bound, finishes⟩ := gets
  obtain ⟨steps, _, ends, _⟩ := run_of_finish finishes (fun _ => .start inquiry.demand) rfl
  obtain ⟨reached, faithful, others, entrance, enters, owner, running, closes⟩ :=
    Pool.exists_refused tame before (fresh.atRest.starts fun _ => inquiry) (fresh.steady _ fun _ => inquiry) ends cycle
  -- No other thread is in any definition, so the one that is refused is the thread's own.
  have own : owner = 0 := by
    by_contra apart
    have holds := faithful.orderly.held entrance owner running
    rw [others owner apart] at holds
    cases holds
  subst own
  exact ⟨entrance, faithful.enters shows enters running⟩

end

/-! ## Where an answer does not come -/

/-- The thread that a computation in progress belongs to is in it. -/
def Pool.Held (pool : Pool) : Prop :=
  ∀ origin owner, pool.machine.progress origin = .running owner → origin ∈ (pool.threads owner).origins

/-- What one thread does keeps owners in their computations. -/
theorem Pool.Held.step {pool : Pool} (held : pool.Held) (id : ThreadId) : (pool.step id).Held := by
  have turns := step_turns pool.machine id (pool.threads id)
  generalize moves : pool.machine.step id (pool.threads id) = result at turns
  obtain ⟨machine, thread⟩ := result
  rw [step_eq_moved moves]
  intro origin owner running
  rw [machine_moved] at running
  rw [threads_moved]
  cases turns with
  | stay progress origins made =>
    have member := held origin owner ((progress origin).symm.trans running)
    split
    next same =>
      rw [origins]
      exact same ▸ member
    next => exact member
  | start started pending progress origins made =>
    rw [progress] at running
    split at running
    next same =>
      cases running
      simp [origins, same]
    next =>
      have member := held origin owner running
      split
      next own =>
        rw [origins]
        exact List.mem_cons_of_mem _ (own ▸ member)
      next => exact member
  | finish left after idle progress origins made =>
    rw [progress] at running
    split at running
    next => exact absurd running (idle owner)
    next apart =>
      have member := held origin owner running
      split
      next own =>
        rw [own, origins] at member
        exact (List.mem_cons.mp member).resolve_left apart
      next => exact member

/-! ### Waiting threads -/

theorem Awaits.frames_ne_nil {world : World} {made : Origin → Nat} {inquiry : Inquiry} {asked : Origin} {frames : List Frame}
    (awaits : Awaits world made inquiry asked frames) : frames ≠ [] := by
  cases awaits <;> simp

/-- A thread waits for what a computation comes to that belongs to a thread; if it is a
    definition, the wait is in the table. -/
structure Pool.AwaitsFrom (pool : Pool) (world : World) (inquiry : Inquiry) (id : ThreadId) (asked : Origin)
    (owner : ThreadId) : Prop where
  awaits : Awaits world pool.machine.cellsMade inquiry asked (pool.threads id).frames
  running : pool.machine.progress asked = .running owner
  recorded : ∀ slot, asked = .slot slot → WaitsFor pool.machine.waits id owner

namespace Pool.Faithful
variable {world : World} {inquiries : ThreadId → Inquiry} {pool : Pool}

/-- A thread that cannot move waits for a computation in progress. -/
theorem awaitsFrom (faithful : pool.Faithful world inquiries) {id : ThreadId}
    (waiting : pool.machine.standing id (pool.threads id) = .waiting) :
    ∃ asked owner, pool.AwaitsFrom world (inquiries id) id asked owner := by
  have follows := faithful.follows id
  have backed := faithful.orderly.backed id
  generalize same : pool.threads id = thread at waiting follows backed
  cases follows with
  | opening starts => rcases starts with rfl | rfl <;> cases waiting
  | returning granted => cases waiting
  | returned granted => cases waiting
  | within is course below meets => rcases meets with rfl | rfl <;> cases waiting
  | @entering slot frames control awaits enters =>
    rcases enters with rfl | rfl
    · cases waiting
    · cases found : waitOf? pool.machine.waits id with
      | none => simp [Machine.standing, found] at waiting
      | some wait =>
        obtain ⟨asleep, running⟩ := backed wait found
        cases asleep
        refine ⟨.slot wait.slot, wait.owner, ?_, running, fun _ _ => ⟨wait, found, rfl⟩⟩
        rw [same]
        exact awaits
  | @filling cell frames awaits =>
    have filling : pool.machine.isFilling cell := by
      by_contra idle
      simp [Machine.standing, idle] at waiting
    unfold Machine.isFilling at filling
    split at filling
    next input env body owner found =>
      refine ⟨cell.computation, owner, ?_, ?_, fun slot other => by cases other⟩
      · rw [same]
        exact awaits
      · simp [Machine.progress, CellId.computation, found]
    next => cases filling
  | finishing is granted below => cases waiting
  | @answered asked frames outcome awaits granted => cases frames <;> cases waiting

end Pool.Faithful

/-- The last member of a list that satisfies a condition. -/
private theorem exists_last {α : Type} {holds : α → Prop} {list : List α} (some : ∃ item ∈ list, holds item) :
    ∃ above item below, list = above ++ item :: below ∧ holds item ∧ ∀ other ∈ below, ¬ holds other := by
  induction list with
  | nil => simp at some
  | cons first rest ih =>
    by_cases later : ∃ item ∈ rest, holds item
    · obtain ⟨above, item, below, rfl, found, none⟩ := ih later
      exact ⟨first :: above, item, below, rfl, found, none⟩
    · have here : holds first := by simpa [later] using some
      exact ⟨[], first, rest, rfl, here, fun other member found => later ⟨other, member, found⟩⟩

/-- Every thread that is in a computation waits. -/
structure Pool.Standstill (world : World) (inquiries : ThreadId → Inquiry) (pool : Pool) : Prop where
  faithful : pool.Faithful world inquiries
  held : pool.Held
  waiting : ∀ id, (pool.threads id).frames ≠ [] → pool.machine.standing id (pool.threads id) = .waiting

namespace Pool.Standstill
variable {world : World} {inquiries : ThreadId → Inquiry} {pool : Pool} {origin asked other : Origin}
  {id owner : ThreadId}

/-- The thread that is in a computation waits for another computation. -/
theorem awaitsFrom (still : pool.Standstill world inquiries) (member : origin ∈ (pool.threads id).origins) :
    ∃ asked owner, pool.AwaitsFrom world (inquiries id) id asked owner := by
  refine still.faithful.awaitsFrom (still.waiting id fun none => ?_)
  simp [Thread.origins, none] at member

/-- What is in progress has no outcome: the questions would go on for ever. -/
theorem stuck (still : pool.Standstill world inquiries) (running : pool.machine.progress origin = .running owner) :
    world.Stuck origin := by
  intro outcome yields
  have grounded := yields.grounded.transGen
  clear yields
  induction grounded generalizing owner with
  | intro origin _ ih =>
    obtain ⟨asked, owner', waits⟩ := still.awaitsFrom (still.held origin owner running)
    have path := waits.awaits.path origin (still.held origin owner running)
    exact ih asked (transGen_swap.mpr path) waits.running

/-- A thread that waits is in a chain of computations that hang on each other. -/
theorem chain (still : pool.Standstill world inquiries) (waits : pool.AwaitsFrom world (inquiries id) id asked owner) :
    world.Chain (asked :: (pool.threads id).origins) ∧
      ∃ slot, world.final? (inquiries id).view (inquiries id).name = some slot ∧
        (asked :: (pool.threads id).origins).getLast? = some (.slot slot) :=
  waits.awaits.chain (still.stuck waits.running)

/-- What a computation in progress hangs on is in progress. -/
theorem running_of_hangs (still : pool.Standstill world inquiries) (running : pool.machine.progress origin = .running owner)
    (hangs : world.Hangs origin other) : ∃ owner', pool.machine.progress other = .running owner' := by
  have member := still.held origin owner running
  obtain ⟨asked, owner', waits⟩ := still.awaitsFrom member
  obtain ⟨before, inside, hangs'⟩ := (still.chain waits).1.exists_before member
  rw [hangs.unique hangs']
  rcases List.mem_cons.mp (List.dropLast_subset _ inside) with rfl | inside
  · exact ⟨owner', waits.running⟩
  · exact ⟨owner, still.faithful.owned.owner owner before inside⟩

theorem running_of_path (still : pool.Standstill world inquiries) (running : pool.machine.progress origin = .running owner)
    (path : ReflTransGen world.Hangs origin other) : ∃ owner', pool.machine.progress other = .running owner' := by
  induction path with
  | refl => exact ⟨owner, running⟩
  | tail _ hangs ih =>
    obtain ⟨owner', running'⟩ := ih
    exact still.running_of_hangs running' hangs

/-- A thread is in a computation of a circle. -/
def Within (world : World) (pool : Pool) (id : ThreadId) : Prop :=
  ∃ origin ∈ (pool.threads id).origins, world.Circular origin

/-- The outermost computation of a circle that a thread is in is waited for by the thread that
    is in the one before it. -/
theorem awaited (still : pool.Standstill world inquiries)
    {above below : List Origin} (origins : (pool.threads id).origins = above ++ origin :: below)
    (circular : world.Circular origin) (straight : ∀ other ∈ below, ¬ world.Circular other) :
    ∃ other, Within world pool other ∧ pool.AwaitsFrom world (inquiries other) other origin id := by
  have member : origin ∈ (pool.threads id).origins := by simp [origins]
  have running := still.faithful.owned.owner id origin member
  -- The computation before it in the circle is in progress, too.
  obtain ⟨before, path, hangs⟩ := TransGen.tail'_iff.mp circular
  obtain ⟨other, running'⟩ := still.running_of_path running path
  have within := still.held before other running'
  obtain ⟨asked, owner, waits⟩ := still.awaitsFrom within
  suffices same : asked = origin by
    subst same
    cases running.symm.trans waits.running
    exact ⟨other, ⟨before, within, circular.of_path path⟩, waits⟩
  have hung := (still.chain waits).1
  obtain ⟨next, inside, hangs'⟩ := hung.exists_before within
  cases hangs.unique hangs'
  rcases List.mem_cons.mp (List.dropLast_subset _ inside) with same | inside
  · exact same.symm
  · -- The two are in the same thread. The one before is not below, so it is followed by what is above.
    cases running.symm.trans (still.faithful.owned.owner other origin inside)
    have upper : before ∈ above ++ [origin] := by
      rw [origins, List.mem_append, List.mem_cons] at within
      have apart : before ∉ below := fun lower => straight before lower (circular.of_path path)
      simpa [apart] using within
    have hung' : world.Chain (asked :: (above ++ [origin])) := by
      refine List.IsChain.prefix hung ⟨below, ?_⟩
      simp [origins]
    obtain ⟨next, inside', hangs'⟩ := hung'.exists_before upper
    cases hangs.unique hangs'
    rw [← List.cons_append, List.dropLast_concat] at inside'
    have distinct := origins ▸ still.faithful.owned.nodup id
    have apart : origin ∉ above := fun lower =>
      (List.nodup_append.mp distinct).2.2 origin lower origin (by simp) rfl
    exact ((List.mem_cons.mp inside').resolve_right apart).symm

/-- The entry that a thread is at stands for nothing, and is in progress. -/
theorem entry (still : pool.Standstill world inquiries) (waits : pool.AwaitsFrom world (inquiries id) id asked owner) :
    ∃ slot owner', world.final? (inquiries id).view (inquiries id).name = some slot ∧
      pool.machine.progress (.slot slot) = .running owner' := by
  obtain ⟨_, slot, shows, last⟩ := still.chain waits
  rcases List.mem_cons.mp (List.mem_of_getLast? last) with same | member
  · exact ⟨slot, owner, shows, same ▸ waits.running⟩
  · exact ⟨slot, id, shows, still.faithful.owned.owner id _ member⟩

/-- Circles are entered at definitions, from the entries that threads are at. -/
def Entrances (world : World) (inquiries : ThreadId → Inquiry) (pool : Pool) : Prop :=
  ∀ id slot, (pool.threads id).frames ≠ [] → world.final? (inquiries id).view (inquiries id).name = some slot →
    world.Stuck (.slot slot) → ∃ entrance : SlotId, world.Enters (.slot slot) (.slot entrance)

/-- The outermost computation of a circle that a thread is in is a definition. -/
theorem outermost (still : pool.Standstill world inquiries) (entrances : Entrances world inquiries pool)
    {above below : List Origin} (origins : (pool.threads id).origins = above ++ origin :: below)
    (circular : world.Circular origin) (straight : ∀ other ∈ below, ¬ world.Circular other) :
    ∃ slot : SlotId, origin = .slot slot := by
  have member : origin ∈ (pool.threads id).origins := by simp [origins]
  obtain ⟨asked, owner, waits⟩ := still.awaitsFrom member
  obtain ⟨hung, slot, shows, last⟩ := still.chain waits
  rw [origins] at hung last
  rw [← List.cons_append, List.getLast?_append_of_ne_nil _ (List.cons_ne_nil _ _)] at last
  have rest : world.Chain (origin :: below) := List.IsChain.suffix hung ⟨asked :: above, by simp⟩
  have enters := (World.Enters.here circular).of_chain rest straight last
  have stuck : world.Stuck (.slot slot) := by
    obtain ⟨slot', owner', shows', running⟩ := still.entry waits
    cases shows.symm.trans shows'
    exact still.stuck running
  obtain ⟨entrance, enters'⟩ := entrances id slot waits.awaits.frames_ne_nil shows stuck
  exact ⟨entrance, enters.unique enters'⟩

/-- If circles are entered at definitions, there is no standstill in which a thread waits. -/
theorem not_waiting (still : pool.Standstill world inquiries) (entrances : Entrances world inquiries pool)
    (id : ThreadId) : pool.machine.standing id (pool.threads id) ≠ .waiting := by
  intro waiting
  -- The entry that the thread is at leads into a circle, and some thread is in that.
  obtain ⟨asked, owner, waits⟩ := still.faithful.awaitsFrom waiting
  obtain ⟨slot, owner', shows, running⟩ := still.entry waits
  obtain ⟨entrance, enters⟩ := entrances id slot waits.awaits.frames_ne_nil shows (still.stuck running)
  obtain ⟨first, running'⟩ := still.running_of_path running enters.path
  have inhabited : {id | Within world pool id}.Nonempty :=
    ⟨first, .slot entrance, still.held _ _ running', enters.circular⟩
  -- Each thread that is in a circle is waited for by another one.
  obtain ⟨last, inside, free⟩ := still.faithful.orderly.acyclic.exists_unawaited inhabited
  obtain ⟨above, origin, below, origins, circular, straight⟩ := exists_last inside
  obtain ⟨other, within, waits'⟩ := still.awaited origins circular straight
  obtain ⟨held, same⟩ := still.outermost entrances origins circular straight
  exact free other within (waits'.recorded held same)

end Pool.Standstill
end Pkgset

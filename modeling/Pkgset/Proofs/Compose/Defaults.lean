import Pkgset.Proofs.Compose.Standstill

/-!
# How often defaults are computed

A default that came to an outcome is not computed again. One that was crashed through is as
if it had never been asked for. One in progress holds up every thread that uses it, also the
thread that is computing it: defaults are not in the table of waits, so nobody is refused. If
the use of a default leads back to it, on one thread or through others, the threads that are
entangled so are held up for ever.
-/

namespace Pkgset
open Machine Waiting Relation

/-- The defaults that the thread is computing, the innermost first. -/
def Thread.filling (thread : Thread) : List CellId :=
  thread.frames.filterMap fun
    | .cell cell => some cell
    | _ => none

@[simp] theorem CellId.computation_inj {cell other : CellId} : cell.computation = other.computation ↔ cell = other := by
  cases cell
  cases other
  simp [computation]

theorem Thread.mem_filling {thread : Thread} {cell : CellId} :
    cell ∈ thread.filling ↔ cell.computation ∈ thread.origins := by
  simp only [filling, mem_origins, List.mem_filterMap]
  refine exists_congr fun frame => and_congr_right fun _ => ?_
  cases frame with
  | slot slot => simp [CellId.computation]
  | cell other => simp
  | resume next => simp

/-- The default that a move has begun: the thread is inside of it now, and of all those that
    it was inside of before. -/
def Thread.opens? (before after : Thread) : Option CellId :=
  if after.filling.length = before.filling.length + 1 then after.filling.head? else none

theorem Thread.opens?_of_left {before after : Thread} {cell : CellId} (filling : before.filling = cell :: after.filling) :
    before.opens? after = none := by
  rw [opens?, if_neg]
  simp only [filling, List.length_cons]
  omega

/-- The default that a move crashes through. -/
def Thread.drops? (before : Thread) : Option CellId :=
  match before.control, before.frames with
  | .unwind, .cell cell :: _ => some cell
  | _, _ => none

/-- The computation whose outcome the thread is about to take, or waits for. -/
def Thread.wants? (thread : Thread) : Option Origin :=
  match thread.control with
  | .enter slot => some (.slot slot)
  | .blocked slot => some (.slot slot)
  | .fill cell => some cell.computation
  | _ => none

/-- What one move of a thread makes of what is known of a default. -/
inductive Progress.Fills (id : ThreadId) : Progress → Progress → Prop where
  | stay (progress : Progress) : Fills id progress progress
  | begin : Fills id .pending (.running id)
  | finish (outcome : Outcome) : Fills id (.running id) (.done outcome)
  | drop : Fills id (.running id) .pending

/-- How often a computation was begun, at least, of which this is known. -/
def Progress.begins : Progress → Nat
  | .pending => 0
  | _ => 1

theorem Progress.begins_le (progress : Progress) : progress.begins ≤ 1 := by
  cases progress <;> simp [begins]

/-! ### What one move does to defaults -/

namespace Machine

/-- What a move does to defaults: nothing, or it begins one, or it leaves the innermost one with
    an outcome or crashes through it. -/
inductive Tends (machine : Machine) (id : ThreadId) (thread : Thread) : Machine × Thread → Prop where
  | quiet {machine' : Machine} {thread' : Thread}
      (progress : ∀ cell : CellId, machine'.progress cell.computation = machine.progress cell.computation)
      (filling : thread'.filling = thread.filling) (kept : thread.drops? = none) :
      Tends machine id thread (machine', thread')
  | opens {machine' : Machine} {thread' : Thread} (cell : CellId)
      (pending : machine.progress cell.computation = .pending)
      (progress : ∀ other : CellId, machine'.progress other.computation =
        if other = cell then .running id else machine.progress other.computation)
      (filling : thread'.filling = cell :: thread.filling) (kept : thread.drops? = none) :
      Tends machine id thread (machine', thread')
  | fills {machine' : Machine} {thread' : Thread} (cell : CellId) (outcome : Outcome)
      (progress : ∀ other : CellId, machine'.progress other.computation =
        if other = cell then .done outcome else machine.progress other.computation)
      (filling : thread.filling = cell :: thread'.filling) (kept : thread.drops? = none) :
      Tends machine id thread (machine', thread')
  | drops {machine' : Machine} {thread' : Thread} (cell : CellId)
      (progress : ∀ other : CellId, machine'.progress other.computation =
        if other = cell then .pending else machine.progress other.computation)
      (filling : thread.filling = cell :: thread'.filling) (dropped : thread.drops? = some cell) :
      Tends machine id thread (machine', thread')

theorem progress_meet (machine : Machine) (thread : Thread) (demand : Demand) (origin : Origin) :
    (machine.meet thread demand).1.progress origin = machine.progress origin := by
  fun_cases Machine.meet machine thread demand with
  | case15 input view body next larger cell made =>
    cases made
    exact progress_allot machine _ input view body origin
  | case16 label next => exact progress_note machine _ origin
  | _ => rfl

theorem progress_setCell_of_running {machine : Machine} {cell : CellId} {id : ThreadId}
    (running : machine.progress cell.computation = .running id) (progress : Progress) (other : CellId) :
    (machine.setCell cell progress).progress other.computation =
      if other = cell then progress else machine.progress other.computation := by
  have present : (machine.cell? cell).isSome := by
    cases found : machine.cell? cell with
    | some content => rfl
    | none => simp [Machine.progress, CellId.computation, found] at running
  simp [progress_setCell, present]

theorem filling_meet (machine : Machine) (thread : Thread) (demand : Demand) :
    (machine.meet thread demand).2.filling = thread.filling := by
  fun_cases Machine.meet machine thread demand <;> simp [Thread.turn, Thread.push, Thread.filling]

private theorem enter_tends (machine : Machine) (id : ThreadId) {thread : Thread} {slot : SlotId}
    (enters : thread.control = .enter slot) : machine.Tends id thread (machine.enter id thread slot) := by
  have kept : thread.drops? = none := by simp [Thread.drops?, enters]
  fun_cases Machine.enter machine id thread slot with
  | case2 pending => exact .quiet (fun cell => by simp [CellId.computation]) rfl kept
  | case5 owner running other clear => exact .quiet (fun cell => progress_waits machine _ _) rfl kept
  | _ => exact .quiet (fun _ => rfl) rfl kept

private theorem fill_tends (machine : Machine) (id : ThreadId) {thread : Thread} {cell : CellId}
    (uses : thread.control = .fill cell) : machine.Tends id thread (machine.fill id thread cell) := by
  have kept : thread.drops? = none := by simp [Thread.drops?, uses]
  fun_cases Machine.fill machine id thread cell with
  | case4 content found pending =>
    refine .opens cell ?_ (fun other => ?_) rfl kept
    · simpa [Machine.progress, CellId.computation, found] using pending
    · simp [progress_setCell, found]
  | _ => exact .quiet (fun _ => rfl) rfl kept

theorem step_tends (machine : Machine) (id : ThreadId) {thread : Thread}
    (own : ∀ cell ∈ thread.filling, machine.progress cell.computation = .running id) :
    machine.Tends id thread (machine.step id thread) := by
  unfold Machine.step
  cases control : thread.control with
  | meet demand =>
    exact .quiet (fun cell => progress_meet machine thread demand _) (filling_meet machine thread demand)
      (by simp [Thread.drops?, control])
  | enter slot => exact enter_tends machine id control
  | fill cell => exact fill_tends machine id control
  | yield outcome =>
    have kept : thread.drops? = none := by simp [Thread.drops?, control]
    cases held : thread.frames with
    | nil => exact .quiet (fun _ => rfl) rfl kept
    | cons frame frames =>
      cases frame with
      | slot slot =>
        exact .quiet (fun cell => by simp [CellId.computation]) (by simp [Thread.filling, held]) kept
      | cell cell =>
        have running := own cell (by simp [Thread.filling, held])
        exact .fills cell outcome (progress_setCell_of_running running _) (by simp [Thread.filling, held]) kept
      | resume next => exact .quiet (fun _ => rfl) (by simp [Thread.filling, held]) kept
  | unwind =>
    cases held : thread.frames with
    | nil => exact .quiet (fun _ => rfl) rfl (by simp [Thread.drops?, control, held])
    | cons frame frames =>
      cases frame with
      | slot slot =>
        exact .quiet (fun cell => by simp [CellId.computation]) (by simp [Thread.filling, held])
          (by simp [Thread.drops?, control, held])
      | cell cell =>
        have running := own cell (by simp [Thread.filling, held])
        exact .drops cell (progress_setCell_of_running running _) (by simp [Thread.filling, held])
          (by simp [Thread.drops?, control, held])
      | resume next =>
        exact .quiet (fun _ => rfl) (by simp [Thread.filling, held]) (by simp [Thread.drops?, control, held])
  | blocked slot => exact .quiet (fun cell => progress_waits machine _ _) rfl (by simp [Thread.drops?, control])
  | paused demand => exact .quiet (fun _ => rfl) rfl (by simp [Thread.drops?, control])

/-- A default holds a thread up while it is in progress. -/
theorem isFilling_iff {machine : Machine} {cell : CellId} :
    machine.isFilling cell = true ↔ ∃ owner, machine.progress cell.computation = .running owner := by
  unfold isFilling
  split
  next input env body owner found => simp [Machine.progress, CellId.computation, found]
  next other =>
    refine iff_of_false (by simp) ?_
    rintro ⟨owner, running⟩
    cases found : machine.cell? cell with
    | none => simp [Machine.progress, CellId.computation, found] at running
    | some content =>
      obtain ⟨input, env, body, progress⟩ := content
      obtain rfl : progress = .running owner := by simpa [Machine.progress, CellId.computation, found] using running
      exact other input env body owner found

theorem step_of_filled {machine : Machine} {thread : Thread} {cell : CellId} {outcome : Outcome} (id : ThreadId)
    (uses : thread.control = .fill cell) (done : machine.progress cell.computation = .done outcome) :
    machine.step id thread = (machine, ⟨.yield outcome, thread.frames⟩) := by
  simp only [Machine.step, uses]
  fun_cases Machine.fill machine id thread cell <;> simp_all [Machine.progress, CellId.computation, Thread.turn]

theorem step_of_filling {machine : Machine} {thread : Thread} {cell : CellId} {owner : ThreadId} (id : ThreadId)
    (uses : thread.control = .fill cell) (running : machine.progress cell.computation = .running owner) :
    machine.step id thread = (machine, thread) := by
  simp only [Machine.step, uses]
  fun_cases Machine.fill machine id thread cell <;> simp_all [Machine.progress, CellId.computation]

end Machine

namespace Pool

/-- The defaults that are begun in an interleaving, in their order. -/
def opened : Pool → List ThreadId → List CellId
  | _, [] => []
  | pool, id :: rest => ((pool.threads id).opens? ((pool.step id).threads id)).toList ++ opened (pool.step id) rest

/-- The defaults that threads crash through in an interleaving, in their order. -/
def dropped : Pool → List ThreadId → List CellId
  | _, [] => []
  | pool, id :: rest => (pool.threads id).drops?.toList ++ dropped (pool.step id) rest

theorem Owned.tends {pool : Pool} (owned : pool.Owned) (id : ThreadId) :
    pool.machine.Tends id (pool.threads id) (pool.machine.step id (pool.threads id)) :=
  step_tends pool.machine id fun cell member => owned.owner id cell.computation (Thread.mem_filling.mp member)

/-- What is known of a default changes only for the thread that moves: it begins one that is
    pending, and leaves one of its own with an outcome or, crashing, as if it had not begun it. -/
theorem Owned.fills {pool : Pool} (owned : pool.Owned) (id : ThreadId) (cell : CellId) :
    Progress.Fills id (pool.machine.progress cell.computation) ((pool.step id).machine.progress cell.computation) := by
  have tends := owned.tends id
  have own (other : CellId) (member : other ∈ (pool.threads id).filling) :=
    owned.owner id other.computation (Thread.mem_filling.mp member)
  rw [machine_step]
  generalize pool.machine.step id (pool.threads id) = result at tends
  cases tends with
  | quiet progress filling kept =>
    rw [progress]
    exact .stay _
  | opens other pending progress filling kept =>
    rw [progress]
    split
    next same => exact same ▸ pending ▸ .begin
    next => exact .stay _
  | fills other outcome progress filling kept =>
    rw [progress]
    split
    next same => exact same ▸ own other (by simp [filling]) ▸ .finish outcome
    next => exact .stay _
  | drops other progress filling dropped =>
    rw [progress]
    split
    next same => exact same ▸ own other (by simp [filling]) ▸ .drop
    next => exact .stay _

private theorem count_step {pool : Pool} (owned : pool.Owned) (id : ThreadId) (cell : CellId) :
    ((pool.threads id).opens? ((pool.step id).threads id)).toList.count cell +
        (pool.machine.progress cell.computation).begins =
      (pool.threads id).drops?.toList.count cell + ((pool.step id).machine.progress cell.computation).begins := by
  have tends := owned.tends id
  have own (other : CellId) (member : other ∈ (pool.threads id).filling) :=
    owned.owner id other.computation (Thread.mem_filling.mp member)
  rw [machine_step, threads_step_self]
  generalize pool.machine.step id (pool.threads id) = result at tends
  cases tends with
  | quiet progress filling kept => simp [Thread.opens?, filling, kept, progress]
  | opens other pending progress filling kept =>
    by_cases same : cell = other
    · simp [Thread.opens?, filling, kept, progress, same, pending, Progress.begins]
    · simp [Thread.opens?, filling, kept, progress, same, Ne.symm same]
  | fills other outcome progress filling kept =>
    have running := own other (by simp [filling])
    by_cases same : cell = other
    · simp [Thread.opens?_of_left filling, kept, progress, same, running, Progress.begins]
    · simp [Thread.opens?_of_left filling, kept, progress, same]
  | drops other progress filling dropped =>
    have running := own other (by simp [filling])
    by_cases same : cell = other
    · simp [Thread.opens?_of_left filling, dropped, progress, same, running, Progress.begins]
    · simp [Thread.opens?_of_left filling, dropped, progress, same, Ne.symm same]

/-- A default is begun once more than threads crash through it, unless it is pending at the
    end; one that was not pending at the beginning was begun before. -/
theorem count_opened {pool : Pool} (owned : pool.Owned) (interleaving : List ThreadId) (cell : CellId) :
    (pool.opened interleaving).count cell + (pool.machine.progress cell.computation).begins =
      (pool.dropped interleaving).count cell + ((pool.run interleaving).machine.progress cell.computation).begins := by
  induction interleaving generalizing pool with
  | nil => simp [opened, dropped]
  | cons id rest ih =>
    have first := count_step owned id cell
    have later := ih (owned.step id)
    rw [opened, dropped, List.count_append, List.count_append, run_cons]
    omega

theorem count_opened_le {pool : Pool} (owned : pool.Owned) (interleaving : List ThreadId) (cell : CellId) :
    (pool.opened interleaving).count cell ≤ (pool.dropped interleaving).count cell + 1 := by
  have counted := count_opened owned interleaving cell
  have once := ((pool.run interleaving).machine.progress cell.computation).begins_le
  omega

theorem filled_run {pool : Pool} (owned : pool.Owned) {cell : CellId} {outcome : Outcome}
    (done : pool.machine.progress cell.computation = .done outcome) (later : List ThreadId) :
    (pool.run later).machine.progress cell.computation = .done outcome := by
  induction later generalizing pool with
  | nil => exact done
  | cons id rest ih =>
    refine ih (owned.step id) ?_
    have fills := owned.fills id cell
    generalize (pool.step id).machine.progress cell.computation = after at fills ⊢
    cases (done ▸ fills : Progress.Fills id (.done outcome) after)
    rfl

/-! ### Threads that are entangled -/

/-- Each thread of a group wants what a thread of the group is computing. The waits for
    definitions lead to lower ranks, so they form no circle: there are defaults on the way. -/
def Entangled (pool : Pool) (group : Set ThreadId) (rank : ThreadId → Nat) : Prop :=
  ∀ id ∈ group, ∃ asked, ∃ owner ∈ group, (pool.threads id).wants? = some asked ∧
    pool.machine.progress asked = .running owner ∧ ∀ slot, asked = .slot slot → rank owner < rank id

/-- What a thread does leaves the computations of others in progress. -/
theorem Owned.running_step {pool : Pool} (owned : pool.Owned) {id owner : ThreadId} (apart : owner ≠ id) {origin : Origin}
    (running : pool.machine.progress origin = .running owner) :
    (pool.step id).machine.progress origin = .running owner := by
  have turns := step_turns pool.machine id (pool.threads id)
  have own := owned.owner id
  rw [machine_step]
  generalize pool.machine.step id (pool.threads id) = result at turns
  cases turns with
  | stay progress origins made => rw [progress, running]
  | start begun pending progress origins made =>
    rw [progress, if_neg, running]
    rintro rfl
    simp [running] at pending
  | finish left after idle progress origins made =>
    rw [progress, if_neg, running]
    rintro rfl
    have same := (own origin (by simp [origins])).symm.trans running
    exact apart (by simpa using same.symm)

namespace Entangled
variable {pool : Pool} {group : Set ThreadId} {rank : ThreadId → Nat} {id : ThreadId}

/-- Within the group, the table of waits leads to lower ranks. -/
theorem rank_lt (entangled : pool.Entangled group rank) (orderly : pool.Orderly) (member : id ∈ group) {owner : ThreadId}
    (waits : WaitsFor pool.machine.waits id owner) : owner ∈ group ∧ rank owner < rank id := by
  obtain ⟨wait, found, rfl⟩ := waits
  obtain ⟨asleep, running⟩ := orderly.backed id wait found
  obtain ⟨asked, owner, inside, wants, running', lower⟩ := entangled id member
  obtain rfl : asked = .slot wait.slot := by
    unfold Thread.sleepsOn? at asleep
    unfold Thread.wants? at wants
    split at asleep <;> simp_all
  cases (running : pool.machine.progress (.slot wait.slot) = _).symm.trans running'
  exact ⟨inside, lower wait.slot rfl⟩

/-- A thread of the group is not refused. -/
theorem closing?_eq_none (entangled : pool.Entangled group rank) (orderly : pool.Orderly) {slot : SlotId}
    (enters : (pool.threads id).control = .enter slot) {owner : ThreadId} (inside : owner ∈ group)
    (lower : rank owner < rank id) : closing? pool.machine.waits id owner slot = none := by
  -- A refusal means that the waits lead from the owner back to the thread, whose rank is higher.
  by_contra found
  have free := orderly.free (show (pool.threads id).sleepsOn? = none by simp [Thread.sleepsOn?, enters])
  have apart : owner ≠ id := by
    rintro rfl
    exact lt_irrefl _ lower
  have cyclic := (closing?_isSome_iff orderly.single orderly.acyclic free apart slot).mp (Option.isSome_iff_ne_none.mpr found)
  rw [acyclic_record_iff orderly.single orderly.acyclic free, not_not] at cyclic
  have below (other : ThreadId) (path : ReflTransGen (WaitsFor pool.machine.waits) owner other) :
      other ∈ group ∧ rank other ≤ rank owner := by
    induction path with
    | refl => exact ⟨inside, le_rfl⟩
    | tail _ waits ih =>
      obtain ⟨within, less⟩ := entangled.rank_lt orderly ih.1 waits
      exact ⟨within, less.le.trans ih.2⟩
  exact absurd (below id cyclic).2 (not_le.mpr lower)

/-- A thread of the group that moves wants the same as before and has changed nothing. -/
theorem step_self (entangled : pool.Entangled group rank) (orderly : pool.Orderly) (member : id ∈ group) :
    (∀ origin, (pool.step id).machine.progress origin = pool.machine.progress origin) ∧
      ((pool.step id).threads id).wants? = (pool.threads id).wants? ∧
      ((pool.step id).threads id).frames = (pool.threads id).frames := by
  obtain ⟨asked, owner, inside, wants, running, lower⟩ := entangled id member
  rw [machine_step, threads_step_self]
  cases control : (pool.threads id).control with
  | enter slot =>
    obtain rfl : asked = .slot slot := by simpa [Thread.wants?, control, eq_comm] using wants
    have less := lower slot rfl
    have apart : owner ≠ id := by
      rintro rfl
      exact lt_irrefl _ less
    have clear := entangled.closing?_eq_none orderly control inside less
    simp only [Machine.step, control, Machine.enter, show pool.machine.slots slot = .running owner from running, apart,
      ↓reduceIte, clear]
    exact ⟨progress_waits pool.machine _, by simp [Thread.wants?, Thread.turn, control], rfl⟩
  | blocked slot =>
    simp only [Machine.step, control]
    exact ⟨progress_waits pool.machine _, by simp [Thread.wants?, Thread.turn, control], rfl⟩
  | fill cell =>
    obtain rfl : asked = cell.computation := by simpa [Thread.wants?, control, eq_comm] using wants
    rw [step_of_filling id control running]
    exact ⟨fun _ => rfl, by simp [Thread.wants?, control], rfl⟩
  | _ => simp [Thread.wants?, control] at wants

/-- Whoever moves, the group stays entangled, and its threads stay where they are. -/
theorem step (entangled : pool.Entangled group rank) (owned : pool.Owned) (orderly : pool.Orderly) (id : ThreadId) :
    (pool.step id).Entangled group rank ∧
      ∀ other ∈ group, ((pool.step id).threads other).wants? = (pool.threads other).wants? ∧
        ((pool.step id).threads other).frames = (pool.threads other).frames := by
  by_cases member : id ∈ group
  · obtain ⟨progress, wants, frames⟩ := entangled.step_self orderly member
    have each (other : ThreadId) : ((pool.step id).threads other).wants? = (pool.threads other).wants? ∧
        ((pool.step id).threads other).frames = (pool.threads other).frames := by
      by_cases same : other = id
      · subst same
        exact ⟨wants, frames⟩
      · simp [threads_step_of_ne same]
    refine ⟨fun other inside => ?_, fun other _ => each other⟩
    simpa only [each, progress] using entangled other inside
  · have apart {other : ThreadId} (inside : other ∈ group) : other ≠ id := ne_of_mem_of_not_mem inside member
    refine ⟨fun other inside => ?_, fun other inside => by simp [threads_step_of_ne (apart inside)]⟩
    obtain ⟨asked, owner, within, wants, running, lower⟩ := entangled other inside
    rw [threads_step_of_ne (apart inside)]
    exact ⟨asked, owner, within, wants, owned.running_step (apart within) running, lower⟩

theorem run (entangled : pool.Entangled group rank) (owned : pool.Owned) (orderly : pool.Orderly) (later : List ThreadId) :
    (pool.run later).Entangled group rank ∧
      ∀ id ∈ group, ((pool.run later).threads id).wants? = (pool.threads id).wants? ∧
        ((pool.run later).threads id).frames = (pool.threads id).frames := by
  induction later generalizing pool with
  | nil => exact ⟨entangled, fun _ _ => ⟨rfl, rfl⟩⟩
  | cons id rest ih =>
    obtain ⟨entangled', stays⟩ := entangled.step owned orderly id
    obtain ⟨last, stays'⟩ := ih entangled' (owned.step id) (orderly.step id)
    refine ⟨last, fun other inside => ?_⟩
    exact ⟨(stays' other inside).1.trans (stays other inside).1, (stays' other inside).2.trans (stays other inside).2⟩

theorem fills (entangled : pool.Entangled group rank) (owned : pool.Owned) (orderly : pool.Orderly) (later : List ThreadId)
    {id : ThreadId} (member : id ∈ group) {cell : CellId} (inside : cell ∈ (pool.threads id).filling) :
    (pool.run later).machine.progress cell.computation = .running id := by
  have owned' : (pool.run later).Owned := run_keeps (fun _ id owned => owned.step id) owned later
  have same : ((pool.run later).threads id).filling = (pool.threads id).filling := by
    rw [Thread.filling, Thread.filling, ((entangled.run owned orderly later).2 id member).2]
  exact owned'.owner id cell.computation (Thread.mem_filling.mp (same ▸ inside))

end Entangled

/-- Who uses a default that it is computing is entangled with itself. -/
theorem Owned.entangled {pool : Pool} (owned : pool.Owned) {id : ThreadId} {cell : CellId}
    (uses : (pool.threads id).control = .fill cell) (inside : cell ∈ (pool.threads id).filling) :
    pool.Entangled {id} fun _ => 0 := by
  rintro _ rfl
  refine ⟨cell.computation, _, rfl, by simp [Thread.wants?, uses], ?_, fun slot same => by simp [CellId.computation] at same⟩
  exact owned.owner _ cell.computation (Thread.mem_filling.mp inside)

/-- No thread of an idle pool is at work on what is in progress. -/
private theorem Idle.held {pool : Pool} (idle : pool.Idle)
    (unused : ∀ (cell : CellId) owner, pool.machine.progress cell.computation ≠ .running owner) : pool.Held := by
  intro origin owner running
  cases origin with
  | outside => cases running
  | slot slot => exact absurd running (idle.slots slot owner)
  | cell origin number => exact absurd running (unused ⟨origin, number⟩ owner)

/-- However threads that start in an idle pool are interleaved, and whatever definitions and
    defaults do: a default is begun once at most, and once more for each thread that crashes
    through it; it is in progress for a thread exactly while the thread is inside of it; the
    outcome that it is left with never changes, and is what everyone gets who uses it. Using a
    default in progress changes nothing, also if the thread is inside of it itself. So threads
    that want what each other, or they themselves, are computing do so for ever, if there are
    defaults on the way: they leave no frame, and what they are computing stays in progress. -/
theorem Idle.fills_defaults {pool : Pool} (idle : pool.Idle)
    (unused : ∀ (cell : CellId) owner, pool.machine.progress cell.computation ≠ .running owner)
    (interleaving : List ThreadId) :
    let reached := pool.run interleaving
    (∀ cell, (pool.opened interleaving).count cell ≤ (pool.dropped interleaving).count cell + 1) ∧
      (∀ id (cell : CellId), Progress.Fills id (reached.machine.progress cell.computation)
        ((reached.step id).machine.progress cell.computation)) ∧
      (∀ (cell : CellId) owner,
        reached.machine.progress cell.computation = .running owner ↔ cell ∈ (reached.threads owner).filling) ∧
      (∀ (cell : CellId) outcome, reached.machine.progress cell.computation = .done outcome →
        ∀ later, (reached.run later).machine.progress cell.computation = .done outcome) ∧
      (∀ id cell, (reached.threads id).control = .fill cell →
        (∀ outcome, reached.machine.progress cell.computation = .done outcome →
          (reached.step id).threads id = ⟨.yield outcome, (reached.threads id).frames⟩) ∧
        ∀ owner, reached.machine.progress cell.computation = .running owner →
          (reached.step id).threads id = reached.threads id ∧ (reached.step id).machine = reached.machine) ∧
      (∀ id cell, (reached.threads id).control = .fill cell → cell ∈ (reached.threads id).filling →
        reached.Entangled {id} fun _ => 0) ∧
      ∀ group rank, reached.Entangled group rank → ∀ later,
        (reached.run later).Entangled group rank ∧
          ∀ id ∈ group, ((reached.run later).threads id).wants? = (reached.threads id).wants? ∧
            ((reached.run later).threads id).frames = (reached.threads id).frames ∧
            ∀ cell ∈ (reached.threads id).filling, (reached.run later).machine.progress cell.computation = .running id := by
  intro reached
  have owned : reached.Owned := run_keeps (fun _ id owned => owned.step id) idle.owned interleaving
  have orderly : reached.Orderly := run_keeps (fun _ id orderly => orderly.step id) idle.orderly interleaving
  have held : reached.Held := run_keeps (fun _ id held => held.step id) (idle.held unused) interleaving
  refine ⟨count_opened_le idle.owned interleaving, owned.fills, fun cell owner => ⟨fun running => ?_, fun inside => ?_⟩,
    fun cell outcome done => filled_run owned done, fun id cell uses => ⟨fun outcome done => ?_, fun owner running => ?_⟩,
    fun id cell => owned.entangled, fun group rank entangled later => ?_⟩
  · exact Thread.mem_filling.mpr (held cell.computation owner running)
  · exact owned.owner owner cell.computation (Thread.mem_filling.mp inside)
  · rw [threads_step_self, step_of_filled id uses done]
  · rw [threads_step_self, machine_step, step_of_filling id uses running]
    exact ⟨rfl, rfl⟩
  · obtain ⟨entangled', stays⟩ := entangled.run owned orderly later
    refine ⟨entangled', fun id member => ?_⟩
    obtain ⟨wants, frames⟩ := stays id member
    exact ⟨wants, frames, fun cell => entangled.fills owned orderly later member⟩

end Pool

/-! ### A reference to a default

An entry is a reference to the default of its input, and another entry follows it. What the
default does is a parameter. -/

namespace Referred

/-- The two entries. -/
def environment (default : View → Demand) : Environment :=
  .compose "referred"
    ⟨[("entry", (Descriptor.new "entry" .library fun inputs => inputs.lazy "input").optional "input" default),
      ("follower", (Descriptor.new "follower" .library fun inputs => (inputs.get "entry").settled).requires "entry")]⟩ []

/-- The first two threads follow the reference, the others get the entry that does so. -/
def pool (default : View → Demand) : Pool where
  machine := { Machine.empty with environments := [some (environment default)] }
  threads id := .start (if id < 2 then .settled (.get (.whole 1) "entry" .done) else .get (.whole 1) "follower" .done)

/-- The default of the input. -/
def cell : CellId := ⟨.slot ⟨1, "entry", 0⟩, 0⟩

theorem idle (default : View → Demand) : (pool default).Idle := by
  refine ⟨rfl, fun slot owner running => ?_, fun id => ⟨_, rfl⟩⟩
  cases running

theorem unused (default : View → Demand) (cell : CellId) (owner : ThreadId) :
    (pool default).machine.progress cell.computation ≠ .running owner := by
  intro running
  cases running

/-- A default that gets the entry that follows the reference. -/
def around (view : View) : Demand := .get view "follower" .done

/-- A default that crashes. -/
def crashing (_ : View) : Demand := .mark "tried" .panic

/-- The thread that comes back to a default is not refused but held up for ever, and the default
    stays in progress. A default that crashes is begun again. -/
theorem not_once :
    let reached := (pool around).run (List.replicate 18 0)
    ((reached.threads 0).control = .fill cell ∧ cell ∈ (reached.threads 0).filling ∧
      ∀ later, ((reached.run later).threads 0).wants? = some cell.computation ∧
        ((reached.run later).threads 0).frames = (reached.threads 0).frames) ∧
      ((pool crashing).opened (List.replicate 16 0 ++ List.replicate 12 1)).count cell = 2 := by
  intro reached
  have owned : reached.Owned := Pool.run_keeps (fun _ id owned => owned.step id) (idle around).owned _
  have orderly : reached.Orderly := Pool.run_keeps (fun _ id orderly => orderly.step id) (idle around).orderly _
  have inside : cell ∈ (reached.threads 0).filling := by decide
  refine ⟨⟨rfl, inside, fun later => ?_⟩, by decide⟩
  exact ((owned.entangled rfl inside).run owned orderly later).2 0 rfl

/-- A thread is at the default and waits for the entry that another one is at, which uses the
    default. No wait is refused, and whatever the threads do, none leaves its frames. -/
theorem fills_defaults_crossed :
    let reached := (pool around).run (List.replicate 11 0 ++ List.replicate 8 2 ++ [0])
    (reached.threads 0).control = .blocked ⟨1, "follower", 0⟩ ∧ (reached.threads 2).control = .fill cell ∧
      ∀ later, (reached.run later).machine.progress cell.computation = .running 0 := by
  intro reached
  obtain ⟨_, _, _, _, _, _, held⟩ :=
    (idle around).fills_defaults (unused around) (List.replicate 11 0 ++ List.replicate 8 2 ++ [0])
  have entangled : reached.Entangled {0, 2} (fun id => if id = 0 then 1 else 0) := by
    rintro id (rfl | rfl)
    · exact ⟨.slot ⟨1, "follower", 0⟩, 2, Or.inr rfl, rfl, rfl, fun _ _ => by decide⟩
    · exact ⟨cell.computation, 0, Or.inl rfl, rfl, rfl, fun slot same => by cases same⟩
  refine ⟨rfl, rfl, fun later => ?_⟩
  exact ((held _ _ entangled later).2 0 (Or.inl rfl)).2.2 cell (by decide)

end Referred
end Pkgset

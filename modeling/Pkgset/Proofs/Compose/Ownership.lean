import Pkgset.Proofs.Compose.Moves

/-!
# Who is at a computation

A thread is in the computations of its frames. A definition or default that is in
progress belongs to the thread that started it, and only that thread is in it: whatever
another thread does leaves its computations, and the cells that they have made, as they
are.
-/

namespace Pkgset

/-- What is known of a computation: nothing of one outside, nor of the default of a cell
    that was not made. -/
def Machine.progress (machine : Machine) : Origin → Progress
  | .outside => .pending
  | .slot slot => machine.slots slot
  | .cell origin number => ((machine.cell? ⟨origin, number⟩).map Cell.progress).getD .pending

/-- The computations that the thread is in, the innermost first. -/
def Thread.origins (thread : Thread) : List Origin := thread.frames.filterMap Frame.origin?

@[simp] theorem Frame.origin?_slot (slot : SlotId) : (Frame.slot slot).origin? = some (.slot slot) := rfl
@[simp] theorem Frame.origin?_cell (cell : CellId) : (Frame.cell cell).origin? = some cell.computation := rfl
@[simp] theorem Frame.origin?_resume (next : Outcome → Demand) : (Frame.resume next).origin? = none := rfl

theorem Frame.origin?_ne_outside {frame : Frame} {origin : Origin} (is : frame.origin? = some origin) :
    origin ≠ .outside := by
  rintro rfl
  cases frame <;> cases is

namespace Thread

theorem mem_origins {thread : Thread} {origin : Origin} :
    origin ∈ thread.origins ↔ ∃ frame ∈ thread.frames, frame.origin? = some origin := by
  simp [origins]

theorem slot_mem_origins {thread : Thread} {slot : SlotId} (forces : slot ∈ thread.forcing) :
    Origin.slot slot ∈ thread.origins := by
  obtain ⟨frame, member, is⟩ := List.mem_filterMap.mp forces
  cases frame with
  | slot other =>
    cases is
    exact mem_origins.mpr ⟨_, member, rfl⟩
  | _ => cases is

/-- The innermost computation, if there is one. -/
theorem origin_eq (thread : Thread) : thread.origin = thread.origins.head?.getD .outside := by
  simp [origin, origins, List.head?_filterMap]

end Thread

namespace Machine

@[simp] theorem progress_note (machine : Machine) (journal : List String) (origin : Origin) :
    ({ machine with journal } : Machine).progress origin = machine.progress origin := by cases origin <;> rfl
@[simp] theorem progress_waits (machine : Machine) (waits : List (ThreadId × Wait)) (origin : Origin) :
    ({ machine with waits } : Machine).progress origin = machine.progress origin := by cases origin <;> rfl
@[simp] theorem progress_setSlot (machine : Machine) (slot : SlotId) (progress : Progress) (origin : Origin) :
    (machine.setSlot slot progress).progress origin =
      if origin = .slot slot then progress else machine.progress origin := by
  cases origin <;> simp [Machine.progress, setSlot, cell?]
@[simp] theorem progress_publish (machine : Machine) (slot : SlotId) (outcome : Outcome) (origin : Origin) :
    (machine.publish slot outcome).progress origin =
      if origin = .slot slot then .done outcome else machine.progress origin := by
  simp [publish, releaseWaits]

theorem cell?_setCell (machine : Machine) (cell other : CellId) (progress : Progress) :
    (machine.setCell cell progress).cell? other =
      if other = cell then (machine.cell? cell).map ({ · with progress }) else machine.cell? other := by
  unfold cell? setCell
  induction machine.cells with
  | nil => simp
  | cons entry rest ih =>
    obtain ⟨first, content⟩ := entry
    by_cases here : first = cell
    · by_cases same : other = cell
      · simp [here, same]
      · have unlike : (other == cell) = false := beq_eq_false_iff_ne.mpr same
        simpa [here, same, List.lookup_cons, unlike] using ih
    · by_cases found : other = first
      · have differs : other ≠ cell := by rwa [found]
        simp [here, found]
      · have unlike : (other == first) = false := beq_eq_false_iff_ne.mpr found
        by_cases same : other = cell
        · subst same
          simpa [here, List.lookup_cons, unlike] using ih
        · simpa [here, same, List.lookup_cons, unlike] using ih

theorem progress_setCell (machine : Machine) (cell : CellId) (progress : Progress) (origin : Origin) :
    (machine.setCell cell progress).progress origin =
      if origin = cell.computation ∧ (machine.cell? cell).isSome then progress else machine.progress origin := by
  cases origin with
  | outside => simp [Machine.progress, CellId.computation]
  | slot slot => simp [Machine.progress, CellId.computation]
  | cell origin number =>
    by_cases same : (⟨origin, number⟩ : CellId) = cell
    · subst same
      cases found : machine.cell? ⟨origin, number⟩ <;> simp [Machine.progress, cell?_setCell, found, CellId.computation]
    · have apart : Origin.cell origin number ≠ cell.computation := by
        rintro equal
        cases equal
        exact same rfl
      simp [Machine.progress, cell?_setCell, same, apart]

theorem cell?_allot (machine : Machine) (origin : Origin) (input : String) (view : View) (body : Demand) (other : CellId) :
    (machine.allot origin input view body).1.cell? other =
      (machine.cell? other).or
        (if other = ⟨origin, machine.cellsMade origin⟩ then some ⟨input, view.env, body, .pending⟩ else none) := by
  simp only [cell?, allot, List.lookup_append]
  congr 1
  by_cases same : other = ⟨origin, machine.cellsMade origin⟩
  · simp [same]
  · have unlike : (other == ⟨origin, machine.cellsMade origin⟩) = false := beq_eq_false_iff_ne.mpr same
    simp [List.lookup_cons, same, unlike]

@[simp] theorem progress_allot (machine : Machine) (origin : Origin) (input : String) (view : View) (body : Demand)
    (other : Origin) : (machine.allot origin input view body).1.progress other = machine.progress other := by
  cases other with
  | outside => rfl
  | slot slot => rfl
  | cell origin' number =>
    simp only [Machine.progress, cell?_allot]
    cases found : machine.cell? ⟨origin', number⟩ with
    | some cell => rfl
    | none =>
      simp only [Option.none_or, Option.map_none, Option.getD_none]
      split <;> rfl

@[simp] theorem cellsMade_setCell (machine : Machine) (cell : CellId) (progress : Progress) (origin : Origin) :
    (machine.setCell cell progress).cellsMade origin = machine.cellsMade origin := by
  have untouched (entry : CellId × Cell) :
      (if entry.1 = cell then (cell, { entry.2 with progress }) else entry).1 = entry.1 := by
    split
    next same => exact same.symm
    next => rfl
  simp [cellsMade, setCell, List.countP_map, Function.comp_def, untouched]

theorem cellsMade_allot (machine : Machine) (origin : Origin) (input : String) (view : View) (body : Demand)
    (other : Origin) :
    (machine.allot origin input view body).1.cellsMade other =
      machine.cellsMade other + if other = origin then 1 else 0 := by
  by_cases same : other = origin
  · simp [cellsMade, allot, List.countP_append, same]
  · have apart : origin ≠ other := fun equal => same equal.symm
    simp [cellsMade, allot, List.countP_append, same, apart]

/-- What a move does to computations: it starts one, ends the innermost one, or leaves
    them as they are. Cells are made by the innermost computation only. -/
inductive Turns (machine : Machine) (id : ThreadId) (thread : Thread) : Machine × Thread → Prop where
  | stay {machine' : Machine} {thread' : Thread} (progress : ∀ origin, machine'.progress origin = machine.progress origin)
      (origins : thread'.origins = thread.origins)
      (made : ∀ origin, origin ≠ thread.origin → machine'.cellsMade origin = machine.cellsMade origin) :
      Turns machine id thread (machine', thread')
  | start {machine' : Machine} {thread' : Thread} (origin : Origin) (pending : machine.progress origin = .pending)
      (progress : ∀ other, machine'.progress other = if other = origin then .running id else machine.progress other)
      (origins : thread'.origins = origin :: thread.origins)
      (made : ∀ other, machine'.cellsMade other = machine.cellsMade other) : Turns machine id thread (machine', thread')
  | finish {machine' : Machine} {thread' : Thread} (origin : Origin) (after : Progress)
      (idle : ∀ owner, after ≠ .running owner)
      (progress : ∀ other, machine'.progress other = if other = origin then after else machine.progress other)
      (origins : thread.origins = origin :: thread'.origins)
      (made : ∀ other, machine'.cellsMade other = machine.cellsMade other) : Turns machine id thread (machine', thread')

theorem meet_turns (machine : Machine) (id : ThreadId) (thread : Thread) (demand : Demand) :
    Turns machine id thread (machine.meet thread demand) := by
  fun_cases Machine.meet machine thread demand with
  | case15 input view body next larger cell made =>
    cases made
    refine .stay (progress_allot machine _ input view body) rfl fun origin apart => ?_
    exact (cellsMade_allot machine _ input view body origin).trans (by simp [apart])
  | case16 label next => exact .stay (progress_note machine _) rfl fun _ _ => rfl
  | _ => exact .stay (fun _ => rfl) rfl fun _ _ => rfl

theorem enter_turns (machine : Machine) (id : ThreadId) (thread : Thread) (slot : SlotId) :
    Turns machine id thread (machine.enter id thread slot) := by
  fun_cases Machine.enter machine id thread slot with
  | case2 pending => exact .start (.slot slot) pending (progress_setSlot machine slot _) rfl fun _ => rfl
  | case5 owner running other clear => exact .stay (progress_waits machine _) rfl fun _ _ => rfl
  | _ => exact .stay (fun _ => rfl) rfl fun _ _ => rfl

theorem fill_turns (machine : Machine) (id : ThreadId) (thread : Thread) (cell : CellId) :
    Turns machine id thread (machine.fill id thread cell) := by
  fun_cases Machine.fill machine id thread cell with
  | case4 found content pending =>
    refine .start cell.computation ?_ (fun other => ?_) rfl (cellsMade_setCell machine cell _)
    · simpa [Machine.progress, CellId.computation, content] using pending
    · simp [progress_setCell, content]
  | _ => exact .stay (fun _ => rfl) rfl fun _ _ => rfl

/-- What a cell is left with, if there is such a cell. -/
private theorem setCell_turns {machine : Machine} (id : ThreadId) {thread : Thread} {cell : CellId} {frames : List Frame}
    (held : thread.frames = .cell cell :: frames) {after : Progress} (idle : ∀ owner, after ≠ .running owner)
    (control : Control) : Turns machine id thread (machine.setCell cell after, ⟨control, frames⟩) := by
  have origins : thread.origins = cell.computation :: frames.filterMap Frame.origin? := by
    simp [Thread.origins, held]
  cases content : machine.cell? cell with
  | some found =>
    refine .finish cell.computation after idle (fun other => ?_) origins (cellsMade_setCell machine cell _)
    simp [progress_setCell, content]
  | none =>
    have missing : machine.progress cell.computation = .pending := by
      simp [Machine.progress, CellId.computation, content]
    refine .finish cell.computation .pending (fun _ => by simp) (fun other => ?_) origins (cellsMade_setCell machine cell _)
    split
    next same =>
      subst same
      simpa [progress_setCell, content] using missing
    next => simp [progress_setCell, content]

theorem step_turns (machine : Machine) (id : ThreadId) (thread : Thread) :
    Turns machine id thread (machine.step id thread) := by
  unfold Machine.step
  cases control : thread.control with
  | meet demand => exact meet_turns machine id thread demand
  | enter slot => exact enter_turns machine id thread slot
  | fill cell => exact fill_turns machine id thread cell
  | yield outcome =>
    cases held : thread.frames with
    | nil => exact .stay (fun _ => rfl) rfl fun _ _ => rfl
    | cons frame frames =>
      cases frame with
      | slot slot =>
        exact .finish (.slot slot) (.done outcome) (fun _ => by simp) (progress_publish machine slot outcome)
          (by simp [Thread.origins, held]) fun _ => rfl
      | cell cell => exact setCell_turns id held (fun _ => by simp) _
      | resume next =>
        exact .stay (fun _ => rfl) (by simp [Thread.origins, held, List.filterMap_cons]) fun _ _ => rfl
  | unwind =>
    cases held : thread.frames with
    | nil => exact .stay (fun _ => rfl) rfl fun _ _ => rfl
    | cons frame frames =>
      cases frame with
      | slot slot =>
        exact .finish (.slot slot) _ (fun _ => by simp) (progress_publish machine slot _)
          (by simp [Thread.origins, held]) fun _ => rfl
      | cell cell => exact setCell_turns id held (fun _ => by simp) _
      | resume next =>
        exact .stay (fun _ => rfl) (by simp [Thread.origins, held, List.filterMap_cons]) fun _ _ => rfl
  | blocked slot => exact .stay (progress_waits machine _) rfl fun _ _ => rfl
  | paused demand => exact .stay (fun _ => rfl) rfl fun _ _ => rfl

end Machine

/-- Each computation that a thread is in is in progress and belongs to the thread, which
    is in it once. -/
structure Pool.Owned (pool : Pool) : Prop where
  nodup : ∀ id, (pool.threads id).origins.Nodup
  owner : ∀ id, ∀ origin ∈ (pool.threads id).origins, pool.machine.progress origin = .running id

namespace Pool.Owned
open Machine

/-- What one thread does keeps computations with their owners. -/
theorem step {pool : Pool} (owned : pool.Owned) (id : ThreadId) : (pool.step id).Owned := by
  have turns := step_turns pool.machine id (pool.threads id)
  unfold Pool.step
  generalize pool.machine.step id (pool.threads id) = result at turns ⊢
  cases turns with
  | @stay machine thread progress origins made =>
    refine ⟨fun other => ?_, fun other origin member => ?_⟩
    · by_cases same : other = id
      · simpa [same, origins] using owned.nodup id
      · simpa [same] using owned.nodup other
    · by_cases same : other = id
      · simp only [same, ↓reduceIte, origins] at member ⊢
        exact (progress origin).trans (owned.owner id origin member)
      · simp only [same, ↓reduceIte] at member
        exact (progress origin).trans (owned.owner other origin member)
  | @start machine thread origin pending progress origins made =>
    have fresh (other : ThreadId) : origin ∉ (pool.threads other).origins := by
      intro member
      simp [owned.owner other origin member] at pending
    refine ⟨fun other => ?_, fun other started member => ?_⟩
    · by_cases same : other = id
      · simpa [same, origins] using ⟨fresh id, owned.nodup id⟩
      · simpa [same] using owned.nodup other
    · by_cases same : other = id
      · simp only [same, ↓reduceIte, origins, List.mem_cons] at member
        simp only [same, progress]
        rcases member with rfl | member
        · simp
        · simpa using fun _ => owned.owner id started member
      · simp only [same, ↓reduceIte] at member
        have apart : started ≠ origin := fun equal => fresh other (equal ▸ member)
        simpa [progress, apart] using owned.owner other started member
  | @finish machine thread origin after idle progress origins made =>
    obtain ⟨gone, distinct⟩ := List.nodup_cons.mp (origins ▸ owned.nodup id)
    have own : pool.machine.progress origin = .running id := owned.owner id origin (by simp [origins])
    refine ⟨fun other => ?_, fun other left member => ?_⟩
    · by_cases same : other = id
      · simpa [same] using distinct
      · simpa [same] using owned.nodup other
    · by_cases same : other = id
      · simp only [same, ↓reduceIte] at member
        have apart : left ≠ origin := fun equal => gone (equal ▸ member)
        simpa [same, progress, apart] using owned.owner id left (by simp [origins, member])
      · simp only [same, ↓reduceIte] at member
        have running := owned.owner other left member
        have apart : left ≠ origin := by
          rintro rfl
          simp only [own, Progress.running.injEq] at running
          exact same running.symm
        simpa [progress, apart] using running

end Pool.Owned
end Pkgset

import Pkgset.Proofs.Compose.Defaults
import Pkgset.Proofs.Compose.Dues

/-!
# Following references to their end

A thread that settles a component follows its references as far as the machine remembers what
they lead to. If it comes to what is not remembered, computing that makes the load lighter. So
it comes to an end, unless it is held up at a default that it is computing, or the references
that it follows lead back to one that it has followed. In that case it follows them for ever:
nothing is in progress on the way, so there is nothing that it could be refused.
-/

namespace Pkgset
open Machine Relation

namespace Machine

/-! ### Travelling -/

/-- A move of a thread that can move. -/
def Moves (before after : Machine × Thread) : Prop :=
  (before.1.standing 0 before.2 = .moving ∨ before.1.standing 0 before.2 = .resting) ∧ after = before.1.step 0 before.2

/-- Some moves of the thread come between two states. -/
def Travels (machine : Machine) (thread : Thread) (machine' : Machine) (thread' : Thread) : Prop :=
  ReflTransGen Moves (machine, thread) (machine', thread')

section
variable {machine machine' machine'' : Machine} {thread thread' thread'' : Thread}

theorem Travels.refl (machine : Machine) (thread : Thread) : machine.Travels thread machine thread := ReflTransGen.refl

theorem Travels.trans (travels : machine.Travels thread machine' thread') (travels' : machine'.Travels thread' machine'' thread'') :
    machine.Travels thread machine'' thread'' := ReflTransGen.trans travels travels'

theorem travels_step (moves : machine.standing 0 thread = .moving ∨ machine.standing 0 thread = .resting) :
    machine.Travels thread (machine.step 0 thread).1 (machine.step 0 thread).2 := ReflTransGen.single ⟨moves, rfl⟩

theorem Travels.keeps (Holds : Machine → Thread → Prop)
    (step : ∀ machine thread, Holds machine thread → Holds (machine.step 0 thread).1 (machine.step 0 thread).2)
    (travels : machine.Travels thread machine' thread') (holds : Holds machine thread) : Holds machine' thread' := by
  have along : ∀ before after : Machine × Thread, ReflTransGen Moves before after →
      Holds before.1 before.2 → Holds after.1 after.2 := by
    intro before after path holds
    induction path with
    | refl => exact holds
    | tail _ moves ih => exact moves.2 ▸ step _ _ ih
  exact along _ _ travels holds

theorem Travels.solitary (travels : machine.Travels thread machine' thread') (solitary : machine.Solitary) : machine'.Solitary :=
  travels.keeps (fun machine _ => machine.Solitary) (fun _ thread solitary => Solitary.step solitary thread) solitary

theorem Travels.runs (travels : machine.Travels thread machine' thread') : machine.Runs thread machine' thread' := by
  have along : ∀ before after : Machine × Thread, ReflTransGen Moves before after → before.1.Runs before.2 after.1 after.2 := by
    intro before after path
    induction path with
    | refl => exact ⟨0, fun _ => rfl⟩
    | tail _ moves ih => exact ih.trans (moves.2 ▸ (advances_step moves.1).runs)
  exact along _ _ travels

/-- From where a thread comes to no end, it has never come to one. -/
theorem Travels.finish_eq_none (travels : machine.Travels thread machine' thread')
    (never : ∀ bound, machine'.finish 0 bound thread' = none) (bound : Nat) : machine.finish 0 bound thread = none := by
  obtain ⟨steps, runs⟩ := travels.runs
  cases finishes : machine.finish 0 bound thread with
  | none => rfl
  | some result =>
    have later := (runs bound).symm.trans (finish_mono (Nat.le_add_right bound steps) finishes)
    rw [never bound] at later
    cases later

/-- Who travels in a circle comes to no end. -/
theorem finish_eq_none_of_circle (circle : TransGen Moves (machine, thread) (machine, thread)) (bound : Nat) :
    machine.finish 0 bound thread = none := by
  obtain ⟨⟨middle, next⟩, ⟨moves, is⟩, back⟩ := TransGen.head'_iff.mp circle
  obtain ⟨steps, runs⟩ := Travels.runs back
  have round (bound : Nat) : machine.finish 0 (bound + steps + 1) thread = machine.finish 0 bound thread := by
    rw [advances_step moves, ← runs bound, ← is]
  induction bound using Nat.strong_induction_on with
  | _ bound ih =>
    cases finishes : machine.finish 0 bound thread with
    | none => rfl
    | some result =>
      -- Either a round fits into the bound, or one round alone would be enough.
      rcases Nat.lt_or_ge steps bound with large | small
      · have less := round (bound - (steps + 1))
        rw [show bound - (steps + 1) + steps + 1 = bound by omega, finishes, ih _ (by omega)] at less
        cases less
      · have enough := finish_mono (show bound ≤ 0 + steps + 1 by omega) finishes
        rw [round 0] at enough
        cases enough

end

/-! ### References that are remembered -/

/-- A reference is answered with a component without anything being computed. -/
inductive Leads (machine : Machine) : Component → Component → Prop where
  | entry {view : View} {name : String} {slot : SlotId} {component : Component} (shows : machine.top? view name = some slot)
      (known : machine.slots slot = .done (.ok component)) : Leads machine (.lazy (.entry view name)) component
  | ready (component : Component) : Leads machine (.lazy (.ready component)) component
  | default {input : String} {cell : CellId} {component : Component}
      (known : machine.progress cell.computation = .done (.ok component)) : Leads machine (.lazy (.default input cell)) component

/-- A thread alone that comes no further: it waits, or it settles a component that leads back
    to itself. -/
def Stuck (machine : Machine) (thread : Thread) : Prop :=
  machine.standing 0 thread = .waiting ∨
    ∃ component next, thread.control = .meet (.settle component next) ∧ TransGen machine.Leads component component

theorem isSome_of_top? {machine : Machine} {view : View} {name : String} {slot : SlotId}
    (shows : machine.top? view name = some slot) :
    ∃ environment, machine.environment? view.env = some environment := by
  obtain ⟨environment, found, _⟩ := Option.bind_eq_some_iff.mp shows
  exact ⟨environment, found⟩

section
variable {machine : Machine} {component component' : Component}

theorem moves_meet (machine : Machine) (demand : Demand) (frames : List Frame) :
    Moves (machine, ⟨.meet demand, frames⟩) (machine.meet ⟨.meet demand, frames⟩ demand) := ⟨Or.inl rfl, rfl⟩

theorem moves_entry {view : View} {name : String} {slot : SlotId} (shows : machine.top? view name = some slot)
    (next : Outcome → Demand) (frames : List Frame) :
    TransGen Moves (machine, ⟨.meet (.settle (.lazy (.entry view name)) next), frames⟩)
      (machine, ⟨.enter slot, .resume (Demand.onward next) :: frames⟩) := by
  obtain ⟨environment, found⟩ := isSome_of_top? shows
  have gets := moves_meet machine (.force (.entry view name) (Demand.onward next)) frames
  have enters := moves_meet machine (.get view name (Demand.onward next)) frames
  simp only [Machine.meet, found] at gets
  simp only [Machine.meet, shows] at enters
  have settles := moves_meet machine (.settle (.lazy (.entry view name)) next) frames
  exact ((TransGen.single settles).tail gets).tail enters

theorem moves_default (machine : Machine) (input : String) (cell : CellId) (next : Outcome → Demand) (frames : List Frame) :
    TransGen Moves (machine, ⟨.meet (.settle (.lazy (.default input cell)) next), frames⟩)
      (machine, ⟨.fill cell, .resume (Demand.onward next) :: frames⟩) :=
  (TransGen.single (moves_meet machine _ frames)).tail
    (moves_meet machine (.force (.default input cell) (Demand.onward next)) frames)

/-- The answer to a reference is settled. -/
theorem moves_answer (machine : Machine) (outcome : Outcome) (next : Outcome → Demand) (frames : List Frame) :
    Moves (machine, ⟨.yield outcome, .resume (Demand.onward next) :: frames⟩)
      (machine, ⟨.meet (Demand.onward next outcome), frames⟩) := ⟨Or.inl rfl, rfl⟩

theorem moves_known_entry {slot : SlotId} {outcome : Outcome} (known : machine.slots slot = .done outcome) (frames : List Frame) :
    Moves (machine, ⟨.enter slot, frames⟩) (machine, ⟨.yield outcome, frames⟩) := by
  refine ⟨Or.inl rfl, ?_⟩
  simp [Machine.step, Machine.enter, known, Thread.turn]

theorem moves_known_default {cell : CellId} {outcome : Outcome} (known : machine.progress cell.computation = .done outcome)
    (frames : List Frame) : Moves (machine, ⟨.fill cell, frames⟩) (machine, ⟨.yield outcome, frames⟩) := by
  have uses : (⟨.fill cell, frames⟩ : Thread).control = .fill cell := rfl
  have idle : machine.isFilling cell ≠ true := by simp [isFilling_iff, known]
  exact ⟨Or.inl (by simp [Machine.standing, idle]), (step_of_filled 0 uses known).symm⟩

/-- A thread that settles a component goes on to where it leads. -/
theorem Leads.moves (leads : machine.Leads component component') (next : Outcome → Demand) (frames : List Frame) :
    TransGen Moves (machine, ⟨.meet (.settle component next), frames⟩) (machine, ⟨.meet (.settle component' next), frames⟩) := by
  cases leads with
  | entry shows known =>
    exact ((moves_entry shows next frames).tail (moves_known_entry known _)).tail (moves_answer machine _ next frames)
  | ready =>
    have follows := TransGen.single (moves_meet machine (.settle (.lazy (.ready component')) next) frames)
    exact follows.tail (moves_meet machine (.force (.ready component') (Demand.onward next)) frames)
  | default known =>
    exact ((moves_default machine _ _ next frames).tail (moves_known_default known _)).tail (moves_answer machine _ next frames)

theorem travels_of_leads (leads : ReflTransGen machine.Leads component component') (next : Outcome → Demand) (frames : List Frame) :
    machine.Travels ⟨.meet (.settle component next), frames⟩ machine ⟨.meet (.settle component' next), frames⟩ := by
  induction leads with
  | refl => exact Travels.refl _ _
  | tail _ leads ih => exact ih.trans (leads.moves next frames).to_reflTransGen

/-- Settling a component that leads back to itself comes to no end. -/
theorem finish_eq_none_of_leads (circle : TransGen machine.Leads component component) (next : Outcome → Demand)
    (frames : List Frame) (bound : Nat) : machine.finish 0 bound ⟨.meet (.settle component next), frames⟩ = none := by
  refine finish_eq_none_of_circle ?_ bound
  have along {last : Component} (path : TransGen machine.Leads component last) :
      TransGen Moves (machine, ⟨.meet (.settle component next), frames⟩) (machine, ⟨.meet (.settle last next), frames⟩) := by
    induction path with
    | single leads => exact leads.moves next frames
    | tail _ leads ih => exact ih.trans (leads.moves next frames)
  exact along circle

/-- A thread that is stuck comes to no end. -/
theorem Stuck.finish_eq_none {thread : Thread} (stuck : machine.Stuck thread) (bound : Nat) :
    machine.finish 0 bound thread = none := by
  rcases stuck with waits | ⟨component, next, meets, circle⟩
  · cases bound with
    | zero => rfl
    | succ bound => simp [Machine.finish, waits]
  · obtain ⟨control, frames⟩ := thread
    obtain rfl : control = .meet (.settle component next) := meets
    exact finish_eq_none_of_leads circle next frames bound

end

end Machine

/-! ### Where references lead -/

mutual

/-- A component, and what is unwrapped from it if it is a reference to a component at hand. -/
def Component.unwrapped : Component → List Component
  | .lazy reference => .lazy reference :: LazyRef.unwrapped reference
  | component => [component]

/-- What is unwrapped from a reference to a component at hand. -/
def LazyRef.unwrapped : LazyRef → List Component
  | .ready component => Component.unwrapped component
  | _ => []

end

theorem Component.mem_unwrapped (component : Component) : component ∈ component.unwrapped := by
  cases component <;> simp [unwrapped]

theorem Component.mem_unwrapped_of_ready {inner : Component} : ∀ component : Component,
    .lazy (.ready inner) ∈ component.unwrapped → inner ∈ component.unwrapped
  | .lazy (.ready component), member => by
    rw [unwrapped, LazyRef.unwrapped] at member ⊢
    rcases List.mem_cons.mp member with same | within
    · cases same
      exact List.mem_cons_of_mem _ inner.mem_unwrapped
    · exact List.mem_cons_of_mem _ (mem_unwrapped_of_ready component within)
  | .lazy (.entry view name), member => by simp [unwrapped, LazyRef.unwrapped] at member
  | .lazy (.default input cell), member => by simp [unwrapped, LazyRef.unwrapped] at member
  | .value data, member => by simp [unwrapped] at member
  | .derivation recipe, member => by simp [unwrapped] at member
  | .scope view, member => by simp [unwrapped] at member
  | .attrs fields, member => by simp [unwrapped] at member

namespace Machine

/-- The components that a machine remembers. -/
def remembered (machine : Machine) : List Component :=
  machine.slotIds.filterMap (fun slot => (machine.slots slot).component?) ++
    machine.cells.filterMap fun entry => entry.2.progress.component?

theorem Leads.mem_unwrapped {machine : Machine} {component first second : Component} (leads : machine.Leads first second)
    (member : first ∈ (component :: machine.remembered).flatMap Component.unwrapped) :
    second ∈ (component :: machine.remembered).flatMap Component.unwrapped := by
  have of_remembered (there : second ∈ machine.remembered) :
      second ∈ (component :: machine.remembered).flatMap Component.unwrapped :=
    List.mem_flatMap.mpr ⟨second, List.mem_cons_of_mem _ there, second.mem_unwrapped⟩
  cases leads with
  | @entry view name slot _ shows known =>
    refine of_remembered (List.mem_append_left _ (List.mem_filterMap.mpr ⟨slot, mem_slotIds_of_top? shows, ?_⟩))
    simp [known, Progress.component?]
  | ready =>
    obtain ⟨outer, there, within⟩ := List.mem_flatMap.mp member
    exact List.mem_flatMap.mpr ⟨outer, there, Component.mem_unwrapped_of_ready outer within⟩
  | @default input cell _ known =>
    cases found : machine.cell? cell with
    | none => simp [Machine.progress, CellId.computation, found] at known
    | some content =>
      have done : content.progress = .done (.ok second) := by simpa [Machine.progress, CellId.computation, found] using known
      obtain ⟨before, after, cells, _⟩ := List.lookup_eq_some_iff.mp found
      refine of_remembered (List.mem_append_right _ (List.mem_filterMap.mpr ⟨(cell, content), by simp [cells], ?_⟩))
      simp [done, Progress.component?]

/-- References lead to a component that leads no further, or back to one that was passed: there
    are finitely many. -/
theorem leads_to_end (machine : Machine) (component : Component) :
    ∃ last, ReflTransGen machine.Leads component last ∧
      (TransGen machine.Leads last last ∨ ∀ other, ¬ machine.Leads last other) := by
  by_contra endless
  push Not at endless
  let passed := {last // ReflTransGen machine.Leads component last}
  have finite : Finite passed := by
    refine Set.Finite.subset (List.finite_toSet ((component :: machine.remembered).flatMap Component.unwrapped)) fun last path => ?_
    induction path with
    | refl => exact List.mem_flatMap.mpr ⟨component, by simp, component.mem_unwrapped⟩
    | tail _ leads ih => exact leads.mem_unwrapped ih
  let later (one other : passed) : Prop := TransGen machine.Leads other.1 one.1
  have : IsTrans passed later := ⟨fun _ _ _ first second => second.trans first⟩
  have : Std.Irrefl later := ⟨fun last circle => (endless last.1 last.2).1 circle⟩
  obtain ⟨last, _, least⟩ :=
    (Finite.wellFounded_of_trans_of_irrefl later).has_min Set.univ ⟨⟨component, .refl⟩, trivial⟩
  obtain ⟨other, leads⟩ := (endless last.1 last.2).2
  exact least ⟨other, last.2.tail leads⟩ trivial (.single leads)

/-! ### Settling -/

/-- What a thread that settles a component comes to first: it settles one that leads back to
    itself, goes on with an outcome, crashes at a default that there is not, waits, or begins a
    definition or default, which makes the load lighter. -/
inductive Settles (machine : Machine) (component : Component) (next : Outcome → Demand) (frames : List Frame) : Prop where
  | circles {last : Component} (circle : TransGen machine.Leads last last)
      (travels : machine.Travels ⟨.meet (.settle component next), frames⟩ machine ⟨.meet (.settle last next), frames⟩)
  | answers (outcome : Outcome) (plain : ∀ found, outcome = .ok found → found.kind ≠ .lazy)
      (travels : machine.Travels ⟨.meet (.settle component next), frames⟩ machine ⟨.meet (next outcome), frames⟩)
  | misses (travels : machine.Travels ⟨.meet (.settle component next), frames⟩ machine
      ⟨.unwind, .resume (Demand.onward next) :: frames⟩)
  | waits {thread : Thread} (waits : machine.standing 0 thread = .waiting)
      (travels : machine.Travels ⟨.meet (.settle component next), frames⟩ machine thread)
  | begins {machine' : Machine} {demand : Demand} {frame : Frame}
      (lighter : Load.Lighter (machine'.load ⟨.meet demand, frame :: .resume (Demand.onward next) :: frames⟩)
        (machine.load ⟨.meet (.settle component next), frames⟩))
      (travels : machine.Travels ⟨.meet (.settle component next), frames⟩ machine'
        ⟨.meet demand, frame :: .resume (Demand.onward next) :: frames⟩)

section
variable {machine : Machine} {component : Component} {next : Outcome → Demand} {frames : List Frame}

/-- An error that answers a reference ends the settling. -/
private theorem Settles.of_error {last : Component} {error : ComposeError}
    (travels : machine.Travels ⟨.meet (.settle last next), frames⟩ machine
      ⟨.yield (.error error), .resume (Demand.onward next) :: frames⟩) :
    machine.Settles last next frames :=
  .answers (.error error) (by simp) (travels.trans (.single (moves_answer machine (.error error) next frames)))

private theorem settles_entry (solitary : machine.Solitary) {view : View} {name : String}
    (stays : ∀ other, ¬ machine.Leads (.lazy (.entry view name)) other) :
    machine.Settles (.lazy (.entry view name)) next frames := by
  cases shows : machine.top? view name with
  | none =>
    have settles := moves_meet machine (.settle (.lazy (.entry view name)) next) frames
    have forces := moves_meet machine (.force (.entry view name) (Demand.onward next)) frames
    cases found : machine.environment? view.env with
    | none =>
      simp only [Machine.meet, found] at forces
      exact .answers (.error (.environmentDropped name)) (by simp) ((ReflTransGen.single settles).tail forces)
    | some environment =>
      have gets := moves_meet machine (.get view name (Demand.onward next)) frames
      simp only [Machine.meet, found] at forces
      simp only [Machine.meet, shows] at gets
      exact .answers (.error (.notFound name)) (by simp) (((ReflTransGen.single settles).tail forces).tail gets)
  | some slot =>
    have enters := (moves_entry shows next frames).to_reflTransGen
    cases known : machine.slots slot with
    | done outcome =>
      cases outcome with
      | ok other => exact absurd (.entry shows known) (stays other)
      | error error => exact .of_error (enters.tail (moves_known_entry known _))
    | running owner =>
      obtain rfl : owner = 0 := solitary slot owner known
      have refused : Moves (machine, ⟨.enter slot, .resume (Demand.onward next) :: frames⟩)
          (machine.enter 0 ⟨.enter slot, .resume (Demand.onward next) :: frames⟩ slot) := ⟨Or.inl rfl, rfl⟩
      simp only [Machine.enter, known, ↓reduceIte] at refused
      exact .of_error (enters.tail refused)
    | pending =>
      have begins : Moves (machine, ⟨.enter slot, .resume (Demand.onward next) :: frames⟩)
          (machine.enter 0 ⟨.enter slot, .resume (Demand.onward next) :: frames⟩ slot) := ⟨Or.inl rfl, rfl⟩
      simp only [Machine.enter, known] at begins
      exact .begins (Load.lighter_of_lt (pendingSlots_setSlot (mem_slotIds_of_top? shows) known 0) _ _) (enters.tail begins)

private theorem settles_default {input : String} {cell : CellId}
    (stays : ∀ other, ¬ machine.Leads (.lazy (.default input cell)) other) :
    machine.Settles (.lazy (.default input cell)) next frames := by
  have uses := (moves_default machine input cell next frames).to_reflTransGen
  have same := Demand.rankAfter_onward (.lazy (.default input cell)) next
  cases found : machine.cell? cell with
  | none =>
    have missed : Moves (machine, ⟨.fill cell, .resume (Demand.onward next) :: frames⟩)
        (machine.fill 0 ⟨.fill cell, .resume (Demand.onward next) :: frames⟩ cell) :=
      ⟨Or.inl (by simp [Machine.standing, isFilling, found]), rfl⟩
    simp only [Machine.fill, found] at missed
    exact .misses (uses.tail missed)
  | some content =>
    obtain ⟨input, env, body, progress⟩ := content
    have known : machine.progress cell.computation = progress := by simp [Machine.progress, CellId.computation, found]
    cases progress with
    | done outcome =>
      cases outcome with
      | ok other => exact absurd (.default known) (stays other)
      | error error => exact .of_error (uses.tail (moves_known_default known _))
    | running owner => exact .waits (by simp [Machine.standing, isFilling, found]) uses
    | pending =>
      have begins : Moves (machine, ⟨.fill cell, .resume (Demand.onward next) :: frames⟩)
          (machine.fill 0 ⟨.fill cell, .resume (Demand.onward next) :: frames⟩ cell) :=
        ⟨Or.inl (by simp [Machine.standing, isFilling, found]), rfl⟩
      simp only [Machine.fill, found] at begins
      refine .begins ?_ (uses.tail begins)
      rw [load, load]
      simp only [Control.due, duesOf_cons, Frame.due, zero_add, ← same]
      exact lighter_begin found rfl _

/-- What a component leads to is settled in its place: it owes the same. -/
private theorem Settles.of_leads {last : Component} (leads : ReflTransGen machine.Leads component last)
    (settles : machine.Settles last next frames) : machine.Settles component next frames := by
  have first := travels_of_leads leads next frames
  cases settles with
  | circles circle travels => exact .circles circle (first.trans travels)
  | answers outcome plain travels => exact .answers outcome plain (first.trans travels)
  | misses travels => exact .misses (first.trans travels)
  | waits waits travels => exact .waits waits (first.trans travels)
  | begins lighter travels => exact .begins lighter (first.trans travels)

theorem settles (solitary : machine.Solitary) (component : Component) (next : Outcome → Demand) (frames : List Frame) :
    machine.Settles component next frames := by
  obtain ⟨last, leads, circle | stays⟩ := machine.leads_to_end component
  · exact .circles circle (travels_of_leads leads next frames)
  · refine .of_leads leads ?_
    have answered (kind : last.kind ≠ .lazy) (meets : machine.meet ⟨.meet (.settle last next), frames⟩ (.settle last next) =
        (machine, ⟨.meet (next (.ok last)), frames⟩)) : machine.Settles last next frames :=
      .answers (.ok last) (fun found same => by cases same; exact kind) (.single (meets ▸ moves_meet machine _ frames))
    cases last with
    | lazy reference =>
      cases reference with
      | entry view name => exact settles_entry solitary stays
      | ready inner => exact absurd (.ready inner) (stays inner)
      | default input cell => exact settles_default stays
    | _ => exact answered (by simp [Component.kind]) rfl

end

/-! ### Coming to an end -/

/-- What a thread with some frames, and more above them, comes to: it returns to the frames with
    an outcome and no more to do than before, crashes through to them, or comes no further. -/
inductive Ends (machine : Machine) (thread : Thread) (base : List Frame) : Prop where
  | returns {machine' : Machine} (outcome : Outcome)
      (atMost : Load.AtMost (machine'.load ⟨.yield outcome, base⟩) (machine.load thread))
      (travels : machine.Travels thread machine' ⟨.yield outcome, base⟩)
  | crashes {machine' : Machine} (travels : machine.Travels thread machine' ⟨.unwind, base⟩)
  | sticks {machine' : Machine} {thread' : Thread} (stuck : machine'.Stuck thread')
      (travels : machine.Travels thread machine' thread')

section
variable {machine machine' : Machine} {thread thread' : Thread} {base : List Frame}

private theorem Ends.after (travels : machine.Travels thread machine' thread')
    (atMost : Load.AtMost (machine'.load thread') (machine.load thread))
    (ends : machine'.Ends thread' base) :
    machine.Ends thread base := by
  cases ends with
  | returns outcome less onwards => exact .returns outcome (less.trans atMost) (travels.trans onwards)
  | crashes onwards => exact .crashes (travels.trans onwards)
  | sticks stuck onwards => exact .sticks stuck (travels.trans onwards)

theorem travels_unwind (machine : Machine) (above base : List Frame) :
    ∃ machine', machine.Travels ⟨.unwind, above ++ base⟩ machine' ⟨.unwind, base⟩ := by
  induction above generalizing machine with
  | nil => exact ⟨machine, Travels.refl _ _⟩
  | cons frame above ih =>
    have moves : machine.Travels ⟨.unwind, frame :: (above ++ base)⟩ (machine.crash (above ++ base) frame).1
        (machine.crash (above ++ base) frame).2 := .single ⟨Or.inl rfl, rfl⟩
    obtain ⟨machine', travels⟩ := ih (machine.crash (above ++ base) frame).1
    have still : (machine.crash (above ++ base) frame).2 = ⟨.unwind, above ++ base⟩ := by cases frame <;> rfl
    exact ⟨machine', moves.trans (still ▸ travels)⟩

/-- A thread that has not come back to its frames keeps them. -/
theorem step_above (machine : Machine) (control : Control) (above base : List Frame)
    (away : above ≠ [] ∨ (∀ outcome, control ≠ .yield outcome) ∧ control ≠ .unwind) :
    ∃ above', (machine.step 0 ⟨control, above ++ base⟩).2.frames = above' ++ base := by
  have grown {result : Thread} (grows : ∃ more, result.frames = more ++ (above ++ base)) :
      ∃ above', result.frames = above' ++ base := by
    obtain ⟨more, grows⟩ := grows
    exact ⟨more ++ above, by simp [grows]⟩
  cases control with
  | meet demand => exact grown (meet_grows machine _ demand)
  | enter slot => exact grown (enter_grows machine 0 _ slot)
  | fill cell => exact grown (fill_grows machine 0 _ cell)
  | blocked slot => exact ⟨above, rfl⟩
  | paused demand => exact ⟨above, rfl⟩
  | yield outcome =>
    cases above with
    | nil => simp at away
    | cons frame above => exact ⟨above, by cases frame <;> rfl⟩
  | unwind =>
    cases above with
    | nil => simp at away
    | cons frame above => exact ⟨above, by cases frame <;> rfl⟩

/-- A thread that does not wait and has not come back to its frames can move. -/
private theorem moves_of_away {control : Control} {above : List Frame}
    (away : above ≠ [] ∨ (∀ outcome, control ≠ .yield outcome) ∧ control ≠ .unwind) (alive : control ≠ .unwind)
    (awake : machine.standing 0 ⟨control, above ++ base⟩ ≠ .waiting) :
    machine.standing 0 ⟨control, above ++ base⟩ = .moving ∨ machine.standing 0 ⟨control, above ++ base⟩ = .resting := by
  cases control with
  | meet demand => exact Or.inl rfl
  | enter slot => exact Or.inl rfl
  | fill cell =>
    simp only [Machine.standing] at awake ⊢
    split at awake
    · exact absurd rfl awake
    next idle => exact Or.inl (if_neg idle)
  | yield outcome =>
    cases above with
    | nil => simp at away
    | cons frame above => exact Or.inl rfl
  | unwind => exact absurd rfl alive
  | blocked slot =>
    simp only [Machine.standing] at awake ⊢
    split at awake
    · exact absurd rfl awake
    next free => exact Or.inl (if_neg free)
  | paused demand => exact Or.inr rfl

/-- To go on with an answer owes less than to settle. -/
private theorem lighter_answer (machine : Machine) (component : Component) (next : Outcome → Demand) (outcome : Outcome)
    (frames : List Frame) :
    Load.Lighter (machine.load ⟨.meet (next outcome), frames⟩) (machine.load ⟨.meet (.settle component next), frames⟩) :=
  lighter_goOn (rfl : (⟨.meet (.settle component next), frames⟩ : Thread).control.due = _) rfl
    ((Demand.rank_le_rankAfter next outcome).trans_lt (lt_add_one _))

/-- A thread alone comes to an end with what is above some frames, unless it is stuck. -/
theorem ends (solitary : machine.Solitary) (control : Control) (above base : List Frame) :
    machine.Ends ⟨control, above ++ base⟩ base := by
  generalize weighs : machine.weight ⟨control, above ++ base⟩ = weight
  induction weight using eases_wf.induction generalizing machine control above with
  | _ weight ih =>
    subst weighs
    -- The load gets lighter on the way to a thread with the same frames below.
    have onwards {machine' : Machine} {thread' : Thread} (travels : machine.Travels ⟨control, above ++ base⟩ machine' thread')
        (below : ∃ above', thread'.frames = above' ++ base)
        (eases : Eases (machine'.weight thread') (machine.weight ⟨control, above ++ base⟩)) :
        machine.Ends ⟨control, above ++ base⟩ base := by
      obtain ⟨control', frames'⟩ := thread'
      obtain ⟨above', rfl⟩ := below
      exact .after travels (atMost_of_eases eases) (ih _ eases (travels.solitary solitary) control' above' rfl)
    by_cases settling : ∃ component next, control = .meet (.settle component next)
    · obtain ⟨component, next, rfl⟩ := settling
      cases settles solitary component next (above ++ base) with
      | circles circle travels => exact .sticks (Or.inr ⟨_, _, rfl, circle⟩) travels
      | answers outcome plain travels =>
        exact onwards travels ⟨above, rfl⟩ (eases_of_lighter (lighter_answer machine component next outcome _))
      | misses travels =>
        obtain ⟨machine', crash⟩ := travels_unwind machine (.resume (Demand.onward next) :: above) base
        exact .crashes (travels.trans crash)
      | waits waits travels => exact .sticks (Or.inl waits) travels
      | @begins machine' demand frame lighter travels =>
        exact onwards travels ⟨frame :: .resume (Demand.onward next) :: above, rfl⟩ (eases_of_lighter lighter)
    · by_cases crashing : control = .unwind
      · subst crashing
        obtain ⟨machine', travels⟩ := travels_unwind machine above base
        exact .crashes travels
      · by_cases back : above = [] ∧ ∃ outcome, control = .yield outcome
        · obtain ⟨rfl, outcome, rfl⟩ := back
          exact .returns outcome (Or.inl rfl) (Travels.refl _ _)
        · have away : above ≠ [] ∨ (∀ outcome, control ≠ .yield outcome) ∧ control ≠ .unwind := by
            by_cases empty : above = []
            · exact Or.inr ⟨fun outcome yields => back ⟨empty, outcome, yields⟩, crashing⟩
            · exact Or.inl empty
          have straight (reference : LazyRef) (next : Outcome → Demand) : control ≠ .meet (.settle (.lazy reference) next) :=
            fun same => settling ⟨_, _, same⟩
          by_cases waits : machine.standing 0 ⟨control, above ++ base⟩ = .waiting
          · exact .sticks (Or.inl waits) (Travels.refl _ _)
          · have moves : machine.standing 0 ⟨control, above ++ base⟩ = .moving ∨
                machine.standing 0 ⟨control, above ++ base⟩ = .resting := moves_of_away away crashing waits
            exact onwards (travels_step moves) (step_above machine control above base away)
              (step_eases solitary moves straight crashing)

end

/-- What a thread comes to that is to go on with an answer: an outcome that is no reference, a
    crash, or no further. -/
inductive Resolves (machine : Machine) (thread : Thread) (next : Outcome → Demand) (frames : List Frame) : Prop where
  | answers {machine' : Machine} (outcome : Outcome) (plain : ∀ found, outcome = .ok found → found.kind ≠ .lazy)
      (travels : machine.Travels thread machine' ⟨.meet (next outcome), frames⟩)
  | crashes {machine' : Machine} (travels : machine.Travels thread machine' ⟨.unwind, frames⟩)
  | sticks {machine' : Machine} {thread' : Thread} (stuck : machine'.Stuck thread') (travels : machine.Travels thread machine' thread')

section
variable {machine machine' : Machine} {thread thread' : Thread} {component : Component} {next : Outcome → Demand}
  {frames : List Frame}

private theorem Resolves.after (travels : machine.Travels thread machine' thread') (resolves : machine'.Resolves thread' next frames) :
    machine.Resolves thread next frames := by
  cases resolves with
  | answers outcome plain onwards => exact .answers outcome plain (travels.trans onwards)
  | crashes onwards => exact .crashes (travels.trans onwards)
  | sticks stuck onwards => exact .sticks stuck (travels.trans onwards)

private theorem Resolves.of_crash (crash : machine.Travels thread machine' ⟨.unwind, .resume (Demand.onward next) :: frames⟩) :
    machine.Resolves thread next frames := by
  obtain ⟨last, onwards⟩ := travels_unwind machine' [.resume (Demand.onward next)] frames
  exact .crashes (crash.trans onwards)

/-- To settle the answer to a reference owes as much as the frame did that goes on with it. -/
private theorem load_onward (machine : Machine) (component : Component) (next : Outcome → Demand) (frames : List Frame) :
    machine.load ⟨.meet (.settle component next), frames⟩ =
      machine.load ⟨.yield (.ok component), .resume (Demand.onward next) :: frames⟩ := by
  simp [load, Control.due, Frame.due, Demand.rankAfter_onward component next]

/-- A thread that settles a component goes on with an outcome that is no reference, or crashes,
    or gets stuck. -/
theorem resolves (solitary : machine.Solitary) (component : Component) (next : Outcome → Demand) (frames : List Frame) :
    machine.Resolves ⟨.meet (.settle component next), frames⟩ next frames := by
  generalize owes : machine.load ⟨.meet (.settle component next), frames⟩ = load
  induction load using Load.lighter_wf.induction generalizing machine component with
  | _ load ih =>
    subst owes
    cases settles solitary component next frames with
    | circles circle travels => exact .sticks (Or.inr ⟨_, _, rfl, circle⟩) travels
    | answers outcome plain travels => exact .answers outcome plain travels
    | misses travels => exact .of_crash travels
    | waits waits travels => exact .sticks (Or.inl waits) travels
    | @begins machine' demand frame lighter travels =>
      cases ends (travels.solitary solitary) (.meet demand) [frame] (.resume (Demand.onward next) :: frames) with
      | @returns last outcome atMost returns =>
        have arrived := (travels.trans returns).trans (.single (moves_answer last outcome next frames))
        cases outcome with
        | error error => exact .answers (.error error) (by simp) arrived
        | ok found =>
          have lighter' : Load.Lighter (last.load ⟨.meet (.settle found next), frames⟩) _ :=
            load_onward last found next frames ▸ atMost.lighter lighter
          exact .after arrived (ih _ lighter' (arrived.solitary solitary) found rfl)
      | crashes crash => exact .of_crash (travels.trans crash)
      | sticks stuck onwards => exact .sticks stuck (travels.trans onwards)

end

section
variable {machine : Machine}

/-- A component is settled on a thread alone in one of three ways. The thread goes on with an
    outcome that is no reference; or it crashes; or it comes no further, since it uses a default
    that is in progress or settles a component that leads back to itself. Then it comes to no
    end, and so it is wherever references lead into such a circle. Likewise, every demand that a
    thread meets alone comes to an end, unless the thread gets stuck so. -/
theorem settle_outcomes (solitary : machine.Solitary) :
    (∀ component next frames,
      ((∃ machine' outcome, machine.Travels ⟨.meet (.settle component next), frames⟩ machine' ⟨.meet (next outcome), frames⟩ ∧
          ∀ found, outcome = .ok found → found.kind ≠ .lazy) ∨
        (∃ machine', machine.Travels ⟨.meet (.settle component next), frames⟩ machine' ⟨.unwind, frames⟩) ∨
        ((∃ machine' thread', machine.Travels ⟨.meet (.settle component next), frames⟩ machine' thread' ∧ machine'.Stuck thread') ∧
          ∀ bound, machine.finish 0 bound ⟨.meet (.settle component next), frames⟩ = none)) ∧
      ∀ last, ReflTransGen machine.Leads component last → TransGen machine.Leads last last →
        ∀ bound, machine.finish 0 bound ⟨.meet (.settle component next), frames⟩ = none) ∧
    ∀ demand, (∃ bound result, machine.finish 0 bound (.start demand) = some result) ∨
      (∃ machine' thread', machine.Travels (.start demand) machine' thread' ∧ machine'.Stuck thread') ∧
        ∀ bound, machine.finish 0 bound (.start demand) = none := by
  refine ⟨fun component next frames => ⟨?_, fun last leads circle => ?_⟩, fun demand => ?_⟩
  · cases resolves solitary component next frames with
    | answers outcome plain travels => exact Or.inl ⟨_, outcome, travels, plain⟩
    | crashes travels => exact Or.inr (Or.inl ⟨_, travels⟩)
    | sticks stuck travels => exact Or.inr (Or.inr ⟨⟨_, _, travels, stuck⟩, travels.finish_eq_none stuck.finish_eq_none⟩)
  · exact (travels_of_leads leads next frames).finish_eq_none (finish_eq_none_of_leads circle next frames)
  · cases ends solitary (.meet demand) [] [] with
    | returns outcome atMost travels =>
      obtain ⟨steps, runs⟩ := travels.runs
      exact Or.inl ⟨1 + steps, _, runs 1⟩
    | crashes travels =>
      obtain ⟨steps, runs⟩ := travels.runs
      exact Or.inl ⟨1 + steps, _, runs 1⟩
    | sticks stuck travels => exact Or.inr ⟨⟨_, _, travels, stuck⟩, travels.finish_eq_none stuck.finish_eq_none⟩

end

end Machine

/-! ### An entry that refers to itself

Entries may refer to each other in circles, as long as nobody follows the references. -/

namespace Reflexive

/-- An entry that is a reference to itself, and one that is a reference to a text. -/
def environment : Environment :=
  .compose "reflexive"
    ⟨[("pointer", (Descriptor.new "pointer" .library fun inputs => inputs.lazy "text").requires "text"),
      ("self", (Descriptor.new "self" .library fun inputs => inputs.lazy "self").requires "self"),
      ("text", .new "text" .library fun _ => .pure (.text "found"))]⟩ []

/-- The machine before anything is computed. -/
def machine : Machine := { Machine.empty with environments := [some environment] }

/-- The reference that an entry is to itself. -/
def self : Component := .lazy (.entry (.whole 1) "self")

/-- The machine that remembers the reference. -/
def later : Machine := machine.setSlot ⟨1, "self", 0⟩ (.done (.ok self))

theorem solitary : later.Solitary := by
  intro slot owner running
  simp only [later, slots_setSlot] at running
  split at running <;> cases running

theorem leads : later.Leads self self := .entry rfl rfl

/-- Asking for a derivation under the name of the reference is no evaluation cycle: the thread
    comes to the reference, with nothing in progress, and follows it for ever. -/
theorem follows_forever :
    (∃ machine' next, machine.Travels (.start (.derivation (.whole 1) "self")) machine' ⟨.meet (.settle self next), []⟩ ∧
      TransGen machine'.Leads self self) ∧
      ∀ bound, machine.finish 0 bound (.start (.derivation (.whole 1) "self")) = none := by
  obtain ⟨machine', next, travels, circle⟩ : ∃ machine' next,
      machine.Travels (.start (.derivation (.whole 1) "self")) machine' ⟨.meet (.settle self next), []⟩ ∧
        TransGen machine'.Leads self self := by
    refine ⟨_, _, (((((travels_step (Or.inl rfl)).trans (travels_step (Or.inl rfl))).trans (travels_step (Or.inl rfl))).trans
      (travels_step (Or.inl rfl))).trans (travels_step (Or.inl rfl))).trans (travels_step (Or.inl rfl)), ?_⟩
    exact .single (.entry rfl rfl)
  exact ⟨⟨machine', next, travels, circle⟩, travels.finish_eq_none (finish_eq_none_of_leads circle next [])⟩

/-- Where the reference is remembered, the text is found at the end of a reference, and the
    reference that leads back to itself is followed for ever. -/
theorem settle_outcomes_reflexive :
    (∃ bound result, later.finish 0 bound (.start (.settled (.get (.whole 1) "pointer" .done))) = some result) ∧
      ∀ bound, later.finish 0 bound ⟨.meet (.settle self .done), []⟩ = none := by
  obtain ⟨settled, others⟩ := settle_outcomes solitary
  refine ⟨?_, (settled self .done []).2 self .refl (.single leads)⟩
  rcases others (.settled (.get (.whole 1) "pointer" .done)) with ends | ⟨_, never⟩
  · exact ends
  · cases never 40

end Reflexive
end Pkgset

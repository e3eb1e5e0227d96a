import Pkgset.Proofs.Compose.Settling

/-!
# Definitions that ask for entries directly

A direct demand asks for entries by their names only: it follows no references, and the
defaults that it uses are its own and ask for no entries. A thread in direct computations never
comes back to a default that it is computing: above the frame of a default there are only frames
of defaults that were made within it. What it may come back to are definitions.
-/

namespace Pkgset
open Machine Relation

namespace Demand

/-- An error, or a component that fits. -/
def Fits (fit : Component → Prop) : Outcome → Prop
  | .ok component => fit component
  | .error _ => True

/-- A demand that comes to a fitting outcome if its answers are fitting: it follows no references,
    panics or asks for entries only if it may, uses given default cells and those that it makes, and
    makes defaults that are direct themselves and may not ask for entries. -/
def Direct (fit : Component → Prop) (panics : Prop) : Prop → (CellId → Prop) → Demand → Prop
  | _, _, .done outcome => Fits fit outcome
  | _, _, .panic => panics
  | asks, given, .get _ _ next => asks ∧ ∀ outcome, Fits fit outcome → Direct fit panics asks given (next outcome)
  | asks, given, .prior _ _ _ next =>
    asks ∧ ∀ outcome, Fits fit outcome → Direct fit panics asks given (next outcome)
  | asks, given, .has _ _ next => ∀ answer, Direct fit panics asks given (next answer)
  | asks, given, .hasPrior _ _ _ next => ∀ answer, Direct fit panics asks given (next answer)
  | asks, given, .force (.default _ cell) next =>
    given cell ∧ ∀ outcome, Fits fit outcome → Direct fit panics asks given (next outcome)
  | _, _, .force _ _ => False
  | _, _, .settle (.lazy _) _ => False
  | asks, given, .settle component next => Direct fit panics asks given (next (.ok component))
  | asks, given, .allot _ _ body next =>
    Direct fit panics False (fun _ => False) body ∧
      ∀ cell, Direct fit panics asks (fun other => given other ∨ other = cell) (next cell)
  | asks, given, .mark _ next => Direct fit panics asks given next
  | asks, given, .pause next => Direct fit panics asks given next

variable {fit : Component → Prop} {panics asks : Prop} {given given' : CellId → Prop}

theorem direct_fail (error : ComposeError) : (fail error).Direct fit panics asks given := trivial

/-- A demand that may know of more cells is direct all the more. -/
theorem Direct.mono {demand : Demand} (more : ∀ cell, given cell → given' cell) (direct : demand.Direct fit panics asks given) :
    demand.Direct fit panics asks given' := by
  induction demand generalizing given given' with
  | done outcome => exact direct
  | panic => exact direct
  | get view name next ih => exact ⟨direct.1, fun outcome fits => ih outcome more (direct.2 outcome fits)⟩
  | prior env name layer next ih => exact ⟨direct.1, fun outcome fits => ih outcome more (direct.2 outcome fits)⟩
  | has view name next ih => exact fun answer => ih answer more (direct answer)
  | hasPrior env name layer next ih => exact fun answer => ih answer more (direct answer)
  | force reference next ih =>
    cases reference with
    | default input cell => exact ⟨more cell direct.1, fun outcome fits => ih outcome more (direct.2 outcome fits)⟩
    | entry view name => exact direct.elim
    | ready component => exact direct.elim
  | settle component next ih =>
    cases component with
    | lazy reference => exact direct.elim
    | _ => exact ih _ more direct
  | allot input view body next ihBody ih =>
    exact ⟨direct.1, fun cell => ih cell (fun other known => known.imp_left (more other)) (direct.2 cell)⟩
  | mark label next ih => exact ih more direct
  | pause next ih => exact ih more direct

theorem Direct.bind {f : Outcome → Demand} {demand : Demand}
    (onwards : ∀ outcome, Fits fit outcome → (f outcome).Direct fit panics asks given)
    (direct : demand.Direct fit panics asks given) :
    (demand.bind f).Direct fit panics asks given := by
  induction demand generalizing given with
  | done outcome => exact onwards outcome direct
  | panic => exact direct
  | get view name next ih => exact ⟨direct.1, fun outcome fits => ih outcome onwards (direct.2 outcome fits)⟩
  | prior env name layer next ih => exact ⟨direct.1, fun outcome fits => ih outcome onwards (direct.2 outcome fits)⟩
  | has view name next ih => exact fun answer => ih answer onwards (direct answer)
  | hasPrior env name layer next ih => exact fun answer => ih answer onwards (direct answer)
  | force reference next ih =>
    cases reference with
    | default input cell => exact ⟨direct.1, fun outcome fits => ih outcome onwards (direct.2 outcome fits)⟩
    | entry view name => exact direct.elim
    | ready component => exact direct.elim
  | settle component next ih =>
    cases component with
    | lazy reference => exact direct.elim
    | _ => exact ih _ onwards direct
  | allot input view body next ihBody ih =>
    refine ⟨direct.1, fun cell => ih cell (fun outcome fits => ?_) (direct.2 cell)⟩
    exact (onwards outcome fits).mono fun _ => Or.inl
  | mark label next ih => exact ih onwards direct
  | pause next ih => exact ih onwards direct

theorem Direct.andThen {demand : Demand} {f : Component → Demand} (direct : demand.Direct fit panics asks given)
    (onwards : ∀ component, fit component → (f component).Direct fit panics asks given) :
    (demand.andThen f).Direct fit panics asks given := by
  refine direct.bind fun outcome fits => ?_
  cases outcome with
  | ok component => exact onwards component fits
  | error error => exact direct_fail error

end Demand
/-! ### Definitions -/

/-- Bindings to components that fit and to given cells. -/
structure Inputs.Suits (fit : Component → Prop) (given : CellId → Prop) (inputs : Inputs) : Prop where
  ready : ∀ input component, Dict.get? inputs.bindings input = some (.ready component) → fit component
  default : ∀ input cell, Dict.get? inputs.bindings input = some (.default cell) → given cell

theorem Inputs.Suits.get {fit : Component → Prop} {panics : Prop} {given : CellId → Prop} {inputs : Inputs}
    (suits : inputs.Suits fit given)
    (input : String) : (inputs.get input).Direct fit panics True given := by
  unfold Inputs.get
  split
  next => exact Demand.direct_fail _
  next => exact ⟨trivial, fun outcome fits => fits⟩
  next component found => exact suits.ready input component found
  next cell found => exact ⟨suits.default input cell found, fun outcome fits => fits⟩

/-- The constructor of a call site is direct for suitable inputs, its defaults are direct and ask
    for no entries, and its pins fit. -/
structure CallSite.Direct (fit : Component → Prop) (panics : Prop) (site : CallSite) : Prop where
  construct : ∀ (inputs : Inputs) given, inputs.Suits fit given → (site.descriptor.construct inputs).Direct fit panics True given
  defaults : ∀ input default, Dict.get? site.descriptor.defaults input = some default →
    ∀ view, (default view).Direct fit panics False fun _ => False
  pins : ∀ input component, Dict.get? site.pins input = some (.value component) → fit component

/-- A definition asks for entries by their names only, and what it comes to fits. -/
def Definition.Direct (fit : Component → Prop) (panics : Prop) : Definition → Prop
  | .call site => site.Direct fit panics
  | .thunk compute => ∀ scope, (compute scope).Direct fit panics True fun _ => False
  | .value component => fit component
  | .aliasOf _ => True

namespace CallSite
variable {fit : Component → Prop} {panics : Prop} {given : CellId → Prop} {site : CallSite}

private theorem Suits.insert {component : String} {view : View} {bindings : Dict Binding}
    (suits : Inputs.Suits fit given ⟨component, view, bindings⟩) (input : String) {binding : Binding}
    (ready : ∀ component, binding = .ready component → fit component) (default : ∀ cell, binding = .default cell → given cell) :
    Inputs.Suits fit given ⟨component, view, Dict.insert bindings input binding⟩ := by
  constructor
  · intro other component found
    rw [Dict.get?_insert] at found
    split at found
    · exact ready component (Option.some.inj found)
    · exact suits.ready other component found
  · intro other cell found
    rw [Dict.get?_insert] at found
    split at found
    · exact default cell (Option.some.inj found)
    · exact suits.default other cell found

private theorem Direct.bindInputs (direct : site.Direct fit panics) (view : View) {next : Except ComposeError Inputs → Demand}
    (onwards : ∀ (inputs : Inputs) given, inputs.Suits fit given → (next (.ok inputs)).Direct fit panics True given)
    (fails : ∀ error given, (next (.error error)).Direct fit panics True given) (inputs : List String) :
    ∀ (bindings : Dict Binding) given, Inputs.Suits fit given ⟨site.descriptor.name, view, bindings⟩ →
      (site.bindInputs view next inputs bindings).Direct fit panics True given := by
  induction inputs with
  | nil => exact fun bindings given suits => onwards _ given suits
  | cons input rest ih =>
    intro bindings given suits
    rw [CallSite.bindInputs]
    split
    next component pinned =>
      refine ih _ given (Suits.insert suits input (fun other same => ?_) (by simp))
      cases same
      exact direct.pins input component pinned
    next =>
      intro answer
      cases answer with
      | true => exact ih _ given (Suits.insert suits input (by simp) (by simp))
      | false =>
        dsimp only
        split
        next default found =>
          refine ⟨direct.defaults input default found view, fun cell => ih _ _ ?_⟩
          have more : Inputs.Suits fit (fun other => given other ∨ other = cell) ⟨site.descriptor.name, view, bindings⟩ :=
            ⟨suits.ready, fun input other found => Or.inl (suits.default input other found)⟩
          refine Suits.insert more input (by simp) fun other same => ?_
          cases same
          exact Or.inr rfl
        next => exact fails _ given

theorem Direct.call (direct : site.Direct fit panics) (view : View) (given : CellId → Prop) :
    (site.call view).Direct fit panics True given := by
  unfold CallSite.call CallSite.resolve
  split
  next => exact Demand.direct_fail _
  next =>
    refine direct.bindInputs view direct.construct (fun error given => Demand.direct_fail error) _ _ given ?_
    constructor <;> (intro _ _ found; cases found)

end CallSite

theorem Definition.Direct.demand {fit : Component → Prop} {panics : Prop} {definition : Definition}
    (direct : definition.Direct fit panics) (scope : Scope) :
    (definition.demand scope).Direct fit panics True fun _ => False := by
  cases definition with
  | call site => exact CallSite.Direct.call direct _ _
  | thunk compute => exact direct scope
  | value component => exact direct
  | aliasOf target => exact ⟨trivial, fun outcome fits => fits⟩

def World.Direct (fit : Component → Prop) (panics : Prop) (world : World) : Prop :=
  ∀ env environment, world env = some environment → environment.Every (Definition.Direct fit panics)

namespace Machine

theorem definition_direct {fit : Component → Prop} {panics : Prop} {machine : Machine}
    (direct : World.Direct fit panics machine.environment?) (slot : SlotId) :
    (machine.definition slot).Direct fit panics True fun _ => False := by
  unfold Machine.definition
  split
  next found at' =>
    obtain ⟨environment, here, member⟩ := Option.bind_eq_some_iff.mp at'
    exact (direct slot.env environment here slot.name found (List.mem_of_find?_eq_some member)).demand _
  next => exact Demand.direct_fail _

/-! ### A thread in direct computations -/

/-- What is remembered fits, and the bodies of defaults are direct and ask for no entries. -/
structure Plain (fit : Component → Prop) (panics : Prop) (machine : Machine) : Prop where
  known : ∀ origin outcome, machine.progress origin = .done outcome → Demand.Fits fit outcome
  bodies : ∀ id cell, machine.cell? id = some cell → cell.body.Direct fit panics False fun _ => False

/-- A cell that a computation has made. -/
def Own (machine : Machine) (origin : Origin) (cell : CellId) : Prop := cell.origin = origin ∧ machine.Present cell

end Machine

/-- No default is made by its own computation. -/
theorem CellId.origin_ne (cell : CellId) : cell.origin ≠ cell.computation := by
  intro same
  have larger := congrArg sizeOf same
  simp only [CellId.computation, Origin.cell.sizeOf_spec] at larger
  omega

/-- Whether a computation may ask for entries: all but those of defaults. -/
def Origin.Asks : Origin → Prop
  | .outside => True
  | .slot _ => True
  | .cell _ _ => False

namespace Machine

/-- The frames of a thread that is in a computation. What resumes it is direct; only what may ask
    for entries has a definition above it, and only what has made a default has that above it. -/
inductive Piles (fit : Component → Prop) (panics : Prop) (machine : Machine) : Origin → List Frame → Prop where
  | nil : Piles fit panics machine .outside []
  | resume {origin : Origin} {frames : List Frame} {next : Outcome → Demand}
      (direct : ∀ outcome, Demand.Fits fit outcome → (next outcome).Direct fit panics origin.Asks (machine.Own origin))
      (below : Piles fit panics machine origin frames) : Piles fit panics machine origin (.resume next :: frames)
  | slot (slot : SlotId) {origin : Origin} {frames : List Frame} (asks : origin.Asks)
      (below : Piles fit panics machine origin frames) :
      Piles fit panics machine (.slot slot) (.slot slot :: frames)
  | cell (cell : CellId) {frames : List Frame} (below : Piles fit panics machine cell.origin frames) :
      Piles fit panics machine cell.computation (.cell cell :: frames)

/-- What a thread that is in a computation is about to do. -/
def Goes (fit : Component → Prop) (panics : Prop) (machine : Machine) (origin : Origin) : Control → Prop
  | .meet demand => demand.Direct fit panics origin.Asks (machine.Own origin)
  | .paused demand => demand.Direct fit panics origin.Asks (machine.Own origin)
  | .enter _ => origin.Asks
  | .fill cell => machine.Own origin cell
  | .yield outcome => Demand.Fits fit outcome
  | .unwind => panics
  | .blocked _ => False

section
variable {fit : Component → Prop} {panics : Prop} {machine machine' : Machine} {origin : Origin} {frames : List Frame}

theorem Own.grow (grows : machine.Grows machine') {cell : CellId} (own : machine.Own origin cell) : machine'.Own origin cell :=
  ⟨own.1, grows cell own.2⟩

theorem Piles.grow (grows : machine.Grows machine')
    (piles : machine.Piles fit panics origin frames) :
    machine'.Piles fit panics origin frames := by
  induction piles with
  | nil => exact .nil
  | resume direct below ih => exact .resume (fun outcome fits => (direct outcome fits).mono fun _ => Own.grow grows) ih
  | slot slot asks below ih => exact .slot slot asks ih
  | cell cell below ih => exact .cell cell ih

theorem Piles.origin_eq (piles : machine.Piles fit panics origin frames) (control : Control) :
    (⟨control, frames⟩ : Thread).origin = origin := by
  induction piles with
  | nil => rfl
  | resume direct below ih => exact ih
  | slot slot asks below => rfl
  | cell cell below => rfl

private theorem Piles.mem_or_outside (piles : machine.Piles fit panics origin frames) :
    origin = .outside ∨ origin ∈ frames.filterMap Frame.origin? := by
  induction piles with
  | nil => exact Or.inl rfl
  | resume direct below ih => simpa [List.filterMap_cons] using ih
  | slot slot asks below => simp
  | cell cell below => simp

/-- What has made a default that the thread is in has a frame, too. -/
private theorem Piles.maker (piles : machine.Piles fit panics origin frames) {cell : CellId}
    (member : cell.computation ∈ frames.filterMap Frame.origin?) :
    cell.origin = .outside ∨ cell.origin ∈ frames.filterMap Frame.origin? := by
  induction piles with
  | nil => simp at member
  | resume direct below ih => simpa [List.filterMap_cons] using ih (by simpa [List.filterMap_cons] using member)
  | slot slot asks below ih =>
    rw [List.filterMap_cons_some (Frame.origin?_slot slot)] at member ⊢
    have lower := (List.mem_cons.mp member).resolve_left (by simp [CellId.computation])
    exact (ih lower).imp_right (List.mem_cons_of_mem _)
  | @cell other frames below ih =>
    rw [List.filterMap_cons_some (Frame.origin?_cell other)] at member ⊢
    rcases List.mem_cons.mp member with same | lower
    · rw [CellId.computation_inj.mp same]
      exact below.mem_or_outside.imp_right (List.mem_cons_of_mem _)
    · exact (ih lower).imp_right (List.mem_cons_of_mem _)

private theorem Piles.apart_of_pushed (below : machine.Piles fit panics origin frames) {cell : CellId}
    (inside : cell.origin ≠ .outside) (once : cell.origin ∉ frames.filterMap Frame.origin?) :
    cell.computation ∉ cell.origin :: frames.filterMap Frame.origin? := by
  intro member
  -- The default is not what has made it, so it lies further out, and its maker once more below that.
  have lower := (List.mem_cons.mp member).resolve_left cell.origin_ne.symm
  rcases below.maker lower with outside | within
  · exact inside outside
  · exact once within

/-- A default that the innermost computation has made is not in progress. -/
theorem Piles.apart (piles : machine.Piles fit panics origin frames) (nodup : (frames.filterMap Frame.origin?).Nodup)
    {cell : CellId} (own : cell.origin = origin) : cell.computation ∉ frames.filterMap Frame.origin? := by
  induction piles with
  | nil => simp
  | resume direct below ih => simpa [List.filterMap_cons] using ih (by simpa [List.filterMap_cons] using nodup) own
  | slot slot asks below =>
    rw [List.filterMap_cons_some (Frame.origin?_slot slot), ← own] at nodup ⊢
    exact below.apart_of_pushed (by simp [own]) (List.nodup_cons.mp nodup).1
  | cell other below =>
    rw [List.filterMap_cons_some (Frame.origin?_cell other), ← own] at nodup ⊢
    exact below.apart_of_pushed (by simp [own, CellId.computation]) (List.nodup_cons.mp nodup).1

/-- What is remembered, and how a thread stands, if all computations are direct. -/
def Proper (fit : Component → Prop) (panics : Prop) (machine : Machine) (thread : Thread) : Prop :=
  machine.Plain fit panics ∧ ∃ origin, machine.Piles fit panics origin thread.frames ∧ machine.Goes fit panics origin thread.control

theorem Plain.setSlot (plain : machine.Plain fit panics) (slot : SlotId) {progress : Progress}
    (fits : ∀ outcome, progress = .done outcome → Demand.Fits fit outcome) : (machine.setSlot slot progress).Plain fit panics := by
  refine ⟨fun origin outcome done => ?_, plain.bodies⟩
  rw [progress_setSlot] at done
  split at done
  · exact fits outcome done
  · exact plain.known origin outcome done

theorem Plain.publish (plain : machine.Plain fit panics) (slot : SlotId) {outcome : Outcome} (fits : Demand.Fits fit outcome) :
    (machine.publish slot outcome).Plain fit panics := by
  refine ⟨fun origin answer done => ?_, plain.bodies⟩
  rw [progress_publish] at done
  split at done
  · cases done
    exact fits
  · exact plain.known origin answer done

theorem Plain.setCell (plain : machine.Plain fit panics) (cell : CellId) {progress : Progress}
    (fits : ∀ outcome, progress = .done outcome → Demand.Fits fit outcome) : (machine.setCell cell progress).Plain fit panics := by
  refine ⟨fun origin outcome done => ?_, fun id content found => ?_⟩
  · rw [progress_setCell] at done
    split at done
    · exact fits outcome done
    · exact plain.known origin outcome done
  · rw [cell?_setCell] at found
    split at found
    · obtain ⟨before, there, rfl⟩ := Option.map_eq_some_iff.mp found
      exact plain.bodies cell before there
    · exact plain.bodies id content found

theorem Plain.allot (plain : machine.Plain fit panics) (origin : Origin) (input : String) (view : View) {body : Demand}
    (direct : body.Direct fit panics False fun _ => False) : (machine.allot origin input view body).1.Plain fit panics := by
  refine ⟨fun other outcome done => plain.known other outcome (by simpa using done), fun id cell found => ?_⟩
  rw [cell?_allot, Option.or_eq_some_iff] at found
  rcases found with old | ⟨_, new⟩
  · exact plain.bodies id cell old
  · simp only [Option.ite_none_right_eq_some, Option.some.injEq] at new
    obtain ⟨_, rfl⟩ := new
    exact direct

private theorem meet_proper (plain : machine.Plain fit panics) (piles : machine.Piles fit panics origin frames) {demand : Demand}
    (direct : demand.Direct fit panics origin.Asks (machine.Own origin)) :
    (machine.meet ⟨.meet demand, frames⟩ demand).1.Proper fit panics (machine.meet ⟨.meet demand, frames⟩ demand).2 := by
  fun_cases Machine.meet machine ⟨.meet demand, frames⟩ demand with
  | case1 outcome => exact ⟨plain, origin, piles, direct⟩
  | case2 => exact ⟨plain, origin, piles, direct⟩
  | case3 view name next slot shows | case5 env name layer next slot shows =>
    exact ⟨plain, origin, .resume direct.2 piles, direct.1⟩
  | case4 view name next hidden | case6 env name layer next hidden =>
    exact ⟨plain, origin, piles, direct.2 (.error _) trivial⟩
  | case7 view name next | case8 env name layer next => exact ⟨plain, origin, piles, direct _⟩
  | case9 view name next environment found => exact direct.elim
  | case10 view name next dropped => exact direct.elim
  | case11 component next => exact direct.elim
  | case12 input cell next => exact ⟨plain, origin, .resume direct.2 piles, direct.1⟩
  | case13 reference next => exact direct.elim
  | case14 component next other =>
    refine ⟨plain, origin, piles, ?_⟩
    cases component with
    | lazy reference => exact direct.elim
    | _ => exact direct
  | case15 input view body next larger cell made =>
    cases made
    obtain ⟨grows, present⟩ := present_allot machine (⟨.meet (.allot input view body next), frames⟩ : Thread).origin input view body
    rw [piles.origin_eq] at grows present ⊢
    refine ⟨plain.allot origin input view direct.1, origin, piles.grow grows, ?_⟩
    refine (direct.2 _).mono fun cell known => ?_
    rcases known with own | rfl
    · exact own.grow grows
    · exact ⟨rfl, present⟩
  | case16 label next =>
    have grows : machine.Grows { machine with journal := machine.journal ++ [label] } := grows_of_cells rfl
    exact ⟨⟨fun origin outcome done => plain.known origin outcome (by simpa using done), plain.bodies⟩, origin,
      piles.grow grows, direct.mono fun _ => Own.grow grows⟩
  | case17 next => exact ⟨plain, origin, piles, direct⟩

private theorem enter_proper (world : World.Direct fit panics machine.environment?) (solitary : machine.Solitary)
    (plain : machine.Plain fit panics)
    (piles : machine.Piles fit panics origin frames) (asks : origin.Asks) (slot : SlotId) :
    (machine.enter 0 ⟨.enter slot, frames⟩ slot).1.Proper fit panics (machine.enter 0 ⟨.enter slot, frames⟩ slot).2 := by
  fun_cases Machine.enter machine 0 ⟨.enter slot, frames⟩ slot with
  | case1 outcome known => exact ⟨plain, origin, piles, plain.known (.slot slot) outcome known⟩
  | case2 pending =>
    have grows : machine.Grows (machine.setSlot slot (.running 0)) := grows_of_cells rfl
    refine ⟨plain.setSlot slot (by simp), .slot slot, .slot slot asks (piles.grow grows), ?_⟩
    exact (definition_direct world slot).mono fun _ => False.elim
  | case3 own => exact ⟨plain, origin, piles, trivial⟩
  | case4 owner running other => exact absurd (solitary slot owner running) other
  | case5 owner running other => exact absurd (solitary slot owner running) other

private theorem fill_proper (plain : machine.Plain fit panics) (piles : machine.Piles fit panics origin frames) {cell : CellId}
    (own : machine.Own origin cell) :
    (machine.fill 0 ⟨.fill cell, frames⟩ cell).1.Proper fit panics (machine.fill 0 ⟨.fill cell, frames⟩ cell).2 := by
  obtain ⟨made, present⟩ := own
  unfold Machine.fill
  split
  next missing => simp [Present, missing] at present
  next content found =>
    have known : machine.progress cell.computation = content.progress := by simp [Machine.progress, CellId.computation, found]
    split
    next outcome done => exact ⟨plain, origin, piles, plain.known _ outcome (known.trans done)⟩
    next owner running => exact ⟨plain, origin, piles, made, present⟩
    next pending =>
      have grows := grows_setCell machine cell (.running 0)
      refine ⟨plain.setCell cell (by simp), cell.computation, .cell cell (made ▸ piles.grow grows), ?_⟩
      unfold Machine.cellDemand
      split
      · exact (plain.bodies cell content found).mono fun _ => False.elim
      · exact trivial

private theorem handOver_proper (plain : machine.Plain fit panics) {frame : Frame}
    (piles : machine.Piles fit panics origin (frame :: frames))
    {outcome : Outcome} (fits : Demand.Fits fit outcome) :
    (machine.handOver outcome frames frame).1.Proper fit panics (machine.handOver outcome frames frame).2 := by
  cases piles with
  | resume direct below => exact ⟨plain, origin, below, direct outcome fits⟩
  | slot slot asks below =>
    have grows : machine.Grows (machine.publish slot outcome) := grows_of_cells rfl
    exact ⟨plain.publish slot fits, _, below.grow grows, fits⟩
  | cell cell below =>
    refine ⟨plain.setCell cell fun other same => ?_, _, below.grow (grows_setCell machine cell _), fits⟩
    cases same
    exact fits

private theorem crash_proper (plain : machine.Plain fit panics) {frame : Frame}
    (piles : machine.Piles fit panics origin (frame :: frames))
    (crashing : panics) : (machine.crash frames frame).1.Proper fit panics (machine.crash frames frame).2 := by
  cases piles with
  | resume direct below => exact ⟨plain, origin, below, crashing⟩
  | slot slot asks below =>
    have grows : machine.Grows (machine.publish slot (.error (crashed slot))) := grows_of_cells rfl
    exact ⟨plain.publish slot trivial, _, below.grow grows, crashing⟩
  | cell cell below =>
    exact ⟨plain.setCell cell (by simp), _, below.grow (grows_setCell machine cell _), crashing⟩

/-- A move of a thread in direct computations leaves it so. -/
theorem Proper.step {thread : Thread} (proper : machine.Proper fit panics thread)
    (world : World.Direct fit panics machine.environment?)
    (solitary : machine.Solitary) : (machine.step 0 thread).1.Proper fit panics (machine.step 0 thread).2 := by
  obtain ⟨control, frames⟩ := thread
  obtain ⟨plain, origin, piles, goes⟩ := proper
  cases control with
  | meet demand => exact meet_proper plain piles goes
  | enter slot => exact enter_proper world solitary plain piles goes slot
  | fill cell => exact fill_proper plain piles goes
  | yield outcome =>
    cases frames with
    | nil => exact ⟨plain, origin, piles, goes⟩
    | cons frame frames => exact handOver_proper plain piles goes
  | unwind =>
    cases frames with
    | nil => exact ⟨plain, origin, piles, goes⟩
    | cons frame frames => exact crash_proper plain piles goes
  | blocked slot => exact goes.elim
  | paused demand => exact ⟨plain, origin, piles, goes⟩

end

end Machine

/-! ### The definitions that are tried -/

/-- Whatever was tried, and whatever a thread enters, is a definition of an environment. -/
structure Machine.Named (machine : Machine) (thread : Thread) : Prop where
  tried : ∀ slot, machine.slots slot ≠ .pending → slot ∈ machine.slotIds
  enters : ∀ slot, thread.control = .enter slot ∨ thread.control = .blocked slot → slot ∈ machine.slotIds

namespace Machine

/-- A thread only ever enters what a lookup has shown. -/
private theorem step_enters (machine : Machine) (id : ThreadId) (thread : Thread) (slot : SlotId)
    (enters : (machine.step id thread).2.control = .enter slot ∨ (machine.step id thread).2.control = .blocked slot) :
    slot ∈ machine.slotIds ∨ thread.control = .enter slot ∨ thread.control = .blocked slot := by
  unfold Machine.step at enters
  cases control : thread.control with
  | meet demand =>
    simp only [control] at enters
    fun_cases Machine.meet machine thread demand with
    | case3 view name next shown shows =>
      obtain rfl : shown = slot := by simpa [Machine.meet, shows, Thread.push] using enters
      exact Or.inl (mem_slotIds_of_top? shows)
    | case5 env name layer next shown shows =>
      obtain rfl : shown = slot := by simpa [Machine.meet, shows, Thread.push] using enters
      exact Or.inl (mem_slotIds_of_below? shows)
    | _ => simp_all [Machine.meet, Thread.push, Thread.turn]
  | enter other =>
    simp only [control] at enters
    fun_cases Machine.enter machine id thread other with
    | case5 owner running apart clear =>
      obtain rfl : other = slot := by simpa [Machine.enter, running, apart, clear, Thread.turn] using enters
      exact Or.inr (Or.inl rfl)
    | _ => simp_all [Machine.enter, Thread.push, Thread.turn]
  | fill cell =>
    simp only [control] at enters
    fun_cases Machine.fill machine id thread cell <;> simp_all [Machine.fill, Thread.push, Thread.turn]
  | blocked other =>
    obtain rfl : other = slot := by simpa [control, Thread.turn] using enters
    exact Or.inr (Or.inr rfl)
  | yield outcome | unwind =>
    cases held : thread.frames with
    | nil => simp [control, held] at enters
    | cons frame frames => cases frame <;> simp [control, held, Machine.handOver, Machine.crash] at enters
  | paused demand => simp [control, Thread.turn] at enters

theorem Named.step {machine : Machine} {id : ThreadId} {thread : Thread} (named : machine.Named thread)
    (own : ∀ slot ∈ thread.forcing, machine.slots slot = .running id) :
    (machine.step id thread).1.Named (machine.step id thread).2 := by
  refine ⟨fun slot tried => ?_, fun slot enters => ?_⟩
  · rw [slotIds_step]
    by_cases pending : machine.slots slot = .pending
    · -- It is the definition that the move has begun, so the thread was entering it.
      have effect := step_effect machine id thread
      generalize machine.step id thread = result at effect tried
      cases effect with
      | quiet slots => exact absurd (slots ▸ pending) tried
      | start begun enters =>
        by_cases here : slot = begun
        · exact here ▸ named.enters begun (Or.inl enters)
        · exact absurd pending (by simpa [here] using tried)
      | sleep => exact absurd pending tried
      | wake => exact absurd pending tried
      | publish left outcome frames control publishes held =>
        by_cases here : slot = left
        · have running := own left (by simp [Thread.forcing, held])
          simp [← here, pending] at running
        · exact absurd pending (by simpa [here] using tried)
    · exact named.tried slot pending
  · rw [slotIds_step]
    rcases step_enters machine id thread slot enters with member | entered
    · exact member
    · exact named.enters slot entered

end Machine

end Pkgset

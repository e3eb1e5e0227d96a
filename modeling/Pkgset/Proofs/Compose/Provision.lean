import Pkgset.Proofs.Compose.Checking

/-!
# Environments that lack nothing

Definitions are frugal if they are plain values, aliases, and call sites that ask for their inputs
only. If the check of the whole environment passes, then what a final definition asks for is always
there: it is an entry that is visible, or a default that a final definition has made. What carries
this through all states is that a thread owes an outcome that is no error of something missing to
whatever frugal computation it is in; elsewhere it may do as it likes.
-/

namespace Pkgset
open Machine Relation

/-- There is nothing under a name, where it is asked for or where it is declared. -/
def ComposeError.isLack : ComposeError → Bool
  | .notFound _ => true
  | .missingInput _ _ => true
  | .undeclaredInput _ _ => true
  | _ => false

mutual

/-- The entries and the defaults that a component refers to. -/
def Component.references : Component → List LazyRef
  | .attrs fields => referencesOfFields fields
  | .lazy reference => LazyRef.references reference
  | _ => []

def referencesOfFields : List (String × Component) → List LazyRef
  | [] => []
  | (_, component) :: rest => Component.references component ++ referencesOfFields rest

def LazyRef.references : LazyRef → List LazyRef
  | .ready component => Component.references component
  | .entry view name => [.entry view name]
  | .default input cell => [.default input cell]

end

/-! ### Frugal definitions -/

/-- A component that refers to what is known, or an error, but of nothing missing. -/
def Outcome.Fine (known : LazyRef → Prop) : Outcome → Prop
  | .ok component => ∀ reference ∈ component.references, known reference
  | .error error => error.isLack = false

/-- A demand that asks for nothing but what is known, or becomes known by its answers, and comes to a
    fine outcome if its answers are fine. -/
def Demand.Frugal (known : LazyRef → Prop) : Demand → Prop
  | .done outcome => Outcome.Fine known outcome
  | .panic => True
  | .get view name next => known (.entry view name) ∧ ∀ outcome, Outcome.Fine known outcome → Frugal known (next outcome)
  | .prior _ _ _ _ => False
  | .has _ _ next => ∀ answer, Frugal known (next answer)
  | .hasPrior _ _ _ next => ∀ answer, Frugal known (next answer)
  | .force reference next =>
    (∀ inner ∈ reference.references, known inner) ∧ ∀ outcome, Outcome.Fine known outcome → Frugal known (next outcome)
  | .settle component next =>
    (∀ inner ∈ component.references, known inner) ∧ ∀ outcome, Outcome.Fine known outcome → Frugal known (next outcome)
  | .allot _ _ _ _ => False
  | .mark _ next => Frugal known next
  | .pause next => Frugal known next

/-- A component that refers to nothing. -/
def Demand.Constant (demand : Demand) : Prop := ∃ component, demand = .pure component ∧ component.references = []

/-- The declared inputs are bound, and to what is known. -/
structure Inputs.Knows (known : LazyRef → Prop) (declared : List String) (inputs : Inputs) : Prop where
  bound : ∀ input ∈ declared, ∃ binding, Dict.get? inputs.bindings input = some binding
  entry : ∀ input name, Dict.get? inputs.bindings input = some (.entry name) → known (.entry inputs.view name)
  ready : ∀ input component, Dict.get? inputs.bindings input = some (.ready component) →
    ∀ reference ∈ component.references, known reference
  default : ∀ input cell, Dict.get? inputs.bindings input = some (.default cell) → known (.default input cell)

/-- Pins are plain, defaults constant, and whatever the declared inputs may be, the constructor asks for
    no more than them. -/
structure CallSite.Frugal (site : CallSite) : Prop where
  pins : ∀ input component, Dict.get? site.pins input = some (.value component) → component.references = []
  defaults : ∀ input default, Dict.get? site.descriptor.defaults input = some default → ∀ view, (default view).Constant
  construct : ∀ known inputs, Inputs.Knows known site.descriptor.inputs inputs → (site.descriptor.construct inputs).Frugal known

/-- A plain value, an alias, or a frugal call site. -/
def Definition.Frugal : Definition → Prop
  | .call site => site.Frugal
  | .thunk _ => False
  | .value component => component.references = []
  | .aliasOf _ => True

section
variable {known : LazyRef → Prop} {demand : Demand}

theorem Demand.Frugal.bind {f : Outcome → Demand} (frugal : demand.Frugal known)
    (onwards : ∀ outcome, Outcome.Fine known outcome → (f outcome).Frugal known) : (demand.bind f).Frugal known := by
  induction demand with
  | done outcome => exact onwards outcome frugal
  | panic => trivial
  | get view name next ih => exact ⟨frugal.1, fun outcome fine => ih outcome (frugal.2 outcome fine)⟩
  | prior env name layer next => exact frugal.elim
  | has view name next ih => exact fun answer => ih answer (frugal answer)
  | hasPrior env name layer next ih => exact fun answer => ih answer (frugal answer)
  | force reference next ih => exact ⟨frugal.1, fun outcome fine => ih outcome (frugal.2 outcome fine)⟩
  | settle component next ih => exact ⟨frugal.1, fun outcome fine => ih outcome (frugal.2 outcome fine)⟩
  | allot input view body next => exact frugal.elim
  | mark label next ih => exact ih frugal
  | pause next ih => exact ih frugal

theorem Demand.Frugal.andThen {f : Component → Demand} (frugal : demand.Frugal known)
    (onwards : ∀ component, (∀ reference ∈ component.references, known reference) → (f component).Frugal known) :
    (demand.andThen f).Frugal known := by
  refine frugal.bind fun outcome fine => ?_
  cases outcome with
  | ok component => exact onwards component fine
  | error error => exact fine

theorem Demand.Constant.frugal (constant : demand.Constant) : demand.Frugal known := by
  obtain ⟨component, rfl, plain⟩ := constant
  intro reference member
  rw [plain] at member
  cases member

theorem Inputs.Knows.get {declared : List String} {inputs : Inputs} (knows : inputs.Knows known declared) {input : String}
    (member : input ∈ declared) : (inputs.get input).Frugal known := by
  obtain ⟨binding, bound⟩ := knows.bound input member
  rw [Inputs.get, bound]
  cases binding with
  | entry name => exact ⟨knows.entry input name bound, fun _ => id⟩
  | ready component => exact knows.ready input component bound
  | default cell =>
    refine ⟨fun inner within => ?_, fun _ => id⟩
    rw [LazyRef.references, List.mem_singleton] at within
    exact within ▸ knows.default input cell bound

end

/-! ### What an environment offers -/

namespace Environment
variable {environment : Environment} {env : EnvId}

/-- A final definition. -/
def Final (environment : Environment) (env : EnvId) (slot : SlotId) : Prop :=
  ∃ found, environment.top? none slot.name = some found ∧ slot = ⟨env, slot.name, found.layer⟩

/-- A default that a final definition has made. -/
def Makes (environment : Environment) (env : EnvId) (cell : CellId) : Prop :=
  ∃ slot, cell.origin = .slot slot ∧ environment.Final env slot

/-- What is there to be asked for: visible entries, and defaults that final definitions have made. -/
def Offers (environment : Environment) (env : EnvId) : LazyRef → Prop
  | .entry view name => view.env = env ∧ environment.contains view.role name = true
  | .default _ cell => environment.Makes env cell
  | .ready _ => True

/-- What a final definition demands: after its injection, nothing that is not there. -/
def Injects (environment : Environment) (env : EnvId) (demand : Demand) : Prop :=
  demand.Inspects env environment Demand.Constant (environment.Makes env) (Demand.Frugal (environment.Offers env))

theorem definition_injects (checks : environment.checkInputs none = .ok ()) (every : environment.Every Definition.Frugal)
    {machine : Machine} (living : machine.environment? env = some environment) {slot : SlotId}
    (final : environment.Final env slot) : environment.Injects env (machine.definition slot) := by
  obtain ⟨found, shows, same⟩ := final
  have flawless := checkInputs_eq_ok_iff.mp checks slot.name
  have member : found ∈ environment.stack slot.name := List.mem_of_head? (Option.filter_eq_some_iff.mp shows).1
  have frugal := every slot.name found member
  rw [same, definition_of_top living shows]
  cases is : found.definition with
  | thunk compute =>
    rw [is] at frugal
    exact frugal.elim
  | value component =>
    rw [is] at frugal
    exact .ends (Demand.Constant.frugal ⟨component, rfl, frugal⟩)
  | aliasOf target =>
    refine .ends ⟨⟨rfl, ?_⟩, fun _ => id⟩
    by_contra absent
    have hidden : environment.contains none target = false := Bool.not_eq_true _ ▸ absent
    exact flawless _ (.aliasOf shows is hidden)
  | call site =>
    rw [is] at frugal
    rw [Definition.demand, Scope.call, CallSite.call]
    refine CallSite.resolve_inspects rfl (fun input default found => frugal.defaults input default found _)
      (fun error fails => absurd (.call shows is fails) (flawless error)) fun _ bindings binds => ?_
    refine frugal.construct _ _ ⟨binds.bound, fun input name bound => ⟨rfl, binds.entry input name bound⟩, ?_, ?_⟩
    · intro input component bound reference within
      rw [frugal.pins input component (binds.ready input component bound)] at within
      cases within
    · exact fun input cell bound => binds.default input cell bound

end Environment

/-! ### What threads owe -/

section
variable (environment : Environment) (env : EnvId)

/-- A frame of a computation that may come to whatever it likes. -/
def Environment.Frees : Frame → Prop
  | .slot slot => ¬ environment.Final env slot
  | .cell cell => ¬ environment.Makes env cell
  | .resume _ => True

/-- Nothing is expected of a thread: it is not watched, and all its frames are free. -/
structure Environment.Free (watched : Prop) (frames : List Frame) : Prop where
  unwatched : ¬ watched
  frames : ∀ frame ∈ frames, environment.Frees env frame

/-- The computation above these frames owes them a fine outcome. Below the lowest computation that
    does, nothing may be expected any more. -/
def Environment.Owed (watched : Prop) : List Frame → Prop
  | [] => watched
  | .slot slot :: below => environment.Final env slot ∧ (Owed watched below ∨ environment.Free env watched below)
  | .cell cell :: below => environment.Makes env cell ∧ (Owed watched below ∨ environment.Free env watched below)
  | .resume next :: below =>
    (∀ outcome, Outcome.Fine (environment.Offers env) outcome → (next outcome).Frugal (environment.Offers env)) ∧
      Owed watched below

/-- What a thread may do that owes a fine outcome to its frames. Injecting is for what is right above
    the frame of a definition. -/
def Environment.Allows (frames : List Frame) : Control → Prop
  | .meet demand => demand.Frugal (environment.Offers env) ∨
      (∃ slot below, frames = .slot slot :: below) ∧ environment.Injects env demand
  | .paused demand => demand.Frugal (environment.Offers env)
  | .enter slot => environment.Final env slot
  | .blocked slot => environment.Final env slot
  | .fill cell => environment.Makes env cell
  | .yield outcome => Outcome.Fine (environment.Offers env) outcome
  | .unwind => True

/-- A thread that owes a fine outcome to its frames goes for one; else it is free. -/
def Environment.Binds (watched : Prop) (thread : Thread) : Prop :=
  environment.Owed env watched thread.frames ∧ environment.Allows env thread.frames thread.control ∨
    environment.Free env watched thread.frames

/-- Final definitions have come to fine outcomes, and the defaults that they have made are constant. -/
structure Environment.Stocks (machine : Machine) : Prop where
  living : machine.environment? env = some environment
  slots : ∀ slot, environment.Final env slot → ∀ outcome, machine.slots slot = .done outcome →
    Outcome.Fine (environment.Offers env) outcome
  cells : ∀ id cell, environment.Makes env id → machine.cell? id = some cell → cell.body.Constant ∧
    ∀ outcome, cell.progress = .done outcome → Outcome.Fine (environment.Offers env) outcome

end

namespace Environment
variable {environment : Environment} {env : EnvId} {watched : Prop} {machine : Machine} {frames : List Frame}

namespace Stocks

theorem setSlot (stocks : environment.Stocks env machine) {slot : SlotId} {progress : Progress}
    (fine : environment.Final env slot → ∀ outcome, progress = .done outcome → Outcome.Fine (environment.Offers env) outcome) :
    environment.Stocks env (machine.setSlot slot progress) := by
  refine ⟨stocks.living, fun other final outcome done => ?_, stocks.cells⟩
  rw [slots_setSlot] at done
  split at done
  next same => exact fine (same ▸ final) outcome done
  next => exact stocks.slots other final outcome done

theorem publish (stocks : environment.Stocks env machine) {slot : SlotId} {outcome : Outcome}
    (fine : environment.Final env slot → Outcome.Fine (environment.Offers env) outcome) :
    environment.Stocks env (machine.publish slot outcome) := by
  have published : environment.Stocks env (machine.setSlot slot (.done outcome)) := by
    refine stocks.setSlot fun final other same => ?_
    cases same
    exact fine final
  exact ⟨published.living, published.slots, published.cells⟩

theorem setCell (stocks : environment.Stocks env machine) {cell : CellId} {progress : Progress}
    (fine : environment.Makes env cell → ∀ outcome, progress = .done outcome → Outcome.Fine (environment.Offers env) outcome) :
    environment.Stocks env (machine.setCell cell progress) := by
  refine ⟨stocks.living, stocks.slots, fun id content makes found => ?_⟩
  rw [cell?_setCell] at found
  split at found
  next same =>
    obtain ⟨before, there, rfl⟩ := Option.map_eq_some_iff.mp found
    exact ⟨(stocks.cells cell before (same ▸ makes) there).1, fine (same ▸ makes)⟩
  next => exact stocks.cells id content makes found

theorem allot (stocks : environment.Stocks env machine) {origin : Origin} (input : String) (view : View) {body : Demand}
    (constant : (∃ slot, origin = .slot slot ∧ environment.Final env slot) → body.Constant) :
    environment.Stocks env (machine.allot origin input view body).1 := by
  refine ⟨stocks.living, stocks.slots, fun id content makes found => ?_⟩
  rw [cell?_allot, Option.or_eq_some_iff] at found
  rcases found with old | ⟨_, new⟩
  · exact stocks.cells id content makes old
  · simp only [Option.ite_none_right_eq_some, Option.some.injEq] at new
    obtain ⟨rfl, rfl⟩ := new
    exact ⟨constant makes, by simp⟩

end Stocks

/-- The machine and a thread of it are as they should be. -/
def Serves (environment : Environment) (env : EnvId) (watched : Prop) (state : Machine × Thread) : Prop :=
  environment.Stocks env state.1 ∧ environment.Binds env watched state.2

theorem binds_of_below {control : Control}
    (below : environment.Owed env watched frames ∨ environment.Free env watched frames)
    (allows : environment.Allows env frames control) : environment.Binds env watched ⟨control, frames⟩ :=
  below.imp_left fun owed => ⟨owed, allows⟩

theorem top?_none {role : Option Role} {name : String} {slot : Slot} (shows : environment.top? role name = some slot) :
    environment.top? none name = some slot :=
  Option.filter_eq_some_iff.mpr ⟨(Option.filter_eq_some_iff.mp shows).1, rfl⟩

/-- What a view of the environment shows is a final definition. -/
theorem final_of_top? (stocks : environment.Stocks env machine) {view : View} {name : String} {slot : SlotId}
    (looks : view.env = env) (shows : machine.top? view name = some slot) : environment.Final env slot := by
  obtain ⟨other, living, shows⟩ := Option.bind_eq_some_iff.mp shows
  obtain ⟨found, shown, same⟩ := Option.bind_eq_some_iff.mp shows
  cases (looks ▸ living).symm.trans stocks.living
  cases same
  exact ⟨found, top?_none shown, by rw [looks]⟩

private theorem meet_frugal (stocks : environment.Stocks env machine) (owed : environment.Owed env watched frames)
    {demand : Demand} (frugal : demand.Frugal (environment.Offers env)) :
    environment.Serves env watched (machine.meet ⟨.meet demand, frames⟩ demand) := by
  -- Most demands are met with an answer, and nothing else changes.
  have goes {demand : Demand} (frugal : demand.Frugal (environment.Offers env)) :
      environment.Serves env watched (machine, ⟨.meet demand, frames⟩) := ⟨stocks, .inl ⟨owed, .inl frugal⟩⟩
  fun_cases Machine.meet machine ⟨.meet demand, frames⟩ demand with
  | case1 outcome => exact ⟨stocks, .inl ⟨owed, frugal⟩⟩
  | case2 => exact ⟨stocks, .inl ⟨owed, trivial⟩⟩
  | case3 view name next slot shows =>
    exact ⟨stocks, .inl ⟨⟨frugal.2, owed⟩, final_of_top? stocks frugal.1.1 shows⟩⟩
  | case4 view name next hidden =>
    -- The name is offered, so it is visible.
    obtain ⟨⟨rfl, visible⟩, _⟩ := frugal
    rw [← Machine.top?_isSome stocks.living, hidden] at visible
    cases visible
  | case5 env name layer next slot shows | case6 env name layer next hidden => exact frugal.elim
  | case7 view name next | case8 env name layer next => exact goes (frugal _)
  | case9 view name next other found => exact goes ⟨frugal.1 _ (by simp [LazyRef.references]), frugal.2⟩
  | case10 view name next dropped => exact goes (frugal.2 _ rfl)
  | case11 component next => exact goes (frugal.2 (.ok component) frugal.1)
  | case12 input cell next =>
    exact ⟨stocks, .inl ⟨⟨frugal.2, owed⟩, frugal.1 (.default input cell) (by simp [LazyRef.references])⟩⟩
  | case13 reference next =>
    refine goes ⟨frugal.1, fun outcome fine => ?_⟩
    cases outcome with
    | ok component => exact ⟨fine, frugal.2⟩
    | error error => exact frugal.2 _ fine
  | case14 component next => exact goes (frugal.2 (.ok component) frugal.1)
  | case15 input view body next => exact frugal.elim
  | case16 label next => exact ⟨⟨stocks.living, stocks.slots, stocks.cells⟩, .inl ⟨owed, .inl frugal⟩⟩
  | case17 next => exact ⟨stocks, .inl ⟨owed, frugal⟩⟩

private theorem meet_injects (stocks : environment.Stocks env machine) {slot : SlotId} {below : List Frame}
    (owed : environment.Owed env watched (.slot slot :: below)) {demand : Demand} (injects : environment.Injects env demand) :
    environment.Serves env watched (machine.meet ⟨.meet demand, .slot slot :: below⟩ demand) := by
  cases injects with
  | ends frugal => exact meet_frugal stocks owed frugal
  | @has view name next looks rest =>
    refine ⟨stocks, .inl ⟨owed, .inr ⟨⟨slot, below, rfl⟩, ?_⟩⟩⟩
    rwa [Machine.top?_isSome (looks ▸ stocks.living)]
  | @allot input view body next constant rest =>
    refine ⟨stocks.allot input view fun _ => constant, .inl ⟨owed, .inr ⟨⟨slot, below, rfl⟩, ?_⟩⟩⟩
    exact rest _ ⟨slot, rfl, owed.1⟩

theorem Free.push {frame : Frame} (free : environment.Free env watched frames) (here : environment.Frees env frame) :
    environment.Free env watched (frame :: frames) := ⟨free.unwatched, List.forall_mem_cons.mpr ⟨here, free.frames⟩⟩

theorem Free.pop {frame : Frame} (free : environment.Free env watched (frame :: frames)) :
    environment.Frees env frame ∧ environment.Free env watched frames := by
  obtain ⟨here, below⟩ := List.forall_mem_cons.mp free.frames
  exact ⟨here, free.unwatched, below⟩

private theorem meet_free (stocks : environment.Stocks env machine) (free : environment.Free env watched frames) (demand : Demand) :
    environment.Serves env watched (machine.meet ⟨.meet demand, frames⟩ demand) := by
  have stays (control : Control) : environment.Serves env watched (machine, ⟨control, frames⟩) :=
    ⟨stocks, .inr free⟩
  have resumes (next : Outcome → Demand) (control : Control) :
      environment.Serves env watched (machine, ⟨control, .resume next :: frames⟩) :=
    ⟨stocks, .inr (free.push trivial)⟩
  fun_cases Machine.meet machine ⟨.meet demand, frames⟩ demand with
  | case3 view name next slot shows => exact resumes _ _
  | case5 env name layer next slot shows => exact resumes _ _
  | case12 input cell next => exact resumes _ _
  | case15 input view body next larger cell made =>
    cases made
    refine ⟨stocks.allot input view fun inside => ?_, .inr free⟩
    -- A free thread is in no final definition.
    obtain ⟨slot, innermost, final⟩ := inside
    have within : Origin.slot slot ∈ (⟨.meet (.allot input view body next), frames⟩ : Thread).origins := by
      rw [Thread.origin_eq] at innermost
      cases first : (⟨.meet (.allot input view body next), frames⟩ : Thread).origins.head? with
      | none => rw [first] at innermost; cases innermost
      | some origin =>
        rw [first] at innermost
        exact List.mem_of_head? (innermost ▸ first)
    obtain ⟨frame, member, is⟩ := Thread.mem_origins.mp within
    cases frame with
    | slot other =>
      cases is
      exact absurd final (free.frames _ member)
    | cell cell => cases is
    | resume next => cases is
  | case16 label next => exact ⟨⟨stocks.living, stocks.slots, stocks.cells⟩, .inr free⟩
  | _ => exact stays _

private theorem enter_serves (stocks : environment.Stocks env machine) (id : ThreadId) (slot : SlotId)
    (demands : environment.Final env slot → environment.Injects env (machine.definition slot))
    (binds : environment.Binds env watched ⟨.enter slot, frames⟩) :
    environment.Serves env watched (machine.enter id ⟨.enter slot, frames⟩ slot) := by
  -- The error of a cycle is none of something missing.
  have refused (chain : List String) :
      environment.Serves env watched (machine, ⟨.yield (.error (.evaluationCycle slot.name chain)), frames⟩) :=
    ⟨stocks, binds.imp_left fun ⟨owed, _⟩ => ⟨owed, rfl⟩⟩
  fun_cases Machine.enter machine id ⟨.enter slot, frames⟩ slot with
  | case1 outcome known => exact ⟨stocks, binds.imp_left fun ⟨owed, final⟩ => ⟨owed, stocks.slots slot final outcome known⟩⟩
  | case2 pending =>
    refine ⟨stocks.setSlot (by simp), ?_⟩
    by_cases final : environment.Final env slot
    · refine .inl ⟨⟨final, binds.imp_left And.left⟩, .inr ⟨⟨slot, frames, rfl⟩, demands final⟩⟩
    · rcases binds with ⟨_, allows⟩ | free
      · exact absurd allows final
      · exact .inr (free.push final)
  | case3 own => exact refused _
  | case4 owner running other hops found => exact refused _
  | case5 owner running other clear => exact ⟨⟨stocks.living, stocks.slots, stocks.cells⟩, binds⟩

private theorem fill_serves (stocks : environment.Stocks env machine) (id : ThreadId) (cell : CellId)
    (binds : environment.Binds env watched ⟨.fill cell, frames⟩) :
    environment.Serves env watched (machine.fill id ⟨.fill cell, frames⟩ cell) := by
  unfold Machine.fill
  split
  next missing => exact ⟨stocks, binds.imp_left fun ⟨owed, _⟩ => ⟨owed, trivial⟩⟩
  next content found =>
    split
    next outcome done =>
      exact ⟨stocks, binds.imp_left fun ⟨owed, makes⟩ => ⟨owed, (stocks.cells cell content makes found).2 outcome done⟩⟩
    next owner running => exact ⟨stocks, binds⟩
    next pending =>
      refine ⟨stocks.setCell (by simp), ?_⟩
      by_cases makes : environment.Makes env cell
      · refine .inl ⟨⟨makes, binds.imp_left And.left⟩, .inl ?_⟩
        unfold Machine.cellDemand
        split
        · exact (stocks.cells cell content makes found).1.frugal
        · exact rfl
      · rcases binds with ⟨_, allows⟩ | free
        · exact absurd allows makes
        · exact .inr (free.push makes)

private theorem handOver_serves (stocks : environment.Stocks env machine) {outcome : Outcome} {frame : Frame}
    (binds : environment.Binds env watched ⟨.yield outcome, frame :: frames⟩) :
    environment.Serves env watched (machine.handOver outcome frames frame) := by
  rcases binds with ⟨owed, fine⟩ | free
  · cases frame with
    | slot slot => exact ⟨stocks.publish fun _ => fine, binds_of_below owed.2 fine⟩
    | cell cell =>
      refine ⟨stocks.setCell fun _ other same => ?_, binds_of_below owed.2 fine⟩
      cases same
      exact fine
    | resume next => exact ⟨stocks, .inl ⟨owed.2, .inl (owed.1 outcome fine)⟩⟩
  · obtain ⟨here, below⟩ := free.pop
    cases frame with
    | slot slot => exact ⟨stocks.publish fun final => absurd final here, .inr below⟩
    | cell cell => exact ⟨stocks.setCell fun makes => absurd makes here, .inr below⟩
    | resume next => exact ⟨stocks, .inr below⟩

private theorem crash_serves (stocks : environment.Stocks env machine) {frame : Frame}
    (binds : environment.Binds env watched ⟨.unwind, frame :: frames⟩) :
    environment.Serves env watched (machine.crash frames frame) := by
  have below : environment.Binds env watched ⟨.unwind, frames⟩ := by
    rcases binds with ⟨owed, _⟩ | free
    · cases frame with
      | slot slot => exact binds_of_below owed.2 trivial
      | cell cell => exact binds_of_below owed.2 trivial
      | resume next => exact .inl ⟨owed.2, trivial⟩
    · exact .inr free.pop.2
  cases frame with
  | slot slot => exact ⟨stocks.publish fun _ => rfl, below⟩
  | cell cell => exact ⟨stocks.setCell (by simp), below⟩
  | resume next => exact ⟨stocks, below⟩

/-- A move of a thread leaves all as it should be. -/
theorem Serves.step {thread : Thread} (serves : environment.Serves env watched (machine, thread)) (id : ThreadId)
    (demands : ∀ slot, environment.Final env slot → environment.Injects env (machine.definition slot)) :
    environment.Serves env watched (machine.step id thread) := by
  obtain ⟨control, frames⟩ := thread
  obtain ⟨stocks, binds⟩ := serves
  cases control with
  | meet demand =>
    rcases binds with ⟨owed, frugal | ⟨⟨slot, below, rfl⟩, injects⟩⟩ | free
    · exact meet_frugal stocks owed frugal
    · exact meet_injects stocks owed injects
    · exact meet_free stocks free demand
  | enter slot => exact enter_serves stocks id slot (demands slot) binds
  | fill cell => exact fill_serves stocks id cell binds
  | yield outcome =>
    cases frames with
    | nil => exact ⟨stocks, binds⟩
    | cons frame frames => exact handOver_serves stocks binds
  | unwind =>
    cases frames with
    | nil => exact ⟨stocks, binds⟩
    | cons frame frames => exact crash_serves stocks binds
  | blocked slot => exact ⟨⟨stocks.living, stocks.slots, stocks.cells⟩, binds⟩
  | paused demand => exact ⟨stocks, binds.imp_left fun ⟨owed, frugal⟩ => ⟨owed, .inl frugal⟩⟩

end Environment

/-! ### All threads -/

/-- The machine and all threads are as they should be, with those in sight that are watched. -/
structure Pool.Serves (env : EnvId) (environment : Environment) (watched : ThreadId → Prop) (pool : Pool) : Prop where
  stocks : environment.Stocks env pool.machine
  threads : ∀ id, environment.Binds env (watched id) (pool.threads id)

namespace Pool.Serves
variable {env : EnvId} {environment : Environment} {watched : ThreadId → Prop} {pool pool' : Pool}

theorem moved (serves : pool.Serves env environment watched) {id : ThreadId} {machine : Machine} {thread : Thread}
    (moves : environment.Serves env (watched id) (machine, thread)) :
    (pool.moved id machine thread).Serves env environment watched := by
  refine ⟨moves.1, fun other => ?_⟩
  rw [threads_moved]
  split
  next same => exact same ▸ moves.2
  next => exact serves.threads other

theorem step (checks : environment.checkInputs none = .ok ()) (every : environment.Every Definition.Frugal)
    (serves : pool.Serves env environment watched) (id : ThreadId) : (pool.step id).Serves env environment watched := by
  have moves : environment.Serves env (watched id) (pool.machine.step id (pool.threads id)) :=
    Environment.Serves.step ⟨serves.stocks, serves.threads id⟩ id fun slot =>
      Environment.definition_injects checks every serves.stocks.living
  rw [step_eq_moved rfl]
  exact serves.moved moves

theorem event {anew : ThreadId → Prop} (checks : environment.checkInputs none = .ok ())
    (every : environment.Every Definition.Frugal) (apart : ∀ id, anew id → ¬ watched id)
    (serves : pool.Serves env environment watched) (event : Event env environment anew pool pool') :
    pool'.Serves env environment watched := by
  cases event with
  | moves id => exact serves.step checks every id
  | begins may ended still demand => exact serves.moved ⟨serves.stocks, .inr ⟨apart _ may, by simp [Thread.start]⟩⟩
  | @changes machine living slots cells =>
    refine ⟨⟨living, fun slot final outcome done => serves.stocks.slots slot final outcome (slots ▸ done), ?_⟩, serves.threads⟩
    intro id cell makes found
    refine serves.stocks.cells id cell makes ?_
    rw [← cells id, found]
    obtain ⟨slot, made, _⟩ := makes
    simp [made]

theorem of_arises (checks : environment.checkInputs none = .ok ()) (every : environment.Every Definition.Frugal)
    (arises : pool.Arises env environment) : pool.Serves env environment fun _ => False := by
  obtain ⟨start, untouched, path⟩ := arises
  induction path with
  | refl =>
    refine ⟨⟨untouched.living, ?_, ?_⟩, fun id => .inr ⟨not_false, fun frame member => ?_⟩⟩
    · rintro slot ⟨found, _, same⟩ outcome done
      rw [untouched.slots slot (same ▸ rfl)] at done
      cases done
    · rintro id cell ⟨slot, made, found, _, same⟩ there
      rw [untouched.cells slot id (same ▸ rfl) made] at there
      cases there
    · cases frame with
      | slot slot =>
        rintro ⟨found, _, same⟩
        exact untouched.outside id slot member (same ▸ rfl)
      | cell cell =>
        rintro ⟨slot, made, found, _, same⟩
        exact untouched.elsewhere id cell slot member made (same ▸ rfl)
      | resume next => trivial
  | tail _ happens ih => exact ih.event checks every (fun _ _ => not_false) happens

/-- A thread that gets a visible entry can be watched. -/
theorem watch (serves : pool.Serves env environment fun _ => False) {id : ThreadId} {role : Option Role} {name : String}
    (visible : environment.contains role name = true) (starts : pool.threads id = .start (.get ⟨env, role⟩ name .done)) :
    pool.Serves env environment (· = id) := by
  refine ⟨serves.stocks, fun other => ?_⟩
  by_cases same : other = id
  · subst same
    rw [starts]
    exact .inl ⟨rfl, .inl ⟨⟨rfl, visible⟩, fun _ fine => fine⟩⟩
  · simpa [Environment.Binds, same] using serves.threads other

end Pool.Serves

/-! ### What the check tells -/

/-- Done as a thread would do it, the check of a sealed environment through a view comes to an end
    without anything being computed, begun or waited for. It fails if anything is wrong with a
    visible name, and then reports what is wrong with the first. In every state in which nothing is in
    progress, a call site that anything is wrong with is refused with this very error. If nothing is
    wrong with the whole environment, and its definitions are frugal, then in no state does an entry
    that is visible come to the error of something missing. -/
theorem Environment.checkInputs_foretells {environment : Environment} (before : environment.Sealed) (env : EnvId)
    (role : Option Role) :
    (∀ (machine : Machine) (next : Except ComposeError Unit → Demand) (frames : List Frame),
      machine.environment? env = some environment → ∃ machine',
        machine.Travels ⟨.meet (environment.checking ⟨env, role⟩ next (environment.names role)), frames⟩ machine'
          ⟨.meet (next (environment.checkInputs role)), frames⟩ ∧ machine.Idles machine') ∧
    ((∃ error, environment.checkInputs role = .error error) ↔ ∃ name error, environment.Flaw role name error) ∧
    (∀ error, environment.checkInputs role = .error error ↔
      ∃ name, environment.Flaw role name error ∧ ∀ earlier < name, ∀ other, ¬ environment.Flaw role earlier other) ∧
    (∀ pool : Pool, pool.Arises env environment → (∀ slot owner, pool.machine.slots slot ≠ .running owner) →
      ∀ name slot site error, environment.top? role name = some slot → slot.definition = .call site →
        environment.Flaw role name error → ∃ machine', pool.machine.Gets ⟨⟨env, role⟩, name⟩ (.error error) machine') ∧
    (environment.checkInputs none = .ok () → environment.Every Definition.Frugal → ∀ pool : Pool, pool.Arises env environment →
      ∀ id name, environment.contains role name = true → pool.threads id = .start (.get ⟨env, role⟩ name .done) →
        ∀ pool', ReflTransGen (Pool.Event env environment (· ≠ id)) pool pool' →
          ∀ error, pool'.threads id = ⟨.yield (.error error), []⟩ → error.isLack = false) := by
  refine ⟨?_, ?_, fun error => checkInputs_eq_error_iff before, ?_, ?_⟩
  · intro machine next frames living
    have inspects := environment.checking_inspects ⟨env, role⟩ next (environment.names role)
    obtain ⟨machine', _, travels, rfl, idles⟩ := inspects.travels living frames
    exact ⟨machine', travels, idles⟩
  · constructor
    · rintro ⟨error, fails⟩
      obtain ⟨name, flaw, _⟩ := (checkInputs_eq_error_iff before).mp fails
      exact ⟨name, error, flaw⟩
    · rintro ⟨name, error, flaw⟩
      cases checked : environment.checkInputs role with
      | ok done => exact absurd flaw (checkInputs_eq_ok_iff.mp checked name error)
      | error other => exact ⟨other, rfl⟩
  · intro pool arises idle name slot site error shows is flaw
    cases flaw with
    | call shows' is' fails =>
      cases shows.symm.trans shows'
      cases is.symm.trans is'
      exact arises.gets idle shows is fails
    | aliasOf shows' is' =>
      cases shows.symm.trans shows'
      cases is.symm.trans is'
  · intro checks every pool arises id name visible starts pool' path
    have serves : pool'.Serves env environment (· = id) := by
      induction path with
      | refl => exact (Pool.Serves.of_arises checks every arises).watch visible starts
      | tail _ happens ih => exact ih.event checks every (fun _ apart => apart) happens
    intro error ended
    have binds := serves.threads id
    rw [ended] at binds
    rcases binds with ⟨_, fine⟩ | free
    · exact fine
    · exact absurd rfl free.unwatched

namespace Summing

/-- A component of two others and a unit, which is given by default. -/
def sum : Descriptor :=
  (((Descriptor.new "sum" .library fun inputs =>
    .andThen (inputs.get "left") fun left => .andThen (inputs.get "right") fun right => .andThen (inputs.get "unit") fun unit =>
      .pure (.attrs [("left", left), ("right", right), ("unit", unit)])).requires "left").requires "right").optional "unit"
    fun _ => .pure (.text "m")

/-- The sum without one of the others. -/
def lacking : Environment := .compose "lacking" ⟨[("sum", sum)]⟩ [⟨"left", [.value "left" (.text "1")]⟩]

/-- The sum with both, one of which is an alias of the other. -/
def complete : Environment :=
  .compose "complete" ⟨[("sum", sum)]⟩ [⟨"both", [.value "left" (.text "1"), .aliasOf "right" "left"]⟩]

/-- Threads that get the sum. -/
def pool (environment : Environment) : Pool :=
  ⟨{ Machine.empty with environments := [some environment] }, fun _ => .start (.get (.whole 1) "sum" .done)⟩

theorem arises (environment : Environment) : (pool environment).Arises 1 environment := by
  refine ⟨_, ⟨rfl, fun _ _ => rfl, fun _ _ _ _ => rfl, fun id slot member => ?_, fun id cell slot member => ?_⟩, .refl⟩
  · exact absurd member List.not_mem_nil
  · exact absurd member List.not_mem_nil

theorem every_frugal : complete.Every Definition.Frugal := by
  refine Environment.Every.compose "complete" ?_ ?_
  · intro entry member
    rw [List.mem_singleton.mp member]
    refine ⟨fun input component pinned => ?_, fun input default found view => ?_, fun known inputs knows => ?_⟩
    · cases pinned
    · obtain ⟨_, rfl⟩ := List.mem_singleton.mp (Dict.mem_of_get? found) |> Prod.mk.inj
      exact ⟨_, rfl, rfl⟩
    · refine (knows.get (by decide)).andThen fun left first => ?_
      refine (knows.get (by decide)).andThen fun right second => ?_
      refine (knows.get (by decide)).andThen fun unit third => ?_
      intro reference within
      simp only [Component.references, referencesOfFields, List.mem_append, List.not_mem_nil, or_false] at within
      rcases within with within | within | within
      · exact first reference within
      · exact second reference within
      · exact third reference within
  · intro overlay member entry inside
    rw [List.mem_singleton.mp member] at inside
    rcases List.mem_cons.mp inside with rfl | inside
    · exact rfl
    · rw [List.mem_singleton.mp inside]
      trivial

end Summing

open Summing in
/-- The sum that lacks one of the others is refused, and that of both never misses anything. -/
theorem Environment.checkInputs_foretells_sum :
    (∃ machine', (pool lacking).machine.Gets ⟨.whole 1, "sum"⟩ (.error (.missingInput "sum" "right")) machine') ∧
      ∀ pool', ReflTransGen (Pool.Event 1 complete (· ≠ 0)) (pool complete) pool' →
        ∀ error, pool'.threads 0 = ⟨.yield (.error error), []⟩ → error.isLack = false := by
  obtain ⟨_, _, _, refused, _⟩ := checkInputs_foretells (sealed_compose "lacking" ⟨[("sum", sum)]⟩ _) 1 none
  obtain ⟨_, _, _, _, lacksNone⟩ := checkInputs_foretells (sealed_compose "complete" ⟨[("sum", sum)]⟩ _) 1 none
  constructor
  · have flaw : lacking.Flaw none "sum" (.missingInput "sum" "right") := checkName_eq_error_iff.mp rfl
    exact refused _ (arises lacking) (by simp [pool, Machine.empty]) "sum" _ (.new sum) _ rfl rfl flaw
  · exact lacksNone rfl every_frugal _ (arises complete) 0 "sum" rfl rfl

end Pkgset

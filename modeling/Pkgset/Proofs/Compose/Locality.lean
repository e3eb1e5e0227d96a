import Mathlib.Data.List.TakeWhile
import Pkgset.Compose.Evaluation
import Pkgset.Proofs.Compose.Moves
import Pkgset.Proofs.Compose.Sealing

/-!
# What an overlay on top leaves alone

A layer on top changes the final definitions of the names that it defines and nothing
else: what earlier layers made of any name stays as it was. A definition looks below its
own layer only, so an evaluation that asks for none of those names in the final
environment makes the same moves with the layer and without it.
-/

namespace Pkgset

/-! ### Below which layers a demand looks -/

/-- A demand looks below a layer of an environment only where it may. -/
def Demand.LooksBelow (may : EnvId → Nat → Prop) : Demand → Prop
  | .done _ => True
  | .panic => True
  | .get _ _ next => ∀ outcome, LooksBelow may (next outcome)
  | .prior env _ layer next => may env layer ∧ ∀ outcome, LooksBelow may (next outcome)
  | .has _ _ next => ∀ answer, LooksBelow may (next answer)
  | .hasPrior env _ layer next => may env layer ∧ ∀ answer, LooksBelow may (next answer)
  | .force _ next => ∀ outcome, LooksBelow may (next outcome)
  | .settle _ next => ∀ outcome, LooksBelow may (next outcome)
  | .allot _ _ body next => LooksBelow may body ∧ ∀ cell, LooksBelow may (next cell)
  | .mark _ next => LooksBelow may next
  | .pause next => LooksBelow may next

theorem Demand.LooksBelow.mono {may may' : EnvId → Nat → Prop} (more : ∀ env layer, may env layer → may' env layer)
    {demand : Demand} (looks : demand.LooksBelow may) : demand.LooksBelow may' := by
  induction demand with
  | done outcome => trivial
  | panic => trivial
  | get view name next ih => exact fun outcome => ih outcome (looks outcome)
  | prior env name layer next ih => exact ⟨more env layer looks.1, fun outcome => ih outcome (looks.2 outcome)⟩
  | has view name next ih => exact fun answer => ih answer (looks answer)
  | hasPrior env name layer next ih => exact ⟨more env layer looks.1, fun answer => ih answer (looks.2 answer)⟩
  | force reference next ih => exact fun outcome => ih outcome (looks outcome)
  | settle component next ih => exact fun outcome => ih outcome (looks outcome)
  | allot input view body next ihBody ih => exact ⟨ihBody looks.1, fun cell => ih cell (looks.2 cell)⟩
  | mark label next ih => exact ih looks
  | pause next ih => exact ih looks

/-- What looks below a layer only where it may, with every outcome, may follow a demand
    that does. -/
theorem Demand.LooksBelow.bind {may : EnvId → Nat → Prop} {f : Outcome → Demand}
    (onwards : ∀ outcome, (f outcome).LooksBelow may) {demand : Demand} (looks : demand.LooksBelow may) :
    (demand.bind f).LooksBelow may := by
  induction demand with
  | done outcome => exact onwards outcome
  | panic => trivial
  | get view name next ih => exact fun outcome => ih outcome (looks outcome)
  | prior env name layer next ih => exact ⟨looks.1, fun outcome => ih outcome (looks.2 outcome)⟩
  | has view name next ih => exact fun answer => ih answer (looks answer)
  | hasPrior env name layer next ih => exact ⟨looks.1, fun answer => ih answer (looks.2 answer)⟩
  | force reference next ih => exact fun outcome => ih outcome (looks outcome)
  | settle component next ih => exact fun outcome => ih outcome (looks outcome)
  | allot input view body next ihBody ih => exact ⟨looks.1, fun cell => ih cell (looks.2 cell)⟩
  | mark label next ih => exact ih looks
  | pause next ih => exact ih looks

theorem Inputs.looksBelow_get (may : EnvId → Nat → Prop) (inputs : Inputs) (input : String) :
    (inputs.get input).LooksBelow may := by
  unfold Inputs.get
  split
  next => trivial
  next => exact fun _ => trivial
  next => trivial
  next => exact fun _ => trivial

/-- Injection looks below no layer, so a call site does so only where its constructor or
    its defaults do. -/
theorem CallSite.looksBelow_call {may : EnvId → Nat → Prop} {site : CallSite}
    (construct : ∀ inputs, (site.descriptor.construct inputs).LooksBelow may)
    (defaults : ∀ input default, Dict.get? site.descriptor.defaults input = some default →
      ∀ view, (default view).LooksBelow may) (view : View) : (site.call view).LooksBelow may := by
  have binds {next : Except ComposeError Inputs → Demand} (onwards : ∀ result, (next result).LooksBelow may)
      (inputs : List String) : ∀ bindings, (site.bindInputs view next inputs bindings).LooksBelow may := by
    induction inputs with
    | nil => exact fun bindings => onwards _
    | cons input rest ih =>
      intro bindings
      rw [CallSite.bindInputs]
      split
      next => exact ih _
      next =>
        intro answer
        cases answer with
        | true => exact ih _
        | false =>
          dsimp only
          split
          next default found => exact ⟨defaults input default found view, fun cell => ih _⟩
          next => exact onwards _
  unfold CallSite.call CallSite.resolve
  split
  next => trivial
  next =>
    refine binds (fun result => ?_) _ _
    cases result with
    | ok inputs => exact construct inputs
    | error error => trivial

/-- A definition looks at earlier layers through its own scope only. -/
def Definition.Scoped (definition : Definition) : Prop :=
  ∀ scope : Scope, (definition.demand scope).LooksBelow fun env layer => env = scope.env ∧ layer = scope.layer

theorem Definition.scoped_value (component : Component) : (Definition.value component).Scoped := fun _ => trivial

theorem Definition.scoped_aliasOf (target : String) : (Definition.aliasOf target).Scoped := fun _ _ => trivial

/-- What a thread is about to do looks below a layer only where it may. -/
def Control.LooksBelow (may : EnvId → Nat → Prop) : Control → Prop
  | .meet demand | .paused demand => demand.LooksBelow may
  | .enter slot | .blocked slot => may slot.env slot.layer
  | _ => True

/-- What a thread goes back to looks below a layer only where it may. -/
def Frame.LooksBelow (may : EnvId → Nat → Prop) : Frame → Prop
  | .resume next => ∀ outcome, (next outcome).LooksBelow may
  | _ => True

/-- What a thread is about to ask the final environment for. -/
def Control.asks? : Control → Option (View × String)
  | .meet (.get view name _) | .meet (.has view name _) => some (view, name)
  | _ => none

namespace Machine
variable {machine : Machine} {thread : Thread} {id : ThreadId} {may : EnvId → Nat → Prop}
  {environments : List (Option Environment)} {hidden : View → String → Prop}

/-- A machine and a thread look below a layer only where they may. -/
structure LooksBelow (may : EnvId → Nat → Prop) (machine : Machine) (thread : Thread) : Prop where
  control : thread.control.LooksBelow may
  frames : ∀ frame ∈ thread.frames, frame.LooksBelow may
  cells : ∀ cell ∈ machine.cells, cell.2.body.LooksBelow may

/-- The machine with other environments. -/
def housing (machine : Machine) (environments : List (Option Environment)) : Machine := { machine with environments }

/-- Environments agree with those of a machine where one may look below a layer, and in
    what is final but for some hidden names; all definitions found there look below a
    layer only where they may. -/
structure AgreesBelow (machine : Machine) (environments : List (Option Environment)) (may : EnvId → Nat → Prop)
    (hidden : View → String → Prop) : Prop where
  present : ∀ env, ((machine.housing environments).environment? env).isSome = (machine.environment? env).isSome
  top : ∀ view name, ¬ hidden view name → (machine.housing environments).top? view name = machine.top? view name
  below : ∀ env name layer, may env layer → (machine.housing environments).below? env name layer = machine.below? env name layer
  definition : ∀ slot, may slot.env slot.layer → (machine.housing environments).definition slot = machine.definition slot
  ofTop : ∀ view name slot, machine.top? view name = some slot → may slot.env slot.layer
  ofBelow : ∀ env name layer slot, may env layer → machine.below? env name layer = some slot → may slot.env slot.layer
  looks : ∀ slot, may slot.env slot.layer → (machine.definition slot).LooksBelow may

theorem AgreesBelow.congr {machine' : Machine} (agrees : machine.AgreesBelow environments may hidden)
    (same : machine'.environments = machine.environments) : machine'.AgreesBelow environments may hidden := by
  have here (env : EnvId) : machine'.environment? env = machine.environment? env := by
    cases env with
    | zero => rfl
    | succ place => simp [environment?, same]
  have there (env : EnvId) : (machine'.housing environments).environment? env = (machine.housing environments).environment? env := by
    cases env <;> rfl
  have top (view : View) (name : String) : machine'.top? view name = machine.top? view name := by simp [top?, here]
  have below (env : EnvId) (name : String) (layer : Nat) : machine'.below? env name layer = machine.below? env name layer := by
    simp [below?, here]
  have definition (slot : SlotId) : machine'.definition slot = machine.definition slot := by simp [Machine.definition, here]
  exact {
    present := fun env => by rw [here, there, agrees.present]
    top := fun view name shown => (top view name).symm ▸ agrees.top view name shown
    below := fun env name layer allowed => (below env name layer).symm ▸ agrees.below env name layer allowed
    definition := fun slot allowed => (definition slot).symm ▸ agrees.definition slot allowed
    ofTop := fun view name slot found => agrees.ofTop view name slot (top view name ▸ found)
    ofBelow := fun env name layer slot allowed found => agrees.ofBelow env name layer slot allowed (below env name layer ▸ found)
    looks := fun slot allowed => (definition slot).symm ▸ agrees.looks slot allowed }

/-! ### The same moves -/

/-- A demand is met alike in environments that agree, unless it asks for what is hidden. -/
theorem meet_housing (agrees : machine.AgreesBelow environments may hidden) {demand : Demand} (looks : demand.LooksBelow may)
    (shown : ∀ view name, (Control.meet demand).asks? = some (view, name) → ¬ hidden view name) :
    (machine.housing environments).meet thread demand =
      ((machine.meet thread demand).1.housing environments, (machine.meet thread demand).2) := by
  cases demand with
  | get view name next =>
    rw [meet, meet, agrees.top view name (shown view name rfl)]
    cases machine.top? view name <;> rfl
  | has view name next => rw [meet, meet, agrees.top view name (shown view name rfl)]
  | prior env name layer next =>
    rw [meet, meet, agrees.below env name layer looks.1]
    cases machine.below? env name layer <;> rfl
  | hasPrior env name layer next => rw [meet, meet, agrees.below env name layer looks.1]
  | force reference next =>
    cases reference with
    | entry view name =>
      have present := agrees.present view.env
      simp only [meet]
      cases here : machine.environment? view.env <;>
        cases there : (machine.housing environments).environment? view.env <;> simp_all
    | ready component => rfl
    | default input cell => rfl
  | settle component next => cases component <;> rfl
  | _ => rfl

/-- A thread that asks for nothing hidden moves alike in environments that agree. -/
theorem step_housing (agrees : machine.AgreesBelow environments may hidden) (looks : machine.LooksBelow may thread)
    (shown : ∀ view name, thread.control.asks? = some (view, name) → ¬ hidden view name) :
    (machine.housing environments).step id thread =
      ((machine.step id thread).1.housing environments, (machine.step id thread).2) := by
  obtain ⟨control, frames⟩ := thread
  cases control with
  | meet demand => exact meet_housing agrees looks.control shown
  | enter slot =>
    have same : (machine.housing environments).definition slot = machine.definition slot := agrees.definition slot looks.control
    have slots : (machine.housing environments).slots = machine.slots := rfl
    have waits : (machine.housing environments).waits = machine.waits := rfl
    simp only [step, enter, slots, waits, same]
    cases machine.slots slot with
    | pending => rfl
    | done outcome => rfl
    | running owner =>
      dsimp only
      split
      · rfl
      · cases closing? machine.waits id owner slot <;> rfl
  | fill cell =>
    have cells : (machine.housing environments).cell? cell = machine.cell? cell := rfl
    simp only [step, fill, cells]
    cases machine.cell? cell with
    | none => rfl
    | some entry =>
      have same : (machine.housing environments).cellDemand entry = machine.cellDemand entry := by
        have present := agrees.present entry.env
        unfold cellDemand
        cases here : machine.environment? entry.env <;>
          cases there : (machine.housing environments).environment? entry.env <;> simp_all
      simp only [same]
      cases entry.progress <;> rfl
  | yield outcome =>
    cases frames with
    | nil => rfl
    | cons frame frames => cases frame <;> rfl
  | unwind =>
    cases frames with
    | nil => rfl
    | cons frame frames => cases frame <;> rfl
  | blocked slot => rfl
  | paused demand => rfl

/-! ### Where a thread looks -/

theorem environments_step (machine : Machine) (id : ThreadId) (thread : Thread) :
    (machine.step id thread).1.environments = machine.environments := by
  obtain ⟨control, frames⟩ := thread
  cases control with
  | meet demand =>
    simp only [step]
    fun_cases meet machine ⟨.meet demand, frames⟩ demand with
    | case15 input view body next larger cell made =>
      cases made
      rfl
    | _ => rfl
  | enter slot =>
    simp only [step]
    fun_cases enter machine id ⟨.enter slot, frames⟩ slot <;> rfl
  | fill cell =>
    simp only [step]
    fun_cases fill machine id ⟨.fill cell, frames⟩ cell <;> rfl
  | yield outcome =>
    cases frames with
    | nil => rfl
    | cons frame frames => cases frame <;> rfl
  | unwind =>
    cases frames with
    | nil => rfl
    | cons frame frames => cases frame <;> rfl
  | blocked slot => rfl
  | paused demand => rfl

/-- What comes of a demand looks below a layer only where it may. -/
theorem LooksBelow.meet (agrees : machine.AgreesBelow environments may hidden) {demand : Demand} (looks : demand.LooksBelow may)
    (frames : ∀ frame ∈ thread.frames, frame.LooksBelow may)
    (cells : ∀ cell ∈ machine.cells, cell.2.body.LooksBelow may) :
    LooksBelow may (machine.meet thread demand).1 (machine.meet thread demand).2 := by
  have goes {demand : Demand} (looks : demand.LooksBelow may) : LooksBelow may machine (thread.turn (.meet demand)) :=
    ⟨looks, frames, cells⟩
  have enters (control : Control) {next : Outcome → Demand} (looks : control.LooksBelow may)
      (onwards : ∀ outcome, (next outcome).LooksBelow may) : LooksBelow may machine (thread.push (.resume next) control) :=
    ⟨looks, List.forall_mem_cons.mpr ⟨onwards, frames⟩, cells⟩
  fun_cases Machine.meet machine thread demand with
  | case1 outcome => exact ⟨trivial, frames, cells⟩
  | case2 => exact ⟨trivial, frames, cells⟩
  | case3 view name next slot found => exact enters (.enter slot) (agrees.ofTop view name slot found) looks
  | case4 view name next => exact goes (looks _)
  | case5 env name layer next slot found =>
    exact enters (.enter slot) (agrees.ofBelow env name layer slot looks.1 found) looks.2
  | case6 env name layer next => exact goes (looks.2 _)
  | case7 view name next => exact goes (looks _)
  | case8 env name layer next => exact goes (looks.2 _)
  | case9 next view name => exact goes looks
  | case10 next view name => exact goes (looks _)
  | case11 next component => exact goes (looks _)
  | case12 input cell next => exact enters (.fill cell) trivial looks
  | case13 next reference =>
    refine goes fun outcome => ?_
    cases outcome with
    | ok component => exact looks
    | error error => exact looks _
  | case14 component next => exact goes (looks _)
  | case15 input view body next larger cell made =>
    cases made
    refine ⟨looks.2 _, frames, fun cell member => ?_⟩
    rcases List.mem_append.mp member with old | new
    · exact cells cell old
    · rw [List.mem_singleton.mp new]
      exact looks.1
  | case16 label next => exact ⟨looks, frames, cells⟩
  | case17 next => exact ⟨looks, frames, cells⟩

theorem cells_setCell (machine : Machine) (id : CellId) (progress : Progress)
    (cells : ∀ cell ∈ machine.cells, cell.2.body.LooksBelow may) :
    ∀ cell ∈ (machine.setCell id progress).cells, cell.2.body.LooksBelow may := by
  intro cell member
  obtain ⟨entry, within, rfl⟩ := List.mem_map.mp member
  dsimp only
  split
  · exact cells entry within
  · exact cells entry within

theorem LooksBelow.step (agrees : machine.AgreesBelow environments may hidden) (looks : machine.LooksBelow may thread) :
    LooksBelow may (machine.step id thread).1 (machine.step id thread).2 := by
  obtain ⟨control, frames⟩ := thread
  obtain ⟨control', frames', cells⟩ := looks
  cases control with
  | meet demand => exact LooksBelow.meet agrees control' frames' cells
  | enter slot =>
    simp only [Machine.step]
    fun_cases enter machine id ⟨.enter slot, frames⟩ slot with
    | case2 pending =>
      exact ⟨agrees.looks slot control', List.forall_mem_cons.mpr ⟨trivial, frames'⟩, cells⟩
    | case5 => exact ⟨control', frames', cells⟩
    | _ => exact ⟨trivial, frames', cells⟩
  | fill cell =>
    simp only [Machine.step]
    fun_cases fill machine id ⟨.fill cell, frames⟩ cell with
    | case4 entry found pending =>
      refine ⟨?_, List.forall_mem_cons.mpr ⟨trivial, frames'⟩, cells_setCell machine cell _ cells⟩
      change (machine.cellDemand entry).LooksBelow may
      unfold cellDemand
      split
      · obtain ⟨before, after, split, _⟩ := List.lookup_eq_some_iff.mp found
        exact cells (cell, entry) (by simp [split])
      · trivial
    | _ => exact ⟨trivial, frames', cells⟩
  | yield outcome =>
    cases frames with
    | nil => exact ⟨trivial, frames', cells⟩
    | cons frame frames =>
      obtain ⟨own, others⟩ := List.forall_mem_cons.mp frames'
      cases frame with
      | slot slot => exact ⟨trivial, others, cells⟩
      | cell cell => exact ⟨trivial, others, cells_setCell machine cell _ cells⟩
      | resume next => exact ⟨own outcome, others, cells⟩
  | unwind =>
    cases frames with
    | nil => exact ⟨trivial, frames', cells⟩
    | cons frame frames =>
      obtain ⟨own, others⟩ := List.forall_mem_cons.mp frames'
      cases frame with
      | slot slot => exact ⟨trivial, others, cells⟩
      | cell cell => exact ⟨trivial, others, cells_setCell machine cell _ cells⟩
      | resume next => exact ⟨trivial, others, cells⟩
  | blocked slot => exact ⟨control', frames', cells⟩
  | paused demand => exact ⟨control', frames', cells⟩

/-! ### The same evaluation -/

/-- The machine and the thread after a number of moves. -/
def moved (id : ThreadId) (machine : Machine) (thread : Thread) : Nat → Machine × Thread
  | 0 => (machine, thread)
  | moves + 1 => moved id (machine.step id thread).1 (machine.step id thread).2 moves

theorem moved_add (id : ThreadId) (machine : Machine) (thread : Thread) (moves more : Nat) :
    moved id machine thread (moves + more) =
      moved id (moved id machine thread moves).1 (moved id machine thread moves).2 more := by
  induction moves generalizing machine thread with
  | zero => rw [Nat.zero_add, moved]
  | succ moves ih =>
    rw [Nat.add_right_comm]
    exact ih _ _

/-- A thread at its end stays there. -/
theorem moved_of_ended (id : ThreadId) (machine : Machine) (outcome : Outcome) (moves : Nat) :
    moved id machine ⟨.yield outcome, []⟩ moves = (machine, ⟨.yield outcome, []⟩) := by
  induction moves with
  | zero => rfl
  | succ moves ih => exact ih

/-- An evaluation that never asks for what is hidden ends alike in environments that agree. -/
theorem finish_housing (bound : Nat) (agrees : machine.AgreesBelow environments may hidden) (looks : machine.LooksBelow may thread)
    (shown : ∀ moves view name, (moved id machine thread moves).2.control.asks? = some (view, name) → ¬ hidden view name) :
    (machine.housing environments).finish id bound thread =
      (machine.finish id bound thread).map fun ended => (ended.1.housing environments, ended.2) := by
  induction bound generalizing machine thread with
  | zero => rfl
  | succ bound ih =>
    have stands : (machine.housing environments).standing id thread = machine.standing id thread := by
      obtain ⟨control, frames⟩ := thread
      cases control <;> cases frames <;> rfl
    have moves : (machine.housing environments).step id thread =
        ((machine.step id thread).1.housing environments, (machine.step id thread).2) := step_housing agrees looks (shown 0)
    have onwards := ih (agrees.congr (environments_step machine id thread)) (looks.step agrees)
      fun moves => shown (moves + 1)
    unfold Machine.finish
    rw [stands]
    cases machine.standing id thread with
    | returned outcome => rfl
    | crashed => rfl
    | waiting => rfl
    | moving =>
      simp only [moves]
      exact onwards
    | resting =>
      simp only [moves]
      exact onwards

end Machine

/-! ### A layer on top -/

namespace Environment
variable {environment : Environment} {label name : String} {entries : List Entry}

/-- A layer puts its own definitions on top of those of a name and takes away none. -/
theorem exists_tops (descends : environment.Descends environment.layers.length) (label : String) (entries : List Entry)
    (name : String) : ∃ tops, (environment.pushLayer label entries).stack name = tops ++ environment.stack name ∧
      ∀ slot ∈ tops, slot.layer = environment.layers.length := by
  have folded (lower : Environment)
      (stacked : ∀ name, ∃ tops, lower.stack name = tops ++ environment.stack name ∧
        ∀ slot ∈ tops, slot.layer = environment.layers.length) :
      ∀ name, ∃ tops, (entries.foldl (define environment.layers.length) lower).stack name = tops ++ environment.stack name ∧
        ∀ slot ∈ tops, slot.layer = environment.layers.length := by
    induction entries generalizing lower with
    | nil => exact stacked
    | cons first rest ih =>
      refine ih _ fun name => ?_
      obtain ⟨tops, split, own⟩ := stacked name
      by_cases same : name = first.name
      · subst same
        refine ⟨[⟨environment.layers.length, lower.roleFor first, first.definition⟩], ?_, by simp⟩
        refine (stack_insert lower first.name first.name _).trans ?_
        have dropped : tops.dropWhile (·.layer == environment.layers.length) = [] :=
          List.dropWhile_eq_nil_iff.mpr (by simpa using own)
        have kept : (environment.stack first.name).dropWhile (·.layer == environment.layers.length) =
            environment.stack first.name := by
          rw [List.dropWhile_eq_self_iff]
          intro inhabited top
          have below := descends.below first.name _ (List.getElem_mem inhabited)
          simp only [beq_iff_eq] at top
          omega
        rw [if_pos rfl, split, List.dropWhile_append, dropped, kept]
        rfl
      · refine ⟨tops, ?_, own⟩
        exact (stack_insert lower first.name name _).trans ((if_neg same).trans split)
  exact folded { environment with layers := environment.layers ++ [label] } (fun name => ⟨[], rfl, by simp⟩) name

/-- What is asked of lower layers does not see a layer on top. -/
theorem find?_pushLayer (descends : environment.Descends environment.layers.length) (label : String) (entries : List Entry)
    (name : String) (condition : Slot → Bool) (lower : ∀ slot, slot.layer = environment.layers.length → condition slot = false) :
    ((environment.pushLayer label entries).stack name).find? condition = (environment.stack name).find? condition := by
  obtain ⟨tops, split, own⟩ := exists_tops descends label entries name
  rw [split, List.find?_append, List.find?_eq_none.mpr fun slot member => by simp [lower slot (own slot member)],
    Option.none_or]

end Environment

namespace Machine
variable {start : Machine} {environment : Environment} {label : String} {entries : List Entry}

/-- The identity that the next environment gets. -/
def nextId (start : Machine) : EnvId := start.environments.length + 1

theorem environment?_install (start : Machine) (environment : Environment) (env : EnvId) :
    (start.install environment).1.environment? env =
      if env = start.nextId then some environment else start.environment? env := by
  cases env with
  | zero => simp [environment?, nextId]
  | succ place =>
    simp only [environment?, install]
    by_cases here : place + 1 = start.nextId
    · obtain rfl : place = start.environments.length := Nat.succ.inj here
      simp [nextId]
    · have other : place ≠ start.environments.length := fun same => here (congrArg Nat.succ same)
      rw [if_neg here, List.getElem?_append]
      split
      · rfl
      · have beyond : start.environments[place]? = none := List.getElem?_eq_none (by omega)
        have past : ([some environment] : List (Option Environment))[place - start.environments.length]? = none :=
          List.getElem?_eq_none (by simp; omega)
        rw [beyond, past]

/-- A layer on top of the latest environment agrees with what is without it, but for the
    final definitions of the names that it defines. -/
theorem agrees_pushLayer (before : environment.Sealed) (label : String) (entries : List Entry)
    (known : ∀ env other, start.environment? env = some other → other.Every Definition.Scoped)
    (every : environment.Every Definition.Scoped) :
    (start.install environment).1.AgreesBelow (start.environments ++ [some (environment.pushLayer label entries)])
      (fun env layer => env = start.nextId → layer < environment.layers.length)
      (fun view name => view.env = start.nextId ∧ ∃ entry ∈ entries, entry.name = name) := by
  have descends := before.descends.2
  have here := environment?_install start environment
  have there : ∀ env, ((start.install environment).1.housing
      (start.environments ++ [some (environment.pushLayer label entries)])).environment? env =
        if env = start.nextId then some (environment.pushLayer label entries) else start.environment? env :=
    environment?_install start (environment.pushLayer label entries)
  constructor
  case present =>
    intro env
    rw [here, there]
    split <;> rfl
  case top =>
    intro view name shown
    rw [top?, top?, here, there]
    split
    next same =>
      have absent : ∀ entry ∈ entries, entry.name ≠ name := fun entry member own => shown ⟨same, entry, member, own⟩
      simp [Environment.top?, Environment.stack_pushLayer label absent]
    next => rfl
  case below =>
    intro env name layer allowed
    rw [below?, below?, here, there]
    split
    next same =>
      have lower := allowed same
      have found := Environment.find?_pushLayer descends label entries name (fun slot => slot.layer < layer)
        fun slot top => by simp [top]; omega
      simp [Environment.below?, found]
    next => rfl
  case definition =>
    intro slot allowed
    rw [Machine.definition, Machine.definition, here, there]
    by_cases same : slot.env = start.nextId
    · have lower := allowed same
      have found := Environment.find?_pushLayer descends label entries slot.name (·.layer == slot.layer)
        fun slot top => by simp [top]; omega
      rw [if_pos same, if_pos same, Option.bind_some, Option.bind_some, found]
    · rw [if_neg same, if_neg same]
  case ofTop =>
    intro view name slot found same
    simp only [top?, here, Option.bind_eq_bind, Option.bind_eq_some_iff, Option.some.injEq] at found
    obtain ⟨other, present, shown, top, rfl⟩ := found
    rw [if_pos same] at present
    cases present
    exact descends.below name shown (List.mem_of_head? (Option.filter_eq_some_iff.mp top).1)
  case ofBelow =>
    intro env name layer slot _ found same
    simp only [below?, here, Option.bind_eq_bind, Option.bind_eq_some_iff, Option.some.injEq] at found
    obtain ⟨other, present, shown, lower, rfl⟩ := found
    rw [if_pos same] at present
    cases present
    exact descends.below name shown (List.mem_of_find?_eq_some lower)
  case looks =>
    intro slot allowed
    have all : ∀ other, (start.install environment).1.environment? slot.env = some other → other.Every Definition.Scoped := by
      intro other present
      rw [here] at present
      split at present
      · cases present
        exact every
      · exact known slot.env other present
    unfold Machine.definition
    split
    next shown found =>
      obtain ⟨other, present, within⟩ := Option.bind_eq_some_iff.mp found
      refine (all other present slot.name shown (List.mem_of_find?_eq_some within) _).mono ?_
      rintro env layer ⟨rfl, rfl⟩
      exact allowed
    next => trivial

end Machine

/-- Whatever is installed and computed before, the evaluation of an entry that asks for no
    name that an overlay defines in the final environment, be it for its component or
    for whether it is there, makes the same moves in the environment with this overlay on
    top and in that without it, and so it ends alike, also where it looks at such names
    as earlier layers define them. Definitions look at earlier layers through their own
    scope only. -/
theorem Machine.finish_apply_concat {base : Environment} (before : base.Sealed) (overlays : List Overlay) (overlay : Overlay)
    (start : Machine) (known : ∀ env other, start.environment? env = some other → other.Every Definition.Scoped)
    (every : (base.apply overlays).Every Definition.Scoped)
    (cells : ∀ cell ∈ start.cells, cell.2.body.LooksBelow fun env _ => env ≠ start.nextId)
    (role : Option Role) (name : String)
    (apart : ∀ moves view asked,
      (moved 0 (start.install (base.apply overlays)).1 (.start (.get ⟨start.nextId, role⟩ name .done)) moves).2.control.asks? =
        some (view, asked) → view.env = start.nextId → ∀ entry ∈ overlay.entries, entry.name ≠ asked) (bound : Nat) :
    (start.install (base.apply (overlays ++ [overlay]))).1.finish 0 bound (.start (.get ⟨start.nextId, role⟩ name .done)) =
      ((start.install (base.apply overlays)).1.finish 0 bound (.start (.get ⟨start.nextId, role⟩ name .done))).map
        fun ended => (ended.1.housing (start.install (base.apply (overlays ++ [overlay]))).1.environments, ended.2) := by
  have pushed : base.apply (overlays ++ [overlay]) = (base.apply overlays).pushLayer overlay.name overlay.entries := by
    simp [Environment.apply]
  have agrees := agrees_pushLayer (before.apply overlays) overlay.name overlay.entries known every
  rw [pushed]
  refine finish_housing bound agrees ⟨fun _ => trivial, by simp [Thread.start], ?_⟩ ?_
  · intro cell member
    exact (cells cell member).mono fun env _ other same => absurd same other
  · rintro moves view asked asks ⟨same, entry, member, own⟩
    exact apart moves view asked asks same entry member own

/-! ### An example

A welcome that is made of the greeting of earlier layers, and an overlay that replaces the
greeting. -/

namespace Welcoming

/-- The base layer: a greeting of someone by default. -/
def base : Environment :=
  .ofRegistry "welcoming"
    ⟨[("greeting", (Descriptor.new "greeting" .library fun inputs => inputs.get "name").optional "name" fun _ =>
      .pure (.text "world"))]⟩

/-- The overlay with the welcome. -/
def welcome : Overlay :=
  ⟨"welcome", [.define "welcome" none fun scope =>
    .andThen (scope.prev "greeting") fun earlier => .pure (.attrs [("to", earlier)])]⟩

/-- The overlay that replaces the greeting. -/
def patch : Overlay := ⟨"patch", [.value "greeting" (.text "nobody")]⟩

/-- The thread that gets the welcome. -/
def thread : Thread := .start (.get ⟨Machine.empty.nextId, none⟩ "welcome" .done)

theorem every_scoped : (base.apply [welcome]).Every Definition.Scoped := by
  refine (Environment.Every.ofRegistry "welcoming" ?_).apply ?_
  · intro entry member
    rw [List.mem_singleton.mp member]
    intro scope
    change Demand.LooksBelow _ (CallSite.call (.new _) (.whole scope.env))
    refine CallSite.looksBelow_call ?_ ?_ (.whole scope.env)
    · exact fun inputs => inputs.looksBelow_get _ "name"
    intro input default found view
    simp only [Descriptor.optional, Descriptor.new, Descriptor.requires, Dict.get?, Dict.insert, CallSite.new] at found
    split at found
    · cases found
      trivial
    · cases found
  · intro overlay member entry inside
    rw [List.mem_singleton.mp member] at inside
    rw [List.mem_singleton.mp inside]
    refine fun scope => Demand.LooksBelow.bind (fun outcome => ?_) ⟨⟨rfl, rfl⟩, fun _ => trivial⟩
    cases outcome <;> trivial

end Welcoming

open Welcoming in
/-- The welcome has the greeting that was there before the replacement. -/
theorem Machine.finish_apply_concat_welcoming :
    ((Machine.empty.install (base.apply [welcome, patch])).1.finish 0 100 thread).map Prod.snd =
      some (.ok (.attrs [("to", .text "world")])) := by
  have apart : ∀ moves view asked,
      (moved 0 (Machine.empty.install (base.apply [welcome])).1 thread moves).2.control.asks? = some (view, asked) →
        view.env = Machine.empty.nextId → ∀ entry ∈ patch.entries, entry.name ≠ asked := by
    obtain ⟨outcome, ended⟩ : ∃ outcome,
        (moved 0 (Machine.empty.install (base.apply [welcome])).1 thread 39).2 = ⟨.yield outcome, []⟩ := ⟨_, rfl⟩
    have early : ∀ moves < 39, ((moved 0 (Machine.empty.install (base.apply [welcome])).1 thread moves).2.control.asks?.map
        Prod.snd) ≠ some "greeting" := by decide
    intro moves view asked asks _ entry member own
    obtain rfl : asked = "greeting" := by
      rw [List.mem_singleton.mp member] at own
      exact own.symm
    rcases Nat.lt_or_ge moves 39 with before | after
    · exact early moves before (by rw [asks]; rfl)
    · obtain ⟨more, rfl⟩ := Nat.exists_eq_add_of_le after
      rw [moved_add, ended, moved_of_ended] at asks
      cases asks
  have before : base.Sealed := Environment.sealed_ofRegistry _ _
  have same := finish_apply_concat before [welcome] patch .empty
    (fun env other found => by cases env <;> cases found) every_scoped (by simp [Machine.empty]) none "welcome" apart 100
  refine (congrArg (Option.map Prod.snd) same).trans ?_
  rw [Option.map_map]
  rfl

end Pkgset

import Pkgset.Proofs.Compose.Injection

/-!
# What an injection binds

A call site is put together by declarations of inputs and by pins, in any order and number. Its
injection fails with the least pinned name that is not declared, or else with the first declaration
that there is nothing for. Otherwise it binds the declared inputs and no others: each to the
component that it is pinned to last, else to its entry, if that is there, else to its default. It
computes nothing, and asking for an input comes to the source that the input is bound to.
-/

namespace Pkgset
open Machine

/-! ### Call sites in the making -/

/-- One declaration of an input, with a default if there is one. -/
structure Need where
  input : String
  default? : Option (View → Demand)

/-- Declares an input. -/
def Descriptor.declare (descriptor : Descriptor) (need : Need) : Descriptor :=
  match need.default? with
  | none => descriptor.requires need.input
  | some default => descriptor.optional need.input default

/-- A call site that is not finished: the declarations and the pins in the order in which they were
    made, those that were made again included. -/
structure SiteDraft where
  name : String
  role : Role
  construct : Inputs → Demand
  needs : List Need
  pins : List (String × Pin)

namespace SiteDraft

/-- The descriptor of a draft. -/
def descriptor (draft : SiteDraft) : Descriptor :=
  draft.needs.foldl Descriptor.declare (.new draft.name draft.role draft.construct)

/-- The call site of a draft. -/
def build (draft : SiteDraft) : CallSite :=
  draft.pins.foldl (fun site entry => site.pin entry.1 entry.2) (.new draft.descriptor)

/-- The declared names, in the order of their declarations. -/
def declared (draft : SiteDraft) : List String := draft.needs.map Need.input

/-- The pinned names. -/
def pinned (draft : SiteDraft) : List String := draft.pins.map Prod.fst

/-- The last pin of an input. -/
def pin? (draft : SiteDraft) (input : String) : Option Pin := (draft.pins.reverse.find? (·.1 = input)).map Prod.snd

/-- The last default of an input; a declaration without one takes none away. -/
def default? (draft : SiteDraft) (input : String) : Option (View → Demand) :=
  draft.needs.reverse.findSome? fun need => if need.input = input then need.default? else none

/-- The entry that an input is taken from: the target of its last renaming, else the one of its own
    name. One that is pinned to a component is not taken from an entry. -/
def target? (draft : SiteDraft) (input : String) : Option String :=
  match draft.pin? input with
  | none => some input
  | some (.entry target) => some target
  | some (.value _) => none

/-- There is nothing to take an input from: it is not pinned to a component, its entry is not there,
    and it has no default. -/
structure Lacks (draft : SiteDraft) (visible : String → Bool) (input entry : String) : Prop where
  free : draft.target? input = some entry
  hidden : visible entry = false
  plain : draft.default? input = none

/-- What an input is taken from. -/
inductive Takes (draft : SiteDraft) (visible : String → Bool) (input : String) : Source → Prop where
  | pinned {component : Component} (pinned : draft.pin? input = some (.value component)) :
      Takes draft visible input (.ready component)
  | present {entry : String} (free : draft.target? input = some entry) (shown : visible entry = true) :
      Takes draft visible input (.entry entry)
  | absent {entry : String} {body : View → Demand} (free : draft.target? input = some entry)
      (hidden : visible entry = false) (given : draft.default? input = some body) :
      Takes draft visible input (.default body)

end SiteDraft

/-! ### What a draft comes to -/

namespace Descriptor
variable {descriptor : Descriptor} {need : Need} {input : String}

theorem inputs_declare : (descriptor.declare need).inputs =
    if descriptor.inputs.contains need.input then descriptor.inputs else descriptor.inputs ++ [need.input] := by
  cases given : need.default? <;> simp only [declare, given, optional, requires] <;> split <;> rfl

theorem name_declare : (descriptor.declare need).name = descriptor.name := by
  cases given : need.default? <;> simp only [declare, given, optional, requires] <;> split <;> rfl

theorem defaults_requires : (descriptor.requires input).defaults = descriptor.defaults := by
  unfold requires
  split <;> rfl

theorem get?_defaults_declare : Dict.get? (descriptor.declare need).defaults input =
    (if need.input = input then need.default? else none).or (Dict.get? descriptor.defaults input) := by
  cases given : need.default? with
  | none => simp [declare, given, defaults_requires]
  | some default =>
    simp only [declare, given, optional, Dict.get?_insert, eq_comm (a := input)]
    split <;> rfl

/-- The first declared input of a kind is the first declaration of that kind. -/
theorem find?_inputs_foldl (condition : String → Bool) (needs : List Need) (descriptor : Descriptor) :
    (needs.foldl declare descriptor).inputs.find? condition =
      (descriptor.inputs ++ needs.map Need.input).find? condition := by
  induction needs generalizing descriptor with
  | nil => simp
  | cons need rest ih =>
    rw [List.foldl_cons, ih, inputs_declare, List.map_cons]
    split
    next again =>
      -- an input that was declared before is found there, if it is of the kind
      simp only [List.find?_append, List.find?_cons]
      cases before : descriptor.inputs.find? condition with
      | some first => rfl
      | none =>
        have other : condition need.input = false := by
          simpa using List.find?_eq_none.mp before need.input (by simpa using again)
        simp [other]
    next => simp

theorem mem_inputs_foldl (needs : List Need) (descriptor : Descriptor) :
    input ∈ (needs.foldl declare descriptor).inputs ↔ input ∈ descriptor.inputs ∨ input ∈ needs.map Need.input := by
  have found := find?_inputs_foldl (· = input) needs descriptor
  rw [← List.mem_append]
  constructor
  · intro member
    have some := List.find?_isSome (p := (· = input)).mpr ⟨input, member, by simp⟩
    rw [found, List.find?_isSome] at some
    simpa using some
  · intro member
    have some := List.find?_isSome (p := (· = input)).mpr ⟨input, member, by simp⟩
    rw [← found, List.find?_isSome] at some
    simpa using some

theorem name_foldl (needs : List Need) (descriptor : Descriptor) :
    (needs.foldl declare descriptor).name = descriptor.name := by
  induction needs generalizing descriptor with
  | nil => rfl
  | cons need rest ih => rw [List.foldl_cons, ih, name_declare]

theorem get?_defaults_foldl (needs : List Need) (descriptor : Descriptor) :
    Dict.get? (needs.foldl declare descriptor).defaults input =
      (needs.reverse.findSome? fun need => if need.input = input then need.default? else none).or
        (Dict.get? descriptor.defaults input) := by
  induction needs generalizing descriptor with
  | nil => rfl
  | cons need rest ih =>
    rw [List.foldl_cons, ih, get?_defaults_declare, List.reverse_cons, List.findSome?_append, Option.or_assoc]
    congr 1
    simp only [List.findSome?_cons, List.findSome?_nil]
    cases (if need.input = input then need.default? else none) <;> rfl

end Descriptor

namespace CallSite
variable {input : String}

theorem descriptor_foldl (pins : List (String × Pin)) (site : CallSite) :
    (pins.foldl (fun site entry => site.pin entry.1 entry.2) site).descriptor = site.descriptor := by
  induction pins generalizing site with
  | nil => rfl
  | cons entry rest ih => exact ih (site.pin entry.1 entry.2)

theorem get?_pins_foldl (pins : List (String × Pin)) (site : CallSite) :
    Dict.get? (pins.foldl (fun site entry => site.pin entry.1 entry.2) site).pins input =
      ((pins.reverse.find? (·.1 = input)).map Prod.snd).or (Dict.get? site.pins input) := by
  induction pins generalizing site with
  | nil => rfl
  | cons entry rest ih =>
    rw [List.foldl_cons, ih, pin, Dict.get?_insert, List.reverse_cons, List.find?_append, Option.map_or,
      Option.or_assoc]
    congr 1
    by_cases same : entry.1 = input
    · simp [same]
    · simp [same, Ne.symm same]

theorem ascending_pins_foldl (pins : List (String × Pin)) {site : CallSite} (ascends : Dict.Ascending site.pins) :
    Dict.Ascending (pins.foldl (fun site entry => site.pin entry.1 entry.2) site).pins := by
  induction pins generalizing site with
  | nil => exact ascends
  | cons entry rest ih => exact ih (ascends.insert entry.1 entry.2)

end CallSite

namespace SiteDraft
variable {draft : SiteDraft} {visible : String → Bool} {input : String}

theorem descriptor_build (draft : SiteDraft) : draft.build.descriptor = draft.descriptor :=
  CallSite.descriptor_foldl draft.pins (.new draft.descriptor)

theorem name_build (draft : SiteDraft) : draft.build.descriptor.name = draft.name := by
  rw [descriptor_build]
  exact Descriptor.name_foldl draft.needs (.new draft.name draft.role draft.construct)

theorem mem_inputs_build : input ∈ draft.build.descriptor.inputs ↔ input ∈ draft.declared := by
  rw [descriptor_build, descriptor, Descriptor.mem_inputs_foldl]
  simp [Descriptor.new, declared]

theorem find?_inputs_build (draft : SiteDraft) (condition : String → Bool) :
    draft.build.descriptor.inputs.find? condition = draft.declared.find? condition := by
  rw [descriptor_build, descriptor, Descriptor.find?_inputs_foldl]
  rfl

theorem get?_defaults_build (draft : SiteDraft) (input : String) :
    Dict.get? draft.build.descriptor.defaults input = draft.default? input := by
  rw [descriptor_build, descriptor, Descriptor.get?_defaults_foldl]
  exact Option.or_none

theorem get?_pins_build (draft : SiteDraft) (input : String) : Dict.get? draft.build.pins input = draft.pin? input := by
  rw [build, CallSite.get?_pins_foldl]
  exact Option.or_none

theorem mem_keys_build : input ∈ Dict.keys draft.build.pins ↔ input ∈ draft.pinned := by
  rw [Dict.mem_keys, get?_pins_build, pin?, Option.isSome_map, List.find?_isSome]
  simp [pinned]

theorem entryFor_build {entry : String} (free : draft.target? input = some entry) :
    draft.build.entryFor input = entry := by
  unfold target? at free
  unfold CallSite.entryFor
  rw [get?_pins_build]
  split at free <;> simp_all

theorem target?_eq_some (free : ∀ component, draft.pin? input ≠ some (.value component)) :
    draft.target? input = some (draft.build.entryFor input) := by
  unfold target? CallSite.entryFor
  rw [get?_pins_build]
  split <;> simp_all

theorem lacks_build_iff : draft.build.Lacks visible input ↔ draft.Lacks visible input (draft.build.entryFor input) := by
  constructor
  · rintro ⟨unpinned, hidden, plain⟩
    simp only [get?_pins_build] at unpinned
    exact ⟨target?_eq_some unpinned, hidden, by rwa [get?_defaults_build] at plain⟩
  · rintro ⟨free, hidden, plain⟩
    refine ⟨fun component pinned => ?_, hidden, by rwa [get?_defaults_build]⟩
    rw [get?_pins_build] at pinned
    simp [target?, pinned] at free

theorem not_lacks (supplied : ¬ draft.build.Lacks visible input) (entry : String) :
    ¬ draft.Lacks visible input entry := by
  intro lacks
  obtain rfl := entryFor_build lacks.free
  exact supplied (lacks_build_iff.mpr lacks)

theorem takes_of_source {source : Source} (found : draft.build.source visible input = .ok source) :
    draft.Takes visible input source := by
  unfold CallSite.source at found
  simp only [get?_pins_build, get?_defaults_build] at found
  split at found
  next component pinned =>
    cases found
    exact .pinned pinned
  next free =>
    have entry := target?_eq_some free
    split at found
    next shown =>
      cases found
      exact .present entry shown
    next hidden =>
      have hidden : visible (draft.build.entryFor input) = false := by simpa using hidden
      split at found
      next body given =>
        cases found
        exact .absent entry hidden given
      next => cases found

end SiteDraft

/-! ### States of a composition -/

namespace Machine
section
variable {machine machine' : Machine}

/-- What happens to the cells at once: nothing, or one gets further, or one is made. -/
inductive Restocks (machine machine' : Machine) : Prop where
  | same (cells : machine'.cells = machine.cells)
  | turned (cell : CellId) (progress : Progress) (cells : machine'.cells = (machine.setCell cell progress).cells)
  | made (origin : Origin) (input : String) (view : View) (body : Demand)
      (cells : machine'.cells = (machine.allot origin input view body).1.cells)

theorem restocks_step (machine : Machine) (id : ThreadId) (thread : Thread) :
    machine.Restocks (machine.step id thread).1 := by
  obtain ⟨control, frames⟩ := thread
  cases control with
  | meet demand =>
    simp only [Machine.step]
    fun_cases Machine.meet machine ⟨.meet demand, frames⟩ demand with
    | case15 input view body next larger cell made =>
      cases made
      exact .made _ input view body rfl
    | _ => exact .same rfl
  | enter slot =>
    simp only [Machine.step]
    fun_cases Machine.enter machine id ⟨.enter slot, frames⟩ slot with
    | _ => exact .same rfl
  | fill cell =>
    simp only [Machine.step]
    fun_cases Machine.fill machine id ⟨.fill cell, frames⟩ cell with
    | case4 => exact .turned cell _ rfl
    | _ => exact .same rfl
  | yield outcome =>
    cases frames with
    | nil => exact .same rfl
    | cons frame frames =>
      cases frame with
      | cell cell => exact .turned cell _ rfl
      | _ => exact .same rfl
  | unwind =>
    cases frames with
    | nil => exact .same rfl
    | cons frame frames =>
      cases frame with
      | cell cell => exact .turned cell _ rfl
      | _ => exact .same rfl
  | blocked slot => exact .same rfl
  | paused demand => exact .same rfl

theorem bindAll_keeps {holds : Machine → Prop}
    (kept : ∀ {machine machine'}, holds machine → machine.Restocks machine' → holds machine') (view : View)
    (sources : List (String × Source)) (here : holds machine) : holds (machine.bindAll view sources).1 := by
  induction sources generalizing machine with
  | nil => exact here
  | cons entry rest ih =>
    obtain ⟨input, source⟩ := entry
    cases source with
    | entry name => exact ih here
    | ready component => exact ih here
    | default body => exact ih (kept here (.made .outside input view (body view) rfl))

theorem inject_eq_ok {site : CallSite} {view : View} {inputs : Inputs}
    (injects : machine.inject site view = .ok (machine', inputs)) :
    ∃ sources, site.sources (fun name => (machine.top? view name).isSome) = .ok sources ∧
      machine' = (machine.bindAll view sources).1 ∧
      inputs = ⟨site.descriptor.name, view, (machine.bindAll view sources).2⟩ := by
  unfold inject at injects
  cases found : site.sources (fun name => (machine.top? view name).isSome) with
  | error error => simp [found, bind, Except.bind] at injects
  | ok sources =>
    simp only [found, bind, Except.bind, Except.ok.injEq, Prod.mk.injEq] at injects
    exact ⟨sources, rfl, injects.1.symm, injects.2.symm⟩

end

/-- The states that a composition can come to from one, its threads being anywhere: a thread moves,
    inputs are injected from outside, and all else but the cells changes. -/
inductive Becomes (start : Machine) : Machine → Prop where
  | refl : Becomes start start
  | step {machine : Machine} (before : Becomes start machine) (id : ThreadId) (thread : Thread) :
      Becomes start (machine.step id thread).1
  | inject {machine machine' : Machine} {site : CallSite} {view : View} {inputs : Inputs}
      (before : Becomes start machine) (injects : machine.inject site view = .ok (machine', inputs)) :
      Becomes start machine'
  | changes {machine machine' : Machine} (before : Becomes start machine) (cells : machine'.cells = machine.cells) :
      Becomes start machine'

/-- A composition begins without cells. -/
def Arises (machine : Machine) : Prop := ∃ start : Machine, start.cells = [] ∧ start.Becomes machine

section
variable {machine machine' : Machine}

/-- What holds on as cells get further and are made holds in all later states. -/
theorem Becomes.keeps {holds : Machine → Prop} (becomes : machine.Becomes machine')
    (kept : ∀ {machine machine'}, holds machine → machine.Restocks machine' → holds machine') (here : holds machine) :
    holds machine' := by
  induction becomes with
  | refl => exact here
  | step _ id thread ih => exact kept ih (restocks_step _ id thread)
  | inject _ injects ih =>
    obtain ⟨sources, _, rfl, _⟩ := inject_eq_ok injects
    exact bindAll_keeps kept _ sources ih
  | changes _ cells ih => exact kept ih (.same cells)

/-- The cells of a computation are numbered from the first on, so the next number is free. -/
def Numbered (machine : Machine) : Prop :=
  ∀ cell content, machine.cell? cell = some content → cell.number < machine.cellsMade cell.origin

theorem Numbered.restocks (numbered : machine.Numbered) (restocks : machine.Restocks machine') : machine'.Numbered := by
  intro other content found
  cases restocks with
  | same cells =>
    simp only [cell?, cellsMade, cells] at found ⊢
    exact numbered other content found
  | turned cell progress cells =>
    have found : (machine.setCell cell progress).cell? other = some content := by rwa [cell?, ← cells]
    have made : machine'.cellsMade other.origin = machine.cellsMade other.origin := by
      rw [← cellsMade_setCell machine cell progress, cellsMade, cellsMade, cells]
    rw [made]
    rw [cell?_setCell] at found
    split at found
    next same =>
      obtain ⟨content', found', _⟩ := Option.map_eq_some_iff.mp found
      exact numbered other content' (same ▸ found')
    next => exact numbered other content found
  | made origin input view body cells =>
    have found : (machine.allot origin input view body).1.cell? other = some content := by rwa [cell?, ← cells]
    have made : machine'.cellsMade other.origin =
        machine.cellsMade other.origin + if other.origin = origin then 1 else 0 := by
      rw [← cellsMade_allot machine origin input view body, cellsMade, cellsMade, cells]
    rw [made]
    rw [cell?_allot, Option.or_eq_some_iff] at found
    rcases found with old | ⟨_, new⟩
    · have := numbered other content old
      omega
    · split at new
      next same =>
        subst same
        simp
      next => cases new

theorem Numbered.allot (numbered : machine.Numbered) (origin : Origin) (input : String) (view : View) (body : Demand) :
    (machine.allot origin input view body).1.Numbered :=
  numbered.restocks (.made origin input view body rfl)

/-- A cell that is made was not there. -/
theorem Numbered.cell?_next (numbered : machine.Numbered) (origin : Origin) :
    machine.cell? ⟨origin, machine.cellsMade origin⟩ = none := by
  cases found : machine.cell? ⟨origin, machine.cellsMade origin⟩ with
  | none => rfl
  | some content => exact absurd (numbered _ content found) (Nat.lt_irrefl _)

theorem Arises.numbered (arises : machine.Arises) : machine.Numbered := by
  obtain ⟨start, none, becomes⟩ := arises
  refine becomes.keeps Numbered.restocks fun cell content found => ?_
  simp [cell?, none] at found

/-- A cell is for a default of an input, in an environment. -/
def Stores (machine : Machine) (cell : CellId) (input : String) (env : EnvId) (body : Demand) : Prop :=
  ∃ progress, machine.cell? cell = some ⟨input, env, body, progress⟩

theorem Stores.restocks {cell : CellId} {input : String} {env : EnvId} {body : Demand}
    (stores : machine.Stores cell input env body) (restocks : machine.Restocks machine') :
    machine'.Stores cell input env body := by
  obtain ⟨progress, found⟩ := stores
  cases restocks with
  | same cells => exact ⟨progress, by rw [cell?, cells]; exact found⟩
  | turned other after cells =>
    have same : machine'.cell? cell = (machine.setCell other after).cell? cell := by rw [cell?, cells, cell?]
    unfold Stores
    rw [same, cell?_setCell]
    split
    next here => exact ⟨after, by rw [← here, found]; rfl⟩
    next => exact ⟨progress, found⟩
  | made origin input' view body' cells =>
    have same : machine'.cell? cell = (machine.allot origin input' view body').1.cell? cell := by
      rw [cell?, cells, cell?]
    exact ⟨progress, by rw [same, cell?_allot, found]; rfl⟩

end
end Machine

/-! ### Asking for a source -/

namespace Machine

/-- A thread that meets a demand comes to meet another one, and nothing else happens. -/
def ComesTo (machine : Machine) (demand asked : Demand) : Prop :=
  ∀ (id : ThreadId) (frames : List Frame), ∃ moves,
    moved id machine ⟨.meet demand, frames⟩ moves = (machine, ⟨.meet asked, frames⟩)

/-- A thread that meets a demand takes up a cell: it comes to meet the default, stores the outcome of
    that in the cell, and goes on with it where it was. -/
def TakesUp (machine : Machine) (demand : Demand) (cell : CellId) (body : Demand) : Prop :=
  ∀ (id : ThreadId) (frames : List Frame), ∃ above,
    (∃ moves, moved id machine ⟨.meet demand, frames⟩ moves =
      (machine.setCell cell (.running id), ⟨.meet body, above ++ frames⟩)) ∧
    ∀ later outcome, ∃ moves, moved id later ⟨.yield outcome, above ++ frames⟩ moves =
      (later.setCell cell (.done outcome), ⟨.yield outcome, frames⟩)

/-- A thread that meets a demand comes to wait for a cell. -/
def WaitsFor (machine : Machine) (demand : Demand) (cell : CellId) : Prop :=
  ∀ (id : ThreadId) (frames : List Frame), ∃ above moves,
    moved id machine ⟨.meet demand, frames⟩ moves = (machine, ⟨.fill cell, above ++ frames⟩) ∧
    machine.standing id ⟨.fill cell, above ++ frames⟩ = .waiting

/-- What asking for an input gives, by what it is taken from: the entry as it is in its environment,
    the component, or the default. The outcome of the default is kept when it was asked for first, and
    is the answer from then on; in between, others wait. -/
inductive Supplies (machine : Machine) (view : View) (input : String) (asks : Demand) : Source → Binding → Prop where
  | entry (name : String) (comes : machine.ComesTo asks (.get view name .done)) :
      Supplies machine view input asks (.entry name) (.entry name)
  | ready (component : Component) (comes : machine.ComesTo asks (.pure component)) :
      Supplies machine view input asks (.ready component) (.ready component)
  | unused {body : View → Demand} {cell : CellId}
      (found : machine.cell? cell = some ⟨input, view.env, body view, .pending⟩)
      (takes : machine.TakesUp asks cell (body view)) :
      Supplies machine view input asks (.default body) (.default cell)
  | computing {body : View → Demand} {cell : CellId} {owner : ThreadId}
      (found : machine.cell? cell = some ⟨input, view.env, body view, .running owner⟩)
      (waits : machine.WaitsFor asks cell) :
      Supplies machine view input asks (.default body) (.default cell)
  | used {body : View → Demand} {cell : CellId} {outcome : Outcome}
      (found : machine.cell? cell = some ⟨input, view.env, body view, .done outcome⟩)
      (comes : machine.ComesTo asks (.done outcome)) :
      Supplies machine view input asks (.default body) (.default cell)

end Machine

/-- A binding stands for a source: it is the same entry or component, or a cell for the default that
    was not used yet. -/
inductive Binding.Draws (machine : Machine) (view : View) (input : String) : Source → Binding → Prop where
  | entry (name : String) : Draws machine view input (.entry name) (.entry name)
  | ready (component : Component) : Draws machine view input (.ready component) (.ready component)
  | default {body : View → Demand} {cell : CellId}
      (unused : machine.cell? cell = some ⟨input, view.env, body view, .pending⟩) :
      Draws machine view input (.default body) (.default cell)

section
variable {machine machine' : Machine} {view : View} {input : String} {environment : Environment}

namespace Machine

theorem ComesTo.refl (machine : Machine) (demand : Demand) : machine.ComesTo demand demand := fun _ _ => ⟨0, rfl⟩

/-- A demand that follows at once. -/
theorem ComesTo.of_meet {demand asked : Demand}
    (follows : ∀ frames, machine.meet ⟨.meet demand, frames⟩ demand = (machine, ⟨.meet asked, frames⟩)) :
    machine.ComesTo demand asked :=
  fun _ _ => ⟨1, follows _⟩

/-- A cell for a default answers for it, however far it is. -/
theorem Stores.supplies {cell : CellId} {body : View → Demand} (stores : machine.Stores cell input view.env (body view))
    (living : machine.environment? view.env = some environment) :
    machine.Supplies view input (.force (.default input cell) .done) (.default body) (.default cell) := by
  obtain ⟨progress, found⟩ := stores
  cases progress with
  | pending =>
    refine .unused found fun id frames => ⟨[.cell cell, .resume .done], ⟨2, ?_⟩, fun _ _ => ⟨3, rfl⟩⟩
    simp [moved, Machine.step, Machine.meet, Machine.fill, Thread.push, found, cellDemand, living]
  | running owner =>
    refine .computing found fun id frames => ⟨[.resume .done], 1, rfl, ?_⟩
    simp [standing, isFilling, found]
  | done outcome =>
    refine .used found fun id frames => ⟨3, ?_⟩
    simp [moved, Machine.step, Machine.meet, Machine.fill, Thread.push, Thread.turn, found, handOver]

end Machine

namespace Binding
variable {source : Source} {binding : Binding}

theorem Draws.allot (draws : binding.Draws machine view input source) (origin : Origin) (other : String) (view' : View)
    (body : Demand) : binding.Draws (machine.allot origin other view' body).1 view input source := by
  cases draws with
  | entry name => exact .entry name
  | ready component => exact .ready component
  | default unused => exact .default (by simp [cell?_allot, unused])

theorem draws_allot (numbered : machine.Numbered) (origin : Origin) (view : View) (input : String)
    (body : View → Demand) :
    (Binding.default (machine.allot origin input view (body view)).2).Draws
      (machine.allot origin input view (body view)).1 view input (.default body) := by
  refine .default ?_
  change (machine.allot origin input view (body view)).1.cell? ⟨origin, machine.cellsMade origin⟩ = _
  rw [cell?_allot, numbered.cell?_next]
  simp

end Binding

/-- Inputs supply a name from a source, from a state on: asked for, and by a reference. -/
def Inputs.Provides (inputs : Inputs) (machine : Machine) (input : String) (source : Source) : Prop :=
  ∃ binding reference, Dict.get? inputs.bindings input = some binding ∧ binding.Draws machine inputs.view input source ∧
    inputs.lazy input = .pure (.lazy reference) ∧
    ∀ {later environment}, machine.Becomes later → later.environment? inputs.view.env = some environment →
      later.Supplies inputs.view input (inputs.get input) source binding ∧
      later.Supplies inputs.view input (.force reference .done) source binding

theorem Binding.Draws.provides {source : Source} {binding : Binding} {inputs : Inputs}
    (draws : binding.Draws machine inputs.view input source) (bound : Dict.get? inputs.bindings input = some binding) :
    inputs.Provides machine input source := by
  cases draws with
  | entry name =>
    refine ⟨_, .entry inputs.view name, bound, .entry name, by rw [Inputs.lazy, bound], fun _ living => ⟨?_, ?_⟩⟩
    · rw [Inputs.get, bound]
      exact .entry name (.refl _ _)
    · refine .entry name (.of_meet fun frames => ?_)
      simp only [Machine.meet, living]
      rfl
  | ready component =>
    refine ⟨_, .ready component, bound, .ready component, by rw [Inputs.lazy, bound], fun _ _ => ⟨?_, ?_⟩⟩
    · rw [Inputs.get, bound]
      exact .ready component (.refl _ _)
    · exact .ready component (.of_meet fun _ => rfl)
  | @default body cell unused =>
    refine ⟨_, .default input cell, bound, .default unused, by rw [Inputs.lazy, bound], fun becomes living => ?_⟩
    have stores := becomes.keeps Stores.restocks ⟨.pending, unused⟩
    rw [Inputs.get, bound]
    exact ⟨stores.supplies living, stores.supplies living⟩

/-! ### Binding one input after another -/

theorem Machine.moved_has (living : machine.environment? view.env = some environment) (id : ThreadId) (name : String)
    (next : Bool → Demand) (frames : List Frame) (moves : Nat) :
    moved id machine ⟨.meet (.has view name next), frames⟩ (moves + 1) =
      moved id machine ⟨.meet (next (environment.contains view.role name)), frames⟩ moves := by
  simp only [moved, Machine.step, Machine.meet, top?_isSome living, Thread.turn]

/-- A cell belongs to the innermost computation of the thread that makes it. -/
theorem Machine.moved_allot (machine : Machine) (id : ThreadId) (input : String) (view : View) (body : Demand)
    (next : CellId → Demand) (frames : List Frame) (moves : Nat) :
    let made := machine.allot ((frames.findSome? Frame.origin?).getD .outside) input view body
    moved id machine ⟨.meet (.allot input view body next), frames⟩ (moves + 1) =
      moved id made.1 ⟨.meet (next made.2), frames⟩ moves := rfl

theorem Machine.Idles.refl (machine : Machine) : machine.Idles machine := ⟨rfl, rfl, rfl, rfl, [], by simp⟩

theorem Machine.Idles.after_allot {origin : Origin} {body : Demand}
    (idles : (machine.allot origin input view body).1.Idles machine') : machine.Idles machine' := by
  obtain ⟨environments, slots, waits, journal, made, cells, pending⟩ := idles
  exact ⟨environments, slots, waits, journal, _ :: made, cells.trans (List.append_assoc ..),
    List.forall_mem_cons.mpr ⟨rfl, pending⟩⟩

namespace CallSite
variable {site : CallSite} {visible : String → Bool} {inputs : List String} {bindings : Dict Binding}

/-- Some inputs and no others are bound, each to what stands for its source. -/
structure Bound (site : CallSite) (visible : String → Bool) (machine : Machine) (view : View) (inputs : List String)
    (bindings : Dict Binding) : Prop where
  bound : ∀ input ∈ inputs, ∃ source binding, site.source visible input = .ok source ∧
    Dict.get? bindings input = some binding ∧ binding.Draws machine view input source
  others : ∀ input ∉ inputs, Dict.get? bindings input = none

theorem Bound.nil (site : CallSite) (visible : String → Bool) (machine : Machine) (view : View) :
    site.Bound visible machine view [] [] := ⟨by simp, fun _ _ => rfl⟩

theorem Bound.allot (bound : site.Bound visible machine view inputs bindings) (origin : Origin) (body : Demand) :
    site.Bound visible (machine.allot origin input view body).1 view inputs bindings := by
  refine ⟨fun other member => ?_, bound.others⟩
  obtain ⟨source, binding, found, at', draws⟩ := bound.bound other member
  exact ⟨source, binding, found, at', draws.allot origin input view body⟩

/-- One more input is bound, in place of what it was bound to before. -/
theorem Bound.insert {inputs' : List String} {source : Source} {binding : Binding}
    (bound : site.Bound visible machine view inputs bindings) (found : site.source visible input = .ok source)
    (draws : binding.Draws machine view input source)
    (more : ∀ other, other ∈ inputs' ↔ other = input ∨ other ∈ inputs) :
    site.Bound visible machine view inputs' (Dict.insert bindings input binding) := by
  constructor
  · intro other member
    rw [Dict.get?_insert]
    split
    next same => exact ⟨source, binding, same ▸ found, rfl, same ▸ draws⟩
    next apart => exact bound.bound other (((more other).mp member).resolve_left apart)
  · intro other absent
    rw [more, not_or] at absent
    rw [Dict.get?_insert, if_neg absent.1]
    exact bound.others other absent.2

/-- How an injection ends: with its failure, or with all declared inputs bound. -/
inductive Injects (site : CallSite) (visible : String → Bool) (machine : Machine) (view : View) :
    Except ComposeError Inputs → Prop where
  | fails {error : ComposeError} (fails : site.Fails visible error) : Injects site visible machine view (.error error)
  | binds {bindings : Dict Binding} (free : ∀ error, ¬ site.Fails visible error)
      (bound : site.Bound visible machine view site.descriptor.inputs bindings) :
      Injects site visible machine view (.ok ⟨site.descriptor.name, view, bindings⟩)

theorem not_lacks_of_source {source : Source} (found : site.source visible input = .ok source) :
    ¬ site.Lacks visible input := by
  intro lacks
  rw [source_eq_error_iff.mpr ⟨lacks, rfl⟩] at found
  cases found

/-- An injection does not fail if all pins are declared and all inputs have sources. -/
theorem not_fails (declared : ∀ other ∈ Dict.keys site.pins, other ∈ site.descriptor.inputs)
    (supplied : ∀ input ∈ site.descriptor.inputs, ∃ source, site.source visible input = .ok source)
    (error : ComposeError) : ¬ site.Fails visible error := by
  intro fails
  cases fails with
  | undeclared pins first unknown => exact unknown (declared _ (by simp [pins]))
  | @missing _ _ input _ split first lacks =>
    obtain ⟨source, found⟩ := supplied input (by simp [split])
    exact not_lacks_of_source found lacks

section
variable {component : Component} (pinned : Dict.get? site.pins input = some (.value component))
include pinned

theorem source_of_pinned (visible : String → Bool) : site.source visible input = .ok (.ready component) := by
  simp [source, pinned]

theorem bindInputs_of_pinned (view : View) (next : Except ComposeError Inputs → Demand) (rest : List String)
    (bindings : Dict Binding) : site.bindInputs view next (input :: rest) bindings =
      site.bindInputs view next rest (Dict.insert bindings input (.ready component)) := by
  simp [bindInputs, pinned]

end

section
variable (free : ∀ component, Dict.get? site.pins input ≠ some (.value component))
include free

theorem source_of_free (visible : String → Bool) : site.source visible input =
    if visible (site.entryFor input) then .ok (.entry (site.entryFor input))
    else match Dict.get? site.descriptor.defaults input with
      | some body => .ok (.default body)
      | none => .error (.missingInput site.descriptor.name (site.entryFor input)) := by
  unfold source
  split
  next component pinned => exact absurd pinned (free component)
  next => rfl

theorem bindInputs_of_free (view : View) (next : Except ComposeError Inputs → Demand) (rest : List String)
    (bindings : Dict Binding) : site.bindInputs view next (input :: rest) bindings =
      .has view (site.entryFor input) fun
        | true => site.bindInputs view next rest (Dict.insert bindings input (.entry (site.entryFor input)))
        | false =>
          match Dict.get? site.descriptor.defaults input with
          | some body => .allot input view (body view) fun cell =>
            site.bindInputs view next rest (Dict.insert bindings input (.default cell))
          | none => next (.error (.missingInput site.descriptor.name (site.entryFor input))) := by
  rw [bindInputs]
  split
  next component pinned => exact absurd pinned (free component)
  next => rfl

end

/-- A thread that binds inputs one after another asks only which names are there, and makes cells. -/
private theorem bindInputs_moved (declared : ∀ other ∈ Dict.keys site.pins, other ∈ site.descriptor.inputs)
    (id : ThreadId) (frames : List Frame) (rest : List String) : ∀ (machine : Machine) (before : List String)
      (bindings : Dict Binding), machine.environment? view.env = some environment → machine.Numbered →
      site.descriptor.inputs = before ++ rest →
      site.Bound (environment.contains view.role) machine view before bindings →
      ∃ machine' result moves,
        (∀ next, moved id machine ⟨.meet (site.bindInputs view next rest bindings), frames⟩ moves =
          (machine', ⟨.meet (next result), frames⟩)) ∧
        machine.Idles machine' ∧ site.Injects (environment.contains view.role) machine' view result := by
  induction rest with
  | nil =>
    intro machine before bindings living numbered split bound
    rw [List.append_nil] at split
    have supplied : ∀ input ∈ site.descriptor.inputs,
        ∃ source, site.source (environment.contains view.role) input = .ok source := by
      intro input member
      obtain ⟨source, _, found, _⟩ := bound.bound input (split ▸ member)
      exact ⟨source, found⟩
    exact ⟨machine, _, 0, fun _ => rfl, .refl machine, .binds (not_fails declared supplied) (split ▸ bound)⟩
  | cons input rest ih =>
    intro machine before bindings living numbered split bound
    have split' : site.descriptor.inputs = (before ++ [input]) ++ rest := by simpa using split
    have more (other : String) : other ∈ before ++ [input] ↔ other = input ∨ other ∈ before := by simp [or_comm]
    by_cases pinned : ∃ component, Dict.get? site.pins input = some (.value component)
    · obtain ⟨component, pinned⟩ := pinned
      have bound' := bound.insert (source_of_pinned pinned _) (.ready component) more
      obtain ⟨machine', result, moves, goes, idles, injects⟩ := ih machine _ _ living numbered split' bound'
      exact ⟨machine', result, moves, fun next => by rw [bindInputs_of_pinned pinned, goes], idles, injects⟩
    · have free : ∀ component, Dict.get? site.pins input ≠ some (.value component) := fun component here =>
        pinned ⟨component, here⟩
      have source := source_of_free free (environment.contains view.role)
      cases shown : environment.contains view.role (site.entryFor input) with
      | true =>
        rw [if_pos shown] at source
        have bound' := bound.insert source (.entry _) more
        obtain ⟨machine', result, moves, goes, idles, injects⟩ := ih machine _ _ living numbered split' bound'
        refine ⟨machine', result, moves + 1, fun next => ?_, idles, injects⟩
        rw [bindInputs_of_free free, moved_has living, shown, goes]
      | false =>
        rw [shown, if_neg Bool.false_ne_true] at source
        cases given : Dict.get? site.descriptor.defaults input with
        | some body =>
          rw [given] at source
          let origin := (frames.findSome? Frame.origin?).getD .outside
          have draws := Binding.draws_allot numbered origin view input body
          have bound' := (bound.allot origin (body view)).insert source draws more
          obtain ⟨machine', result, moves, goes, idles, injects⟩ :=
            ih (machine.allot origin input view (body view)).1 _ _ living (numbered.allot origin input view (body view))
              split' bound'
          refine ⟨machine', result, moves + 2, fun next => ?_, idles.after_allot, injects⟩
          rw [bindInputs_of_free free, moved_has living, shown, given]
          exact (moved_allot machine id input view (body view) _ frames moves).trans (goes next)
        | none =>
          rw [given] at source
          have first : ∀ other ∈ before, ¬ site.Lacks (environment.contains view.role) other := by
            intro other member
            obtain ⟨_, _, found, _⟩ := bound.bound other member
            exact not_lacks_of_source found
          have fails := Fails.missing declared split first ⟨free, shown, given⟩
          refine ⟨machine, _, 1, fun next => ?_, .refl machine, .fails fails⟩
          rw [bindInputs_of_free free, moved_has living, shown, given]
          rfl

/-- A thread that injects a call site comes to its end, and all that happens is that cells are made. -/
theorem resolve_moved (site : CallSite) (living : machine.environment? view.env = some environment)
    (numbered : machine.Numbered) (id : ThreadId) (frames : List Frame) :
    ∃ machine' result moves,
      (∀ next, moved id machine ⟨.meet (site.resolve view next), frames⟩ moves =
        (machine', ⟨.meet (next result), frames⟩)) ∧
      machine.Idles machine' ∧ site.Injects (environment.contains view.role) machine' view result := by
  unfold resolve
  cases pins : site.undeclaredPin? with
  | some input =>
    obtain ⟨unknown, before, after, split, first⟩ := undeclaredPin?_eq_some.mp pins
    exact ⟨machine, _, 0, fun _ => rfl, .refl machine, .fails (.undeclared split first unknown)⟩
  | none =>
    exact bindInputs_moved (undeclaredPin?_eq_none.mp pins) id frames _ machine [] [] living numbered rfl (.nil ..)

/-! ### Injecting from outside -/

/-- What is made of items one after another is made of each of them. -/
private theorem forall₂_of_mapM {α β ε : Type} {f : α → Except ε β} {items : List α} {made : List β}
    (all : items.mapM f = .ok made) : List.Forall₂ (fun item result => f item = .ok result) items made := by
  induction items generalizing made with
  | nil =>
    cases all
    exact .nil
  | cons first rest ih =>
    rw [List.mapM_cons] at all
    cases head : f first with
    | error error => simp [head, bind, Except.bind] at all
    | ok result =>
      cases tail : rest.mapM f with
      | error error => simp [head, tail, bind, Except.bind] at all
      | ok others =>
        simp only [head, tail, bind, Except.bind, pure, Except.pure, Except.ok.injEq] at all
        subst all
        exact .cons head (ih tail)

private theorem bindAll_binds (view : View) (sources : List (String × Source)) (numbered : machine.Numbered)
    (found : ∀ entry ∈ sources, site.source visible entry.1 = .ok entry.2) :
    machine.Idles (machine.bindAll view sources).1 ∧
      site.Bound visible (machine.bindAll view sources).1 view (sources.map Prod.fst) (machine.bindAll view sources).2 ∧
      ∀ input source binding, Binding.Draws machine view input source binding →
        Binding.Draws (machine.bindAll view sources).1 view input source binding := by
  induction sources generalizing machine with
  | nil => exact ⟨.refl machine, .nil .., fun _ _ _ draws => draws⟩
  | cons entry rest ih =>
    obtain ⟨input, source⟩ := entry
    obtain ⟨first, others⟩ := List.forall_mem_cons.mp found
    have more (other : String) :
        other ∈ ((input, source) :: rest).map Prod.fst ↔ other = input ∨ other ∈ rest.map Prod.fst := by
      simp
    cases source with
    | entry name =>
      obtain ⟨idles, bound, keeps⟩ := ih numbered others
      exact ⟨idles, bound.insert first (.entry name) more, keeps⟩
    | ready component =>
      obtain ⟨idles, bound, keeps⟩ := ih numbered others
      exact ⟨idles, bound.insert first (.ready component) more, keeps⟩
    | default body =>
      obtain ⟨idles, bound, keeps⟩ := ih (numbered.allot .outside input view (body view)) others
      refine ⟨idles.after_allot, bound.insert first (keeps _ _ _ (Binding.draws_allot numbered _ view input body)) more,
        fun _ _ _ draws => keeps _ _ _ (draws.allot ..)⟩

theorem sources_eq_ok {sources : List (String × Source)} (found : site.sources visible = .ok sources) :
    (∀ other ∈ Dict.keys site.pins, other ∈ site.descriptor.inputs) ∧ sources.map Prod.fst = site.descriptor.inputs ∧
      ∀ entry ∈ sources, site.source visible entry.1 = .ok entry.2 := by
  unfold CallSite.sources at found
  cases pins : site.undeclaredPin? with
  | some input => simp [pins] at found
  | none =>
    simp only [pins] at found
    have each := forall₂_of_mapM found
    refine ⟨undeclaredPin?_eq_none.mp pins, ?_⟩
    clear found
    generalize site.descriptor.inputs = inputs at each
    induction each with
    | nil => simp
    | @cons input entry _ _ here _ ih =>
      obtain ⟨source, at', rfl⟩ : ∃ source, site.source visible input = .ok source ∧ (input, source) = entry := by
        cases at' : site.source visible input <;> simp_all [bind, Except.bind]
      exact ⟨by rw [List.map_cons, ih.1], List.forall_mem_cons.mpr ⟨at', ih.2⟩⟩

/-- An injection from outside of any computation ends as one in a thread does. -/
theorem inject_injects (site : CallSite) (living : machine.environment? view.env = some environment)
    (numbered : machine.Numbered) :
    ∃ machine' result, machine.inject site view = result.map (fun inputs => (machine', inputs)) ∧
      machine.Idles machine' ∧ site.Injects (environment.contains view.role) machine' view result := by
  have shown : (fun name => (machine.top? view name).isSome) = environment.contains view.role :=
    funext (top?_isSome living)
  unfold inject
  rw [shown]
  cases found : site.sources (environment.contains view.role) with
  | error error => exact ⟨machine, .error error, rfl, .refl machine, .fails (sources_eq_error_iff.mp found)⟩
  | ok sources =>
    obtain ⟨declared, inputs, each⟩ := sources_eq_ok found
    obtain ⟨idles, bound, _⟩ := bindAll_binds view sources numbered each
    rw [inputs] at bound
    refine ⟨_, _, rfl, idles, .binds (not_fails declared fun input member => ?_) bound⟩
    obtain ⟨source, _, given, _⟩ := bound.bound input member
    exact ⟨source, given⟩

end CallSite

/-! ### Injecting what a draft comes to -/

namespace SiteDraft

/-- How the injection of a draft ends: with the least pinned name that is not declared, or else with
    the entry that is missing for the first declaration that there is nothing for, or else with the
    declared inputs and no others, each provided from its source. -/
inductive Resolves (draft : SiteDraft) (visible : String → Bool) (machine : Machine) (view : View) :
    Except ComposeError Inputs → Prop where
  | undeclared {input : String} (pinned : input ∈ draft.pinned) (unknown : input ∉ draft.declared)
      (least : ∀ other ∈ draft.pinned, other ∉ draft.declared → input ≤ other) :
      Resolves draft visible machine view (.error (.undeclaredInput draft.name input))
  | missing {before after : List Need} {need : Need} {entry : String}
      (known : ∀ input ∈ draft.pinned, input ∈ draft.declared) (needs : draft.needs = before ++ need :: after)
      (first : ∀ other ∈ before, ∀ entry, ¬ draft.Lacks visible other.input entry)
      (lacks : draft.Lacks visible need.input entry) :
      Resolves draft visible machine view (.error (.missingInput draft.name entry))
  | bound {inputs : Inputs} (known : ∀ input ∈ draft.pinned, input ∈ draft.declared)
      (supplied : ∀ input ∈ draft.declared, ∀ entry, ¬ draft.Lacks visible input entry)
      (component : inputs.component = draft.name) (looks : inputs.view = view)
      (each : ∀ input ∈ draft.declared, ∃ source,
        draft.Takes visible input source ∧ inputs.Provides machine input source)
      (others : ∀ input ∉ draft.declared, inputs.get input = .fail (.undeclaredInput draft.name input) ∧
        inputs.lazy input = .fail (.undeclaredInput draft.name input)) :
      Resolves draft visible machine view (.ok inputs)

variable {draft : SiteDraft} {visible : String → Bool}

theorem known_iff : (∀ input ∈ draft.pinned, input ∈ draft.declared) ↔
    ∀ input ∈ Dict.keys draft.build.pins, input ∈ draft.build.descriptor.inputs := by
  simp only [mem_keys_build, mem_inputs_build]

/-- The first pin that is not declared is the least one. -/
theorem least_undeclared {before after : List String} (pins : Dict.keys draft.build.pins = before ++ input :: after)
    (first : ∀ other ∈ before, other ∈ draft.build.descriptor.inputs) :
    ∀ other ∈ draft.pinned, other ∉ draft.declared → input ≤ other := by
  have ascends : Dict.Ascending draft.build.pins := CallSite.ascending_pins_foldl draft.pins .nil
  rw [Dict.Ascending, pins, List.pairwise_append, List.pairwise_cons] at ascends
  intro other pinned unknown
  rw [← mem_keys_build, pins, List.mem_append, List.mem_cons] at pinned
  rcases pinned with earlier | rfl | later
  · exact absurd (mem_inputs_build.mp (first other earlier)) unknown
  · exact String.le_refl other
  · exact String.not_lt.mp (String.lt_asymm (ascends.2.1.1 other later))

/-- The first declared input that there is nothing for is the one of the first such declaration. -/
theorem first_lacking {before after : List String} (inputs : draft.build.descriptor.inputs = before ++ input :: after)
    (first : ∀ other ∈ before, ¬ draft.build.Lacks visible other) (lacks : draft.build.Lacks visible input) :
    ∃ before need after, draft.needs = before ++ need :: after ∧ need.input = input ∧
      ∀ other ∈ before, ¬ draft.build.Lacks visible other.input := by
  classical
  have found := find?_inputs_build draft (fun input => decide (draft.build.Lacks visible input))
  rw [List.find?_eq_some_iff_append.mpr ⟨by simpa using lacks, before, after, inputs, by simpa using first⟩] at found
  obtain ⟨_, earlier, later, split, none⟩ := List.find?_eq_some_iff_append.mp found.symm
  obtain ⟨before', rest, needs, rfl, split'⟩ := List.map_eq_append_iff.mp split
  obtain ⟨need, after', rfl, same, _⟩ := List.map_eq_cons_iff.mp split'
  exact ⟨before', need, after', needs, same, by simpa using none⟩

theorem resolves_of_injects {result : Except ComposeError Inputs}
    (injects : draft.build.Injects visible machine view result) : draft.Resolves visible machine view result := by
  cases injects with
  | fails fails =>
    cases fails with
    | @undeclared _ _ input pins first unknown =>
      rw [name_build]
      have pinned : input ∈ Dict.keys draft.build.pins := by simp [pins]
      exact .undeclared (mem_keys_build.mp pinned) (mem_inputs_build.not.mp unknown) (least_undeclared pins first)
    | missing declared inputs first lacks =>
      obtain ⟨before, need, after, needs, rfl, none⟩ := first_lacking inputs first lacks
      rw [name_build]
      exact .missing (known_iff.mpr declared) needs (fun other member => not_lacks (none other member))
        (lacks_build_iff.mp lacks)
  | @binds bindings free bound =>
    have declared : ∀ input ∈ Dict.keys draft.build.pins, input ∈ draft.build.descriptor.inputs := by
      cases pins : draft.build.undeclaredPin? with
      | none => exact CallSite.undeclaredPin?_eq_none.mp pins
      | some input =>
        obtain ⟨unknown, before, after, split, first⟩ := CallSite.undeclaredPin?_eq_some.mp pins
        exact absurd (.undeclared split first unknown) (free _)
    have each (input : String) (member : input ∈ draft.declared) := bound.bound input (mem_inputs_build.mpr member)
    refine .bound (known_iff.mpr declared) (fun input member => ?_) (name_build draft) rfl (fun input member => ?_)
      fun input absent => ?_
    · obtain ⟨_, _, found, _⟩ := each input member
      exact not_lacks (CallSite.not_lacks_of_source found)
    · obtain ⟨source, binding, found, here, draws⟩ := each input member
      exact ⟨source, takes_of_source found, draws.provides here⟩
    · have none := bound.others input (mem_inputs_build.not.mpr absent)
      rw [Inputs.get, Inputs.lazy, none, ← name_build draft]
      exact ⟨rfl, rfl⟩

/-- The injection of a call site, whatever was declared and pinned in whatever order, is a matter of
    the names that are visible, and computes nothing, from outside as in a thread. -/
theorem build_injects (draft : SiteDraft) (arises : machine.Arises)
    (living : machine.environment? view.env = some environment) :
    (∃ machine' result, machine.inject draft.build view = result.map (fun inputs => (machine', inputs)) ∧
      machine.Idles machine' ∧ draft.Resolves (environment.contains view.role) machine' view result) ∧
    ∀ id frames, ∃ machine' result moves,
      (∀ next, moved id machine ⟨.meet (draft.build.resolve view next), frames⟩ moves =
        (machine', ⟨.meet (next result), frames⟩)) ∧
      machine.Idles machine' ∧ draft.Resolves (environment.contains view.role) machine' view result := by
  constructor
  · obtain ⟨machine', result, injects, idles, ends⟩ := CallSite.inject_injects draft.build living arises.numbered
    exact ⟨machine', result, injects, idles, resolves_of_injects ends⟩
  · intro id frames
    obtain ⟨machine', result, moves, goes, idles, ends⟩ :=
      CallSite.resolve_moved draft.build living arises.numbered id frames
    exact ⟨machine', result, moves, goes, idles, resolves_of_injects ends⟩

end SiteDraft
end

namespace Renamed

/-- A component of a compiler, which is renamed twice and declared twice, of a version, which is pinned,
    and of a library with a default. -/
def draft : SiteDraft where
  name := "c"
  role := .library
  construct _ := .pure (.text "0")
  needs := [⟨"cc", none⟩, ⟨"version", none⟩, ⟨"zlib", some fun _ => .pure (.text "bundled")⟩, ⟨"cc", none⟩]
  pins := [("cc", .entry "gcc"), ("version", .value (.text "1.0")), ("cc", .entry "clang")]

/-- Two compilers and no library. -/
def toolchain : Environment :=
  .compose "toolchain" .empty [⟨"compilers", [.value "gcc" (.text "1"), .value "clang" (.text "2")]⟩]

/-- One of the compilers is being computed. -/
def machine : Machine := { Machine.empty with environments := [some toolchain] }.setSlot ⟨1, "clang", 1⟩ (.running 7)

end Renamed

open Renamed in
/-- The last renaming and the pin count, and the library is taken from its default. -/
theorem SiteDraft.build_injects_renamed : ∃ machine' inputs,
    machine.inject draft.build (.whole 1) = .ok (machine', inputs) ∧ machine'.slots = machine.slots ∧
      inputs.Provides machine' "cc" (.entry "clang") ∧ inputs.Provides machine' "version" (.ready (.text "1.0")) ∧
      inputs.Provides machine' "zlib" (.default fun _ => .pure (.text "bundled")) ∧
      inputs.get "gcc" = .fail (.undeclaredInput "c" "gcc") := by
  have living : machine.environment? (View.whole 1).env = some toolchain := rfl
  have clang : draft.target? "cc" = some "clang" := rfl
  have shown : toolchain.contains none "clang" = true := rfl
  have version : draft.pin? "version" = some (.value (.text "1.0")) := rfl
  have zlib : draft.target? "zlib" = some "zlib" := rfl
  have hidden : toolchain.contains none "zlib" = false := rfl
  obtain ⟨⟨machine', result, injects, idles, resolves⟩, _⟩ := build_injects draft ⟨machine, rfl, .refl⟩ living
  cases resolves with
  | undeclared pinned unknown _ =>
    have declared : ∀ input ∈ draft.pinned, input ∈ draft.declared := by decide
    exact absurd (declared _ pinned) unknown
  | @missing _ _ need _ _ needs _ lacks =>
    obtain ⟨free, absent, plain⟩ := lacks
    have member : need ∈ draft.needs := by simp [needs]
    simp only [draft, List.mem_cons, List.not_mem_nil, or_false] at member
    rcases member with rfl | rfl | rfl | rfl
    · cases clang.symm.trans free
      cases shown.symm.trans absent
    · cases free
    · cases plain
    · cases clang.symm.trans free
      cases shown.symm.trans absent
  | @bound inputs known supplied component looks each others =>
    refine ⟨machine', inputs, injects, idles.slots, ?_, ?_, ?_, (others "gcc" (by decide)).1⟩
    · obtain ⟨source, takes, provides⟩ := each "cc" (by decide)
      cases takes with
      | pinned pinned => cases pinned
      | present free _ =>
        cases clang.symm.trans free
        exact provides
      | absent free absent _ =>
        cases clang.symm.trans free
        cases shown.symm.trans absent
    · obtain ⟨source, takes, provides⟩ := each "version" (by decide)
      cases takes with
      | pinned pinned =>
        cases version.symm.trans pinned
        exact provides
      | present free _ => cases free
      | absent free _ _ => cases free
    · obtain ⟨source, takes, provides⟩ := each "zlib" (by decide)
      cases takes with
      | pinned pinned => cases pinned
      | present free present =>
        cases zlib.symm.trans free
        cases hidden.symm.trans present
      | absent _ _ given =>
        cases given
        exact provides

end Pkgset

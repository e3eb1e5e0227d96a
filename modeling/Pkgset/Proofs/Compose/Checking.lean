import Pkgset.Proofs.Compose.Injection

/-!
# Checking the inputs of an environment

The check of an environment finds the first name, in their order, that is a call site whose
injection fails or an alias of what is not there. A thread that does the same injections one after
another computes nothing, and comes to the same. Whatever was computed before, a call site that the
check finds fault with is refused with the very error of the check.
-/

namespace Pkgset
open Machine Relation

namespace Environment
variable {environment : Environment} {role : Option Role} {name : String} {error : ComposeError}

/-! ### What is found -/

/-- What is wrong with the final definition of a visible name: it is a call site whose injection
    fails in the whole environment, or an alias of a name that is not there. -/
inductive Flaw (environment : Environment) (role : Option Role) (name : String) : ComposeError → Prop where
  | call {slot : Slot} {site : CallSite} {error : ComposeError} (shows : environment.top? role name = some slot)
      (is : slot.definition = .call site) (fails : site.Fails (environment.contains none) error) :
      Flaw environment role name error
  | aliasOf {slot : Slot} {target : String} (shows : environment.top? role name = some slot)
      (is : slot.definition = .aliasOf target) (absent : environment.contains none target = false) :
      Flaw environment role name (.missingInput name target)

/-- The check of one name. -/
def checkName (environment : Environment) (role : Option Role) (name : String) : Except ComposeError Unit :=
  match environment.top? role name with
  | some slot => environment.checkDefinition name slot.definition
  | none => .ok ()

theorem checkName_eq_error_iff : environment.checkName role name = .error error ↔ environment.Flaw role name error := by
  constructor
  · intro fails
    unfold checkName at fails
    split at fails
    next slot shows =>
      cases is : slot.definition with
      | call site =>
        rw [is, checkDefinition] at fails
        cases found : site.sources (environment.contains none) with
        | ok sources => rw [found] at fails; cases fails
        | error other =>
          rw [found] at fails
          cases fails
          exact .call shows is (CallSite.sources_eq_error_iff.mp found)
      | aliasOf target =>
        simp only [is, checkDefinition] at fails
        split at fails
        · cases fails
        next absent =>
          cases fails
          exact .aliasOf shows is (by simpa using absent)
      | thunk compute => rw [is] at fails; cases fails
      | value component => rw [is] at fails; cases fails
    next => cases fails
  · intro flaw
    cases flaw with
    | call shows is fails =>
      simp [checkName, shows, is, checkDefinition, CallSite.sources_eq_error_iff.mpr fails, Except.map]
    | aliasOf shows is absent => simp [checkName, shows, is, checkDefinition, absent]

theorem checkName_eq_ok_iff : environment.checkName role name = .ok () ↔ ∀ error, ¬ environment.Flaw role name error := by
  simp only [← checkName_eq_error_iff]
  cases environment.checkName role name <;> simp

theorem Flaw.listed (flaw : environment.Flaw role name error) : name ∈ environment.names role := by
  cases flaw with
  | call shows => exact mem_names shows
  | aliasOf shows => exact mem_names shows

theorem checkInputs_eq_ok_iff :
    environment.checkInputs role = .ok () ↔ ∀ name error, ¬ environment.Flaw role name error := by
  refine forM_eq_ok_iff.trans ?_
  constructor
  · exact fun fine name error flaw => checkName_eq_ok_iff.mp (fine name flaw.listed) error flaw
  · exact fun none name _ => checkName_eq_ok_iff.mpr (none name)

/-- The check reports what is wrong with the first name that anything is wrong with. -/
theorem checkInputs_eq_error_iff (before : environment.Sealed) : environment.checkInputs role = .error error ↔
    ∃ name, environment.Flaw role name error ∧ ∀ earlier < name, ∀ other, ¬ environment.Flaw role earlier other := by
  refine forM_eq_error_iff.trans ?_
  have ascends := before.names_ascending role
  constructor
  · rintro ⟨earlier, name, later, split, fine, fails⟩
    refine ⟨name, checkName_eq_error_iff.mp fails, fun other less found flaw => ?_⟩
    -- A flawed name is listed, and what is listed before the first failure passes.
    rw [split, List.pairwise_append] at ascends
    have listed := flaw.listed
    rw [split] at listed
    rcases List.mem_append.mp listed with first | rest
    · exact checkName_eq_ok_iff.mp (fine other first) found flaw
    · rcases List.mem_cons.mp rest with rfl | after
      · exact String.lt_irrefl _ less
      · exact String.lt_irrefl _ (String.lt_trans less ((List.pairwise_cons.mp ascends.2.1).1 other after))
  · rintro ⟨name, flaw, first⟩
    obtain ⟨earlier, later, split⟩ := List.append_of_mem flaw.listed
    refine ⟨earlier, name, later, split, fun other member => ?_, checkName_eq_error_iff.mpr flaw⟩
    rw [split, List.pairwise_append] at ascends
    exact checkName_eq_ok_iff.mpr (first other (ascends.2.2 other member name List.mem_cons_self))

/-! ### The check as a thread would do it -/

/-- Injects a call site and makes nothing of its inputs, or asks whether the target of an alias is there. -/
def checkingDefinition (env : EnvId) (name : String) (next : Except ComposeError Unit → Demand) : Definition → Demand
  | .call site => site.resolve (.whole env) fun inputs => next (inputs.map fun _ => ())
  | .aliasOf target => .has (.whole env) target fun there => next (if there then .ok () else .error (.missingInput name target))
  | _ => next (.ok ())

/-- Does so for the final definitions of some names, one after another. -/
def checking (environment : Environment) (view : View) (next : Except ComposeError Unit → Demand) : List String → Demand
  | [] => next (.ok ())
  | name :: rest =>
    match environment.top? view.role name with
    | some slot => checkingDefinition view.env name
        (fun
          | .ok _ => checking environment view next rest
          | .error error => next (.error error)) slot.definition
    | none => checking environment view next rest

private theorem checkingDefinition_inspects (environment : Environment) (env : EnvId) (name : String)
    (next : Except ComposeError Unit → Demand) (definition : Definition) :
    (checkingDefinition env name next definition).Inspects env environment (fun _ => True) (fun _ => True)
      (· = next (environment.checkDefinition name definition)) := by
  cases definition with
  | call site =>
    rw [checkingDefinition]
    have looks : (View.whole env).env = env := rfl
    refine CallSite.resolve_inspects looks (fun _ _ _ => trivial) (fun error fails => ?_) fun fine bindings _ => ?_
    · have failing : site.sources (environment.contains none) = .error error := CallSite.sources_eq_error_iff.mpr fails
      rw [checkDefinition, failing]
      rfl
    · cases found : site.sources (environment.contains none) with
      | error error => exact absurd (CallSite.sources_eq_error_iff.mp found) (fine error)
      | ok sources =>
        rw [checkDefinition, found]
        rfl
  | aliasOf target => exact .has rfl (.ends rfl)
  | thunk compute => exact .ends rfl
  | value component => exact .ends rfl

/-- A thread that checks names only inspects the environment, and comes to what the check comes to. -/
theorem checking_inspects (environment : Environment) (view : View) (next : Except ComposeError Unit → Demand)
    (names : List String) : (environment.checking view next names).Inspects view.env environment (fun _ => True) (fun _ => True)
      (· = next (names.forM (environment.checkName view.role))) := by
  induction names with
  | nil => exact .ends rfl
  | cons name rest ih =>
    have first : (name :: rest).forM (environment.checkName view.role) =
        (environment.checkName view.role name).bind fun _ => rest.forM (environment.checkName view.role) := rfl
    rw [first, checkName, checking]
    cases environment.top? view.role name with
    | none => exact ih
    | some slot =>
      refine .join ((checkingDefinition_inspects environment view.env name _ slot.definition).mono ?_)
      rintro _ rfl
      dsimp only
      cases environment.checkDefinition name slot.definition with
      | ok _ => exact ih
      | error error => exact .ends rfl

end Environment

/-! ### Definitions that are refused -/

/-- A demand only inspects an environment, and fails. -/
def Demand.Doomed (env : EnvId) (environment : Environment) (error : ComposeError) (demand : Demand) : Prop :=
  demand.Inspects env environment (fun _ => True) (fun _ => True) (· = .fail error)

theorem CallSite.doomed_call {site : CallSite} {environment : Environment} {error : ComposeError} (view : View)
    (fails : site.Fails (environment.contains view.role) error) : (site.call view).Doomed view.env environment error := by
  have found := sources_eq_error_iff.mpr fails
  refine resolve_inspects rfl (fun _ _ _ => trivial) (fun other failing => ?_) fun fine => absurd fails (fine error)
  have same := found.symm.trans (sources_eq_error_iff.mpr failing)
  rw [Except.error.inj same]

theorem Machine.definition_of_top {machine : Machine} {env : EnvId} {environment : Environment} {role : Option Role}
    {name : String} {slot : Slot} (living : machine.environment? env = some environment)
    (shows : environment.top? role name = some slot) :
    machine.definition ⟨env, name, slot.layer⟩ = slot.definition.demand ⟨env, slot.layer, name⟩ := by
  obtain ⟨first, _⟩ := Option.filter_eq_some_iff.mp shows
  obtain ⟨lower, stack⟩ := List.head?_eq_some_iff.mp first
  simp [Machine.definition, living, stack]

/-! ### The states of an environment -/

/-- What may happen while an environment lives: a thread moves, one of some threads that has ended
    begins anew, or other environments, cells of no computation, waits and the journal change. -/
inductive Pool.Event (env : EnvId) (environment : Environment) (anew : ThreadId → Prop) : Pool → Pool → Prop where
  | moves (pool : Pool) (id : ThreadId) : Event env environment anew pool (pool.step id)
  | begins {pool : Pool} {id : ThreadId} (may : anew id) (ended : (pool.threads id).frames = [])
      (still : (∃ outcome, (pool.threads id).control = .yield outcome) ∨ (pool.threads id).control = .unwind) (demand : Demand) :
      Event env environment anew pool (pool.moved id pool.machine (.start demand))
  | changes {pool : Pool} {machine : Machine} (living : machine.environment? env = some environment)
      (slots : machine.slots = pool.machine.slots)
      (cells : ∀ cell, cell.origin ≠ .outside → machine.cell? cell = pool.machine.cell? cell) :
      Event env environment anew pool ⟨machine, pool.threads⟩

/-- An environment lives, nothing of it was computed yet, and no thread is at it. -/
structure Pool.Untouched (env : EnvId) (environment : Environment) (pool : Pool) : Prop where
  living : pool.machine.environment? env = some environment
  slots : ∀ slot, slot.env = env → pool.machine.slots slot = .pending
  cells : ∀ slot cell, slot.env = env → cell.origin = .slot slot → pool.machine.cell? cell = none
  outside : ∀ id slot, .slot slot ∈ (pool.threads id).frames → slot.env ≠ env
  elsewhere : ∀ id cell slot, .cell cell ∈ (pool.threads id).frames → cell.origin = .slot slot → slot.env ≠ env

/-- The states that an environment can be in. -/
def Pool.Arises (env : EnvId) (environment : Environment) (pool : Pool) : Prop :=
  ∃ start : Pool, start.Untouched env environment ∧ ReflTransGen (Event env environment fun _ => True) start pool

/-- Inside of the definition, a thread is still inspecting the environment, or it is about to publish
    the error. -/
structure Thread.Failing (env : EnvId) (environment : Environment) (slot : SlotId) (error : ComposeError) (thread : Thread) :
    Prop where
  frames : ∃ below, thread.frames = .slot slot :: below ∧ Frame.slot slot ∉ below
  control : thread.control = .yield (.error error) ∨ ∃ demand, thread.control = .meet demand ∧
    demand.Doomed env environment error

/-- The definition has no other outcome than the error, and no thread is on its way to one. -/
structure Pool.Denies (env : EnvId) (environment : Environment) (slot : SlotId) (error : ComposeError) (pool : Pool) : Prop where
  living : pool.machine.environment? env = some environment
  known : ∀ outcome, pool.machine.slots slot = .done outcome → outcome = .error error
  inside : ∀ id, .slot slot ∈ (pool.threads id).frames → (pool.threads id).Failing env environment slot error

section
variable {env : EnvId} {environment : Environment} {slot : SlotId} {error : ComposeError} {machine : Machine} {thread : Thread}

theorem Thread.mem_forcing : slot ∈ thread.forcing ↔ .slot slot ∈ thread.frames := by
  simp only [forcing, List.mem_filterMap]
  constructor
  · rintro ⟨frame, member, is⟩
    cases frame with
    | slot other =>
      cases is
      exact member
    | cell cell => cases is
    | resume next => cases is
  · exact fun member => ⟨_, member, rfl⟩

/-- A thread inside of the definition moves on to its end: the error is published, and it leaves. -/
theorem Thread.Failing.step (failing : thread.Failing env environment slot error)
    (living : machine.environment? env = some environment) (id : ThreadId) :
    ((machine.step id thread).1.slots = machine.slots ∧ (machine.step id thread).2.Failing env environment slot error) ∨
      (machine.step id thread).1 = machine.publish slot (.error error) ∧ .slot slot ∉ (machine.step id thread).2.frames := by
  obtain ⟨control, frames⟩ := thread
  obtain ⟨⟨below, rfl, apart⟩, yields | ⟨demand, meets, inspects⟩⟩ := failing
  · obtain rfl : control = .yield (.error error) := yields
    exact Or.inr ⟨rfl, apart⟩
  · obtain rfl : control = .meet demand := meets
    left
    cases inspects with
    | ends here =>
      subst here
      exact ⟨rfl, ⟨below, rfl, apart⟩, Or.inl rfl⟩
    | @has view name next looks rest =>
      refine ⟨rfl, ⟨below, rfl, apart⟩, Or.inr ⟨_, rfl, ?_⟩⟩
      rwa [Machine.top?_isSome (looks ▸ living)]
    | allot made rest => exact ⟨rfl, ⟨below, rfl, apart⟩, Or.inr ⟨_, rfl, rest _ trivial⟩⟩

theorem Pool.environment?_step (pool : Pool) (id : ThreadId) (env : EnvId) :
    (pool.step id).machine.environment? env = pool.machine.environment? env := by
  cases env with
  | zero => rfl
  | succ place => rw [machine_step, environment?, environment?, environments_step]

namespace Pool.Denies
variable {pool pool' : Pool}

theorem step (denies : pool.Denies env environment slot error)
    (doomed : (pool.machine.definition slot).Doomed env environment error)
    (id : ThreadId) : (pool.step id).Denies env environment slot error := by
  have living := (pool.environment?_step id env).trans denies.living
  suffices moves : (∀ outcome, (pool.step id).machine.slots slot = .done outcome → outcome = .error error) ∧
      (.slot slot ∈ ((pool.step id).threads id).frames → ((pool.step id).threads id).Failing env environment slot error) by
    refine ⟨living, moves.1, fun other member => ?_⟩
    by_cases own : other = id
    · subst own
      exact moves.2 member
    · rw [threads_step_of_ne own] at member ⊢
      exact denies.inside other member
  rw [machine_step, threads_step_self]
  by_cases member : .slot slot ∈ (pool.threads id).frames
  · rcases (denies.inside id member).step denies.living id with ⟨slots, failing⟩ | ⟨publishes, apart⟩
    · exact ⟨fun outcome done => denies.known outcome (slots ▸ done), fun _ => failing⟩
    · refine ⟨fun outcome done => ?_, fun inside => absurd inside apart⟩
      rw [publishes, slots_publish, if_pos rfl] at done
      cases done
      rfl
  · -- The thread is not inside of the definition, unless it begins it now.
    rw [← Thread.mem_forcing] at member
    have effect := step_effect pool.machine id (pool.threads id)
    generalize pool.machine.step id (pool.threads id) = result at effect
    rw [← Thread.mem_forcing]
    cases effect with
    | quiet slots _ forcing =>
      exact ⟨fun outcome done => denies.known outcome (slots ▸ done), fun inside => absurd (forcing ▸ inside) member⟩
    | start begun =>
      by_cases here : slot = begun
      · subst here
        refine ⟨fun outcome done => ?_, fun _ => ⟨⟨_, rfl, ?_⟩, Or.inr ⟨_, rfl, doomed⟩⟩⟩
        · rw [slots_setSlot, if_pos rfl] at done
          cases done
        · rwa [← Thread.mem_forcing]
      · refine ⟨fun outcome done => ?_, fun inside => ?_⟩
        · rw [slots_setSlot, if_neg here] at done
          exact denies.known outcome done
        · exact absurd ((List.mem_cons.mp inside).resolve_left here) member
    | sleep => exact ⟨denies.known, fun inside => absurd inside member⟩
    | wake => exact ⟨denies.known, fun inside => absurd inside member⟩
    | publish left outcome frames control publishes held =>
      rw [Thread.forcing_of_slot held control, List.mem_cons, not_or] at member
      refine ⟨fun outcome done => ?_, fun inside => absurd inside member.2⟩
      rw [slots_publish, if_neg member.1] at done
      exact denies.known outcome done

theorem event {anew : ThreadId → Prop} (denies : pool.Denies env environment slot error)
    (doomed : ∀ machine : Machine, machine.environment? env = some environment →
      (machine.definition slot).Doomed env environment error)
    (event : Event env environment anew pool pool') : pool'.Denies env environment slot error := by
  cases event with
  | moves id => exact denies.step (doomed _ denies.living) id
  | @begins id may ended still demand =>
    refine ⟨denies.living, denies.known, fun other member => ?_⟩
    rw [threads_moved] at member ⊢
    split at member
    · cases member
    next apart =>
      rw [if_neg apart]
      exact denies.inside other member
  | changes living slots cells => exact ⟨living, fun outcome done => denies.known outcome (slots ▸ done), denies.inside⟩

theorem of_arises (arises : pool.Arises env environment) (here : slot.env = env)
    (doomed : ∀ machine : Machine, machine.environment? env = some environment →
      (machine.definition slot).Doomed env environment error) : pool.Denies env environment slot error := by
  obtain ⟨start, untouched, path⟩ := arises
  induction path with
  | refl =>
    refine ⟨untouched.living, fun outcome done => ?_, fun id member => ?_⟩
    · rw [untouched.slots slot here] at done
      cases done
    · exact absurd here (untouched.outside id slot member)
  | tail _ happens ih => exact ih.event doomed happens

end Pool.Denies

/-- Whoever asks for a definition that is refused gets the error, unless another is at it. -/
theorem Pool.Denies.gets {pool : Pool} {role : Option Role} {name : String} {found : Slot}
    (denies : pool.Denies env environment ⟨env, name, found.layer⟩ error) (shows : environment.top? role name = some found)
    (doomed : (pool.machine.definition ⟨env, name, found.layer⟩).Doomed env environment error)
    (idle : ∀ owner, pool.machine.slots ⟨env, name, found.layer⟩ ≠ .running owner) :
    ∃ machine', pool.machine.Gets ⟨⟨env, role⟩, name⟩ (.error error) machine' := by
  generalize same : (⟨env, name, found.layer⟩ : SlotId) = slot at denies doomed idle
  have top : pool.machine.top? ⟨env, role⟩ name = some slot := by simp [Machine.top?, denies.living, shows, same]
  have asks := moves_meet pool.machine (.get ⟨env, role⟩ name .done) []
  simp only [Machine.meet, top, Thread.push] at asks
  suffices ends : ∃ machine', pool.machine.Travels ⟨.enter slot, [.resume .done]⟩ machine'
      ⟨.yield (.error error), [.resume .done]⟩ by
    obtain ⟨machine', travels⟩ := ends
    have hands : Moves (machine', ⟨.yield (.error error), [.resume .done]⟩) (machine', ⟨.meet (.done (.error error)), []⟩) :=
      ⟨Or.inl rfl, rfl⟩
    have yields := moves_meet machine' (.done (.error error)) []
    obtain ⟨steps, runs⟩ := (Travels.trans (.head asks travels) (.tail (.single hands) yields)).runs
    exact ⟨machine', 1 + steps, runs 1⟩
  cases progress : pool.machine.slots slot with
  | running owner => exact absurd progress (idle owner)
  | done outcome =>
    rw [denies.known outcome progress] at progress
    exact ⟨pool.machine, .single (moves_known_entry progress _)⟩
  | pending =>
    have begins : Moves (pool.machine, ⟨.enter slot, [.resume .done]⟩) (pool.machine.setSlot slot (.running 0),
        ⟨.meet (pool.machine.definition slot), [.slot slot, .resume .done]⟩) := by
      refine ⟨Or.inl rfl, ?_⟩
      simp [Machine.step, Machine.enter, progress, Thread.push]
    have living : (pool.machine.setSlot slot (.running 0)).environment? env = some environment := denies.living
    obtain ⟨machine', _, inspects, rfl, _⟩ := Demand.Inspects.travels doomed living [.slot slot, .resume .done]
    have fails := moves_meet machine' (.fail error) [.slot slot, .resume .done]
    have publishes : Moves (machine', ⟨.yield (.error error), [.slot slot, .resume .done]⟩)
        (machine'.publish slot (.error error), ⟨.yield (.error error), [.resume .done]⟩) := ⟨Or.inl rfl, rfl⟩
    exact ⟨_, .trans (.head begins inspects) (.tail (.single fails) publishes)⟩

end

/-- In every state in which nothing is in progress, a call site whose injection fails is refused with
    the error of the injection. -/
theorem Pool.Arises.gets {env : EnvId} {environment : Environment} {pool : Pool} {role : Option Role} {name : String}
    {slot : Slot} {site : CallSite} {error : ComposeError} (arises : pool.Arises env environment)
    (idle : ∀ slot owner, pool.machine.slots slot ≠ .running owner) (shows : environment.top? role name = some slot)
    (is : slot.definition = .call site) (fails : site.Fails (environment.contains none) error) :
    ∃ machine', pool.machine.Gets ⟨⟨env, role⟩, name⟩ (.error error) machine' := by
  have doomed : ∀ machine : Machine, machine.environment? env = some environment →
      (machine.definition ⟨env, name, slot.layer⟩).Doomed env environment error := by
    intro machine living
    rw [definition_of_top living shows, is]
    exact CallSite.doomed_call (.whole env) fails
  have denies := Pool.Denies.of_arises arises rfl doomed
  exact denies.gets shows (doomed _ denies.living) (idle _)

end Pkgset

import Pkgset.Proofs.Build.Service
import Pkgset.Build.Workshop

/-!
# Builds that go as foreseen

The surroundings of jobs are settled: the runner replies to each call, and the store
makes and completes each entry, in a way that does not depend on the order of events.
If a request keeps going and is not called off, then every record is that of its
derivation alone, or handed down by an input, whatever the order of events is.
-/

namespace Pkgset
open BuildReport BuildGraph

/-! ## What a job comes to

What lies outside of a job is how the runner replies to its calls and whether the store
can make and complete its entry. If that is settled for a derivation, then so is the
error that the job of the derivation has, or that it has none: at every place on its
way, the job is bound for the same end.
-/

/-- What lies outside of jobs: the replies to the calls for a derivation, by the number
    of calls before, and the errors of making and completing its store entry. -/
structure Surroundings where
  answer : Fingerprint → Nat → Reply
  preparing : Fingerprint → Option BuildError
  completing : Fingerprint → Option BuildError

namespace Surroundings

/-- The calls of the runner after a phase that is tried from an attempt on, or the
    error of the phase. -/
def attempts (surroundings : Surroundings) (config : BuildConfig) (derivation : Derivation) (phase : Phase)
    (number : UInt32) (calls : Nat) : Except BuildError Nat :=
  match surroundings.answer derivation.fingerprint calls with
  | .error error => .error error
  | .crash => .error (.crashed derivation.name)
  | .exit status =>
    if status.isSuccess then .ok (calls + 1)
    else if number < Job.tries config phase then
      attempts surroundings config derivation phase (number + 1) (calls + 1)
    else .error (.phaseFailure derivation.name phase.name status.code)
termination_by (Job.tries config phase).toNat - number.toNat
decreasing_by
  rename_i more
  have less : number.toNat < (Job.tries config phase).toNat := UInt32.lt_iff_toNat_lt.mp more
  have bound : (Job.tries config phase).toNat < 4294967296 := UInt32.toNat_lt _
  have one : (number + 1).toNat = number.toNat + 1 := by
    rw [UInt32.toNat_add]
    exact Nat.mod_eq_of_lt (by simpa using Nat.lt_of_le_of_lt less bound)
  omega

/-- The calls of the runner after several phases, or the error of one. -/
def phases (surroundings : Surroundings) (config : BuildConfig) (derivation : Derivation) :
    List Phase → Nat → Except BuildError Nat
  | [], calls => .ok calls
  | phase :: rest, calls =>
    if Job.skips config derivation phase then phases surroundings config derivation rest calls
    else (surroundings.attempts config derivation phase 1 calls).bind (phases surroundings config derivation rest)

/-- The error of completing an entry, unless a phase has one. -/
def settle (surroundings : Surroundings) (derivation : Derivation) : Except BuildError Nat → Option BuildError
  | .error error => some error
  | .ok _ => surroundings.completing derivation.fingerprint

/-- The error that the job of a derivation has by itself. -/
def ownError? (surroundings : Surroundings) (config : BuildConfig) (derivation : Derivation) : Option BuildError :=
  match surroundings.preparing derivation.fingerprint with
  | some error => some error
  | none => surroundings.settle derivation (surroundings.phases config derivation derivation.phases 0)

/-- The error that a job is bound for at a place, after a number of calls. -/
def fate (surroundings : Surroundings) (config : BuildConfig) (derivation : Derivation) (calls : Nat) :
    JobPlace → Option BuildError
  | .between _ rest => surroundings.settle derivation (surroundings.phases config derivation rest calls)
  | .calling _ attempt rest => surroundings.settle derivation
    ((surroundings.attempts config derivation attempt.phase attempt.number calls).bind
      (surroundings.phases config derivation rest))
  | .running _ attempt rest => surroundings.settle derivation
    ((surroundings.attempts config derivation attempt.phase attempt.number (calls - 1)).bind
      (surroundings.phases config derivation rest))
  | .committing _ => surroundings.completing derivation.fingerprint
  | .recording _ => none
  | .finished (.ok _) => none
  | .finished (.error error) => some error
  | _ => surroundings.ownError? config derivation

section
variable (surroundings : Surroundings) (config : BuildConfig)

/-- Going on to the next phase leaves the end as it is. -/
theorem fate_proceed (job : Job) (outputs : Outputs) (rest : List Phase) (calls : Nat) :
    surroundings.fate config job.derivation calls (job.proceed config outputs rest).place =
      surroundings.fate config job.derivation calls (.between outputs rest) := by
  fun_cases Job.proceed config job outputs rest with
  | case1 => simp [Job.goTo, fate, phases, settle]
  | case2 phase rest skipped => simp [Job.goTo, fate, phases, skipped]
  | case3 phase rest runs => simp [Job.goTo, fate, phases, runs]

/-- A reply as foreseen leaves the end as it is. -/
theorem fate_replied (job : Job) (outputs : Outputs) (attempt : Attempt) (rest : List Phase) {calls : Nat}
    (called : 0 < calls) :
    surroundings.fate config job.derivation calls (Workshop.replied config job outputs attempt rest
        (surroundings.answer job.derivation.fingerprint (calls - 1))).place =
      surroundings.fate config job.derivation calls (.running outputs attempt rest) := by
  have last : calls - 1 + 1 = calls := by omega
  simp only [fate]
  rw [attempts]
  cases answer : surroundings.answer job.derivation.fingerprint (calls - 1) with
  | error error => simp [Workshop.replied, Job.finish, Job.goTo, settle, Except.bind]
  | crash => simp [Workshop.replied, Job.finish, Job.goTo, settle, Except.bind]
  | exit status =>
    by_cases success : status.isSuccess
    · simp [Workshop.replied, Job.exited, success, Job.goTo, last, Except.bind]
    · by_cases more : attempt.number < Job.tries config attempt.phase
      · simp [Workshop.replied, Job.exited, success, more, Job.goTo, last]
      · simp [Workshop.replied, Job.exited, success, more, Job.finish, Job.goTo, settle, Except.bind]

end
end Surroundings

/-! ## What a build reports -/

/-- A job that has not touched its store entry. -/
def JobPlace.isUntouched : JobPlace → Bool
  | .queued | .admitted | .claimed | .looking => true
  | _ => false

/-- Whether a request moves and none of its jobs does. -/
def Event.movesRequest : Event → Bool
  | .visit _ | .look _ | .join _ _ | .close _ => true
  | _ => false

/-- The error of an operation of the store. -/
def Store.failure? {α : Type} : Except BuildError α → Option BuildError
  | .error error => some error
  | .ok _ => none

namespace Workshop

/-- The number of calls of the runner for a fingerprint. -/
def callsFor (workshop : Workshop) (fingerprint : Fingerprint) : Nat :=
  workshop.calls.countP (·.derivation.fingerprint = fingerprint)

/-- An event as the surroundings foresee it: nothing else is built, nothing is called
    off, the runner replies and the store works as settled, and what the store holds for
    a derivation stays while no job is at work on its entry. -/
structure Foreseen (surroundings : Surroundings) (workshop : Workshop) (event : Event) : Prop where
  alone : ∀ roots cancelled, event ≠ .request roots cancelled
  uncancelled : ∀ id, event ≠ .cancel id
  replies : ∀ id fingerprint reply cancels, event = .reply id fingerprint reply cancels →
    reply = surroundings.answer fingerprint (workshop.callsFor fingerprint - 1) ∧ cancels = false
  preparing : ∀ id (request : Request), workshop.requests[id]? = some request → ∀ job ∈ request.jobs,
    event = .advance id job.fingerprint → job.place = .preparing →
      Store.failure? (workshop.store.prepare workshop.disk job.derivation).2 = surroundings.preparing job.fingerprint
  completing : ∀ id (request : Request), workshop.requests[id]? = some request → ∀ job ∈ request.jobs,
    event = .advance id job.fingerprint → ∀ outputs, job.place = .committing outputs →
      Store.failure? (Store.commit workshop.disk job.derivation outputs).2 = surroundings.completing job.fingerprint
  undisturbed : ∀ next, workshop.step event = some next → ∀ request ∈ workshop.requests,
    ∀ node ∈ request.graph.nodes,
      (∀ job ∈ request.jobs, job.fingerprint = node.fingerprint → job.place.isUntouched = true) →
        (workshop.store.lookup next.disk node).isSome = (workshop.store.lookup workshop.disk node).isSome

/-- The moves of a request are foreseen in any surroundings. -/
theorem foreseen_of_movesRequest {surroundings : Surroundings} {workshop : Workshop} {event : Event}
    (moves : event.movesRequest = true) : workshop.Foreseen surroundings event := by
  refine ⟨?_, ?_, ?_, ?_, ?_, ?_⟩
  · rintro roots cancelled rfl
    cases moves
  · rintro id rfl
    cases moves
  · rintro id fingerprint reply cancels rfl
    cases moves
  · rintro id request _ job _ rfl
    cases moves
  · rintro id request _ job _ rfl
    cases moves
  · intro next steps request _ node _ _
    cases step_serves steps with
    | visit | look | join | close => rfl
    | _ => cases moves

/-- A property of the events of a run, each in the workshop that it happens in. -/
def Along (property : Workshop → Event → Prop) (workshop : Workshop) : List Event → Prop
  | [] => True
  | event :: rest => property workshop event ∧ ∀ next, workshop.step event = some next → Along property next rest

theorem Along.cons {property : Workshop → Event → Prop} {workshop next after : Workshop} {event : Event}
    {rest : List Event} (holds : property workshop event) (steps : workshop.step event = some next)
    (later : next.Along property rest ∧ next.run rest = some after) :
    workshop.Along property (event :: rest) ∧ workshop.run (event :: rest) = some after := by
  refine ⟨⟨holds, fun next' steps' => ?_⟩, ?_⟩
  · obtain rfl : next = next' := Option.some.inj (steps.symm.trans steps')
    exact later.1
  · simp only [run, List.foldlM_cons, steps]
    exact later.2

/-- The workshop with one request, before its first call of the runner. -/
def serving (workshop : Workshop) (request : Request) : Workshop := { workshop with calls := [], requests := [request] }

end Workshop

/-! ### Records as foreseen -/

section
variable (start : Workshop) (surroundings : Surroundings)

/-- A derivation with all its inputs: outputs are there or its job has no error, or its
    job fails with an error of its own. -/
def Workshop.Own (node : Derivation) : BuildStatus → Prop
  | .succeeded _ _ => start.offers node = true ∨ surroundings.ownError? start.config node = none
  | .failed error => start.offers node = false ∧ surroundings.ownError? start.config node = some error
  | .cancelled => False

/-- Every record is that of a derivation with all its inputs, or handed down. -/
def Workshop.Settled (graph : BuildGraph) (report : BuildReport) : Prop :=
  ∀ node status, graph.find? node.fingerprint = some node → report.get? node.fingerprint = some ⟨node.name, status⟩ →
    (graph.missing report node.fingerprint = 0 ∧ start.Own surroundings node status) ∨
      ∃ error, status = .failed error ∧ Request.HandedDown graph report node error

variable {start surroundings} {graph : BuildGraph} {report later : BuildReport}

private theorem Workshop.Settled.grow (settled : start.Settled surroundings graph report) (grows : later.Extends report)
    (new : ∀ node status, graph.find? node.fingerprint = some node →
      later.get? node.fingerprint = some ⟨node.name, status⟩ → report.has node.fingerprint = false →
        (graph.missing report node.fingerprint = 0 ∧ start.Own surroundings node status) ∨
          ∃ error, status = .failed error ∧ Request.HandedDown graph later node error) :
    start.Settled surroundings graph later := by
  intro node status found known
  have lower := grows.missing_le graph node.fingerprint
  cases old : report.get? node.fingerprint with
  | none =>
    rcases new node status found known (get?_eq_none.mp old) with ⟨lacks, own⟩ | handed
    · exact Or.inl ⟨by omega, own⟩
    · exact Or.inr handed
  | some record =>
    have same : record = ⟨node.name, status⟩ := Option.some.inj ((grows _ _ old).symm.trans known)
    subst same
    rcases settled node status found old with ⟨lacks, own⟩ | ⟨error, failed, handed⟩
    · exact Or.inl ⟨by omega, own⟩
    · exact Or.inr ⟨error, failed, handed.mono grows⟩

private theorem Workshop.Settled.insert {node : Derivation} {status : BuildStatus}
    (settled : start.Settled surroundings graph report) (found : graph.find? node.fingerprint = some node)
    (fresh : report.has node.fingerprint = false) (due : graph.missing report node.fingerprint = 0)
    (own : start.Own surroundings node status) :
    start.Settled surroundings graph (report.insert node.fingerprint ⟨node.name, status⟩) := by
  refine settled.grow (extends_insert fresh _) fun other status' foundOther known new => Or.inl ?_
  by_cases same : other.fingerprint = node.fingerprint
  · obtain rfl : node = other := Option.some.inj (found.symm.trans (same ▸ foundOther))
    simp only [get?_insert, ↓reduceIte, Option.some.injEq, BuildRecord.mk.injEq, true_and] at known
    exact ⟨due, known ▸ own⟩
  · simp [get?_insert, same, get?_eq_none.mpr new] at known

private theorem Workshop.Settled.fail {node : Derivation} {error : BuildError}
    (settled : start.Settled surroundings graph report) (closed : graph.Closed)
    (found : graph.find? node.fingerprint = some node) (due : graph.missing report node.fingerprint = 0)
    (own : start.Own surroundings node (.failed error)) :
    start.Settled surroundings graph (Request.failAll graph report [(node.fingerprint, error)]) := by
  have flood := Request.failAll_flood closed report [(node.fingerprint, error)]
  refine settled.grow flood.grows fun other status foundOther known new => ?_
  obtain ⟨twin, cause, foundTwin, shape, listed | handed⟩ := flood.origin _ _ known new
  · obtain ⟨same, rfl⟩ := Prod.mk.inj (List.mem_singleton.mp listed)
    obtain rfl : node = other := Option.some.inj (found.symm.trans (same ▸ foundOther))
    obtain ⟨_, rfl⟩ := BuildRecord.mk.inj shape
    exact Or.inl ⟨due, own⟩
  · obtain rfl : other = twin := Option.some.inj (foundOther.symm.trans foundTwin)
    exact Or.inr ⟨cause, (BuildRecord.mk.inj shape).2, handed⟩

/-! ### What stays on the way -/

/-- A workshop with one request that is on its way as foreseen. -/
structure Workshop.OnTrack (start : Workshop) (surroundings : Surroundings) (workshop : Workshop) (request : Request) :
    Prop where
  requests : workshop.requests = [request]
  config : workshop.config = start.config
  books : request.Books []
  going : request.cancelled = false ∧ request.halted = false
  settled : start.Settled surroundings request.graph request.report
  /-- What is there of a derivation has not changed before its job is at work. -/
  unchanged : ∀ node ∈ request.graph.nodes, request.report.has node.fingerprint = false →
    (∀ job ∈ request.jobs, job.fingerprint = node.fingerprint → job.place.isUntouched = true) →
      workshop.offers node = start.offers node ∧ workshop.callsFor node.fingerprint = 0
  missed : ∀ job ∈ request.jobs, start.offers job.derivation = false
  bound : ∀ job ∈ request.jobs,
    surroundings.fate start.config job.derivation (workshop.callsFor job.fingerprint) job.place =
      surroundings.ownError? start.config job.derivation
  called : ∀ job ∈ request.jobs,
    (∀ outputs attempt rest, job.place = .running outputs attempt rest → 0 < workshop.callsFor job.fingerprint) ∧
    (job.place = .preparing → workshop.callsFor job.fingerprint = 0)

namespace Workshop

namespace OnTrack
variable {workshop next : Workshop} {request next' : Request}

/-- The request moves, but none of its jobs does. -/
private theorem quiet (track : start.OnTrack surroundings workshop request)
    (requests : next.requests = [next']) (config : next.config = workshop.config) (books : next'.Books [])
    (going : next'.cancelled = false ∧ next'.halted = false) (graph : next'.graph = request.graph)
    (settled : start.Settled surroundings next'.graph next'.report) (grows : next'.report.Extends request.report)
    (offers : ∀ node ∈ request.graph.nodes, next'.report.has node.fingerprint = false →
      (∀ job ∈ request.jobs, job.fingerprint = node.fingerprint → job.place.isUntouched = true) →
        next.offers node = workshop.offers node)
    (calls : next.calls = workshop.calls)
    (jobs : ∀ job ∈ next'.jobs, job ∈ request.jobs ∨ job.place = .queued ∧ start.offers job.derivation = false)
    (remain : ∀ job ∈ request.jobs, next'.report.has job.fingerprint = false → job ∈ next'.jobs) :
    start.OnTrack surroundings next next' := by
  have same (fingerprint : Fingerprint) : next.callsFor fingerprint = workshop.callsFor fingerprint := by
    simp only [callsFor, calls]
  refine ⟨requests, config.trans track.config, books, going, settled, ?_, ?_, ?_, ?_⟩
  · intro node member unrecorded untouched
    rw [graph] at member
    have before : ∀ job ∈ request.jobs, job.fingerprint = node.fingerprint → job.place.isUntouched = true :=
      fun job present at' => untouched job (remain job present (at' ▸ unrecorded)) at'
    have fresh : request.report.has node.fingerprint = false := by
      by_contra recorded
      simp [grows.has (by simpa using recorded)] at unrecorded
    obtain ⟨offered, none⟩ := track.unchanged node member fresh before
    exact ⟨(offers node member unrecorded before).trans offered, (same _).trans none⟩
  · intro job member
    rcases jobs job member with old | ⟨_, missed⟩
    · exact track.missed job old
    · exact missed
  · intro job member
    rw [same]
    rcases jobs job member with old | ⟨queued, _⟩
    · exact track.bound job old
    · rw [queued]
      rfl
  · intro job member
    rw [same]
    rcases jobs job member with old | ⟨queued, _⟩
    · exact track.called job old
    · simp [queued]

private theorem visit (track : start.OnTrack surroundings workshop request) (visits : request.visit = some next') :
    start.OnTrack surroundings (workshop.setRequest 0 next') next' := by
  have books := (track.books.visit visits).1
  obtain ⟨_, rest, derivation, _, _, _, ⟨stopped, _⟩ | ⟨_, rfl⟩⟩ := Request.visit_cases track.books visits
  · simp [Request.isStopped, track.going] at stopped
  · exact track.quiet (by simp [setRequest, track.requests]) rfl books track.going rfl track.settled (Extends.refl _)
      (fun _ _ _ _ => rfl) rfl (fun _ => Or.inl) (fun _ present _ => present)

private theorem look {derivation : Derivation} (track : start.OnTrack surroundings workshop request)
    (looking : request.looking = some derivation) :
    start.OnTrack surroundings
      ((workshop.fetch derivation).1.setRequest 0 (request.looked derivation (workshop.fetch derivation).2))
      (request.looked derivation (workshop.fetch derivation).2) := by
  have found := track.books.looking derivation looking
  have placed : derivation.fingerprint ∈ [] ++ request.placed := by simp [Request.placed, looking]
  have fresh := track.books.unrecorded _ placed
  have due := (track.books.due _ placed).2
  have noJob : ∀ job ∈ request.jobs, job.fingerprint ≠ derivation.fingerprint := by
    intro job member same
    have once := track.books.once
    simp only [Request.placed, looking, List.nil_append] at once
    have apart := (List.nodup_append.mp (List.nodup_append.mp once).2.1).2.2
    exact apart derivation.fingerprint (by simp) _ (List.mem_map_of_mem member) same.symm
  have offered := (track.unchanged derivation (find?_some found).1 fresh
    fun job member same => absurd same (noJob job member)).1
  have moved := track.books.looked looking (workshop.fetch derivation).2
  cases outcome : (workshop.fetch derivation).2 with
  | some outputs =>
    rw [outcome] at moved
    have own : start.Own surroundings derivation (.succeeded outputs true) := by
      refine Or.inl ?_
      rw [← offered, offers, outcome]
      rfl
    have settled := track.settled.insert found fresh due own
    obtain ⟨waiting, ready, shape⟩ := Request.succeed_eq { request with looking := none } derivation ⟨outputs, true⟩
    have shape : request.looked derivation (some outputs) = _ := shape
    rw [shape] at moved ⊢
    refine track.quiet (by simp [setRequest, fetch, track.requests]) rfl moved.1 track.going rfl settled moved.2.grows
      ?_ rfl (fun _ => Or.inl) (fun _ present _ => present)
    intro node _ unrecorded _
    have differs : node.fingerprint ≠ derivation.fingerprint := by
      intro same
      simp [Request.record, has_insert, same] at unrecorded
    exact offers_fetch_of_ne workshop differs
  | none =>
    rw [outcome] at moved
    have absent : workshop.offers derivation = false := by simp [offers, outcome]
    rw [fetch_of_missed absent]
    refine track.quiet (by simp [setRequest, track.requests]) rfl moved.1 track.going rfl track.settled (Extends.refl _)
      (fun _ _ _ _ => rfl) rfl ?_ (fun job present _ => List.mem_append_left _ present)
    intro job member
    rcases List.mem_append.mp member with old | new
    · exact Or.inl old
    · rw [List.mem_singleton.mp new]
      exact Or.inr ⟨rfl, offered ▸ absent⟩

/-! ### Jobs that move -/

/-- What a job changes that moves as foreseen is its own, and it is bound for the same
    end as before. -/
private structure Keeps (surroundings : Surroundings) (config : BuildConfig) (workshop : Workshop) (job : Job)
    (after : Workshop × Job) : Prop where
  cache : ∀ fingerprint, fingerprint ≠ job.fingerprint →
    after.1.cache.get? fingerprint = workshop.cache.get? fingerprint
  calls : ∀ fingerprint, fingerprint ≠ job.fingerprint → after.1.callsFor fingerprint = workshop.callsFor fingerprint
  untouched : after.2.place.isUntouched = true → job.place.isUntouched = true ∧ after.1 = workshop
  bound : surroundings.fate config job.derivation (after.1.callsFor job.fingerprint) after.2.place =
    surroundings.ownError? config job.derivation
  called : (∀ outputs attempt rest, after.2.place = .running outputs attempt rest →
      0 < after.1.callsFor job.fingerprint) ∧
    (after.2.place = .preparing → after.1.callsFor job.fingerprint = 0)

/-- A job that has not touched its entry finds what there was at the start, nothing. -/
private theorem untouched (track : start.OnTrack surroundings workshop request) {job : Job}
    (member : job ∈ request.jobs) (still : job.place.isUntouched = true) :
    workshop.offers job.derivation = false ∧ workshop.callsFor job.fingerprint = 0 := by
  have placed : job.fingerprint ∈ [] ++ request.placed := by
    simp [Request.placed, List.mem_map_of_mem member]
  obtain ⟨offered, none⟩ := track.unchanged job.derivation (find?_some (track.books.jobs job member).1).1
    (track.books.unrecorded _ placed) fun other present same => by
      rw [track.books.job_eq present member same]
      exact still
  exact ⟨offered.trans (track.missed job member), none⟩

/-- A job waits or moves, and changes nothing else. -/
private theorem Keeps.still {config : BuildConfig} {job moved : Job}
    (untouched : moved.place.isUntouched = true → job.place.isUntouched = true)
    (bound : surroundings.fate config job.derivation (workshop.callsFor job.fingerprint) moved.place =
      surroundings.ownError? config job.derivation)
    (called : (∀ outputs attempt rest, moved.place = .running outputs attempt rest →
        0 < workshop.callsFor job.fingerprint) ∧
      (moved.place = .preparing → workshop.callsFor job.fingerprint = 0)) :
    Keeps surroundings config workshop job (workshop, moved) :=
  ⟨fun _ _ => rfl, fun _ _ => rfl, fun still => ⟨untouched still, rfl⟩, bound, called⟩

private theorem keeps_prepare {config : BuildConfig} {job : Job}
    (foreseen : Store.failure? (workshop.store.prepare workshop.disk job.derivation).2 =
      surroundings.preparing job.fingerprint)
    (none : workshop.callsFor job.fingerprint = 0) :
    Keeps surroundings config workshop job (workshop.prepare job) := by
  unfold Workshop.prepare
  split
  next disk outputs made =>
    rw [made] at foreseen
    refine ⟨fun _ _ => rfl, fun _ _ => rfl, fun absurd => by simp [Job.goTo, JobPlace.isUntouched] at absurd, ?_,
      by simp [Job.goTo]⟩
    have same : ({ workshop with disk } : Workshop).callsFor job.fingerprint = 0 := none
    have free : surroundings.preparing job.derivation.fingerprint = .none := foreseen.symm
    rw [same]
    simp [Surroundings.fate, Surroundings.ownError?, Job.goTo, free]
  next disk error failed =>
    rw [failed] at foreseen
    refine ⟨fun _ _ => rfl, fun _ _ => rfl,
      fun absurd => by simp [Job.finish, Job.goTo, JobPlace.isUntouched] at absurd, ?_, by simp [Job.finish, Job.goTo]⟩
    have own : surroundings.preparing job.derivation.fingerprint = some error := foreseen.symm
    simp [Surroundings.fate, Surroundings.ownError?, Job.finish, Job.goTo, own]

private theorem keeps_commit {config : BuildConfig} {job : Job} {outputs : Outputs}
    (foreseen : Store.failure? (Store.commit workshop.disk job.derivation outputs).2 =
      surroundings.completing job.fingerprint)
    (bound : surroundings.completing job.derivation.fingerprint = surroundings.ownError? config job.derivation) :
    Keeps surroundings config workshop job (workshop.commit job outputs) := by
  rw [← Job.fingerprint, ← foreseen] at bound
  unfold Workshop.commit
  split
  next disk made =>
    rw [made] at bound
    exact ⟨fun _ _ => rfl, fun _ _ => rfl, fun absurd => by simp [Job.goTo, JobPlace.isUntouched] at absurd, bound,
      by simp [Job.goTo]⟩
  next disk error failed =>
    rw [failed] at bound
    exact ⟨fun _ _ => rfl, fun _ _ => rfl,
      fun absurd => by simp [Job.finish, Job.goTo, JobPlace.isUntouched] at absurd, bound, by simp [Job.finish, Job.goTo]⟩

private theorem keeps_call {config : BuildConfig} {id : RequestId} {job : Job} {outputs : Outputs} {attempt : Attempt}
    {rest : List Phase}
    (bound : surroundings.fate config job.derivation (workshop.callsFor job.fingerprint)
      (.calling outputs attempt rest) = surroundings.ownError? config job.derivation) :
    Keeps surroundings config workshop job (workshop.call id job outputs attempt rest) := by
  have more : (workshop.call id job outputs attempt rest).1.callsFor job.fingerprint =
      workshop.callsFor job.fingerprint + 1 := by
    simp [Workshop.call, callsFor, Job.fingerprint]
  refine ⟨fun _ _ => rfl, ?_, fun absurd => by simp [Workshop.call, Job.goTo, JobPlace.isUntouched] at absurd, ?_,
    fun _ _ _ _ => by omega, fun absurd => by simp [Workshop.call, Job.goTo] at absurd⟩
  · intro fingerprint differs
    have differs : job.derivation.fingerprint ≠ fingerprint := Ne.symm differs
    simp [Workshop.call, callsFor, differs]
  · rw [more]
    exact bound

private theorem keeps_advance (track : start.OnTrack surroundings workshop request) {job : Job}
    (member : job ∈ request.jobs) (at' : workshop.requests[0]? = some request)
    (foreseen : workshop.Foreseen surroundings (.advance 0 job.fingerprint)) :
    Keeps surroundings start.config workshop job (workshop.advance 0 request job) := by
  have bound := track.bound job member
  have called := track.called job member
  fun_cases Workshop.advance workshop 0 request job with
  | case1 calledOff => simp [track.going] at calledOff
  | case6 going place halted => simp [track.going] at halted
  | case3 going place | case4 going place | case13 going outputs attempt rest place | case16 going result place =>
    exact .still id bound called
  | case2 going place | case5 going place | case7 going place =>
    refine .still (fun _ => by simp [place, JobPlace.isUntouched]) rfl ?_
    simp [Job.goTo]
  | case8 going place after outputs found =>
    have nothing := (track.untouched member (by simp [place, JobPlace.isUntouched])).1
    simp [offers, found] at nothing
  | case9 going place after found =>
    obtain ⟨nothing, none⟩ := track.untouched member (by simp [place, JobPlace.isUntouched])
    obtain rfl : workshop = after := by simpa [fetch_of_missed nothing] using found
    refine .still (fun _ => by simp [place, JobPlace.isUntouched]) rfl ?_
    simp [Job.goTo, none]
  | case10 going place =>
    exact keeps_prepare (foreseen.preparing 0 request at' job member rfl place) (called.2 place)
  | case11 going outputs rest place =>
    rw [place] at bound
    refine .still ?_ ?_ ?_
    · fun_cases Job.proceed workshop.config job outputs rest <;> simp [Job.goTo, JobPlace.isUntouched]
    · rw [track.config, Surroundings.fate_proceed]
      exact bound
    · fun_cases Job.proceed workshop.config job outputs rest <;> simp [Job.goTo]
  | case12 going outputs attempt rest place => exact keeps_call (place ▸ bound)
  | case14 going outputs place =>
    rw [place] at bound
    exact keeps_commit (foreseen.completing 0 request at' job member rfl outputs place) bound
  | case15 going outputs place cache recorded insert =>
    rw [place] at bound
    refine ⟨?_, fun _ _ => rfl, fun absurd => by simp [Job.finish, Job.goTo, JobPlace.isUntouched] at absurd, bound,
      by simp [Job.finish, Job.goTo]⟩
    intro fingerprint differs
    obtain rfl : (workshop.cache.insert job.fingerprint outputs).1 = cache := congrArg Prod.fst insert
    exact get?_remember_of_ne _ differs _

private theorem replied_place (config : BuildConfig) (job : Job) (outputs : Outputs) (attempt : Attempt)
    (rest : List Phase) (reply : Reply) :
    (replied config job outputs attempt rest reply).place.isUntouched = false ∧
      (∀ outputs' attempt' rest', (replied config job outputs attempt rest reply).place ≠ .running outputs' attempt' rest') ∧
      (replied config job outputs attempt rest reply).place ≠ .preparing := by
  cases reply with
  | exit status =>
    simp only [replied]
    fun_cases Job.exited config job outputs attempt rest status <;>
      simp [Job.finish, Job.goTo, JobPlace.isUntouched]
  | error error => simp [replied, Job.finish, Job.goTo, JobPlace.isUntouched]
  | crash => simp [replied, Job.finish, Job.goTo, JobPlace.isUntouched]

private theorem keeps_reply (track : start.OnTrack surroundings workshop request) {job : Job} {outputs : Outputs}
    {attempt : Attempt} {rest : List Phase} (member : job ∈ request.jobs)
    (running : job.place = .running outputs attempt rest) :
    Keeps surroundings start.config workshop job
      (workshop, replied workshop.config job outputs attempt rest
        (surroundings.answer job.fingerprint (workshop.callsFor job.fingerprint - 1))) := by
  have bound := track.bound job member
  have called := (track.called job member).1 _ _ _ running
  rw [running] at bound
  obtain ⟨touched, notRunning, notPreparing⟩ := replied_place workshop.config job outputs attempt rest
    (surroundings.answer job.fingerprint (workshop.callsFor job.fingerprint - 1))
  refine .still (fun still => ?_) ?_ ⟨fun _ _ _ at' => absurd at' (notRunning _ _ _), fun at' => absurd at' notPreparing⟩
  · simp [touched] at still
  · rw [track.config]
    exact (surroundings.fate_replied start.config job outputs attempt rest called).trans bound

/-- A job moves as foreseen. -/
private theorem move (track : start.OnTrack surroundings workshop request) {job : Job} {after : Workshop × Job}
    (member : request.jobs.find? (·.fingerprint = job.fingerprint) = some job)
    (keeps : Keeps surroundings start.config workshop job after)
    (requests : after.1.requests = workshop.requests) (config : after.1.config = workshop.config)
    (derivation : after.2.derivation = job.derivation) (inputs : after.2.inputs = job.inputs)
    (undisturbed : ∀ node ∈ request.graph.nodes,
      (∀ other ∈ request.jobs, other.fingerprint = node.fingerprint → other.place.isUntouched = true) →
        (workshop.store.lookup after.1.disk node).isSome = (workshop.store.lookup workshop.disk node).isSome) :
    start.OnTrack surroundings (after.1.setRequest 0 (request.updateJob job.fingerprint fun _ => after.2))
      (request.updateJob job.fingerprint fun _ => after.2) := by
  have present : job ∈ request.jobs := List.mem_of_find?_eq_some member
  -- A job afterwards is the one that has moved, or another that has stayed.
  have either : ∀ other ∈ (request.updateJob job.fingerprint fun _ => after.2).jobs,
      other = after.2 ∨ other ∈ request.jobs ∧ other.fingerprint ≠ job.fingerprint := by
    intro other within
    obtain ⟨before, old, shape⟩ := List.mem_map.mp within
    by_cases here : before.fingerprint = job.fingerprint
    · simp only [here, ↓reduceIte] at shape
      exact Or.inl shape.symm
    · simp only [here, ↓reduceIte] at shape
      exact Or.inr (shape ▸ ⟨old, here⟩)
  have same : after.2.fingerprint = job.fingerprint := congrArg Derivation.fingerprint derivation
  have stays (other : Job) (differs : other.fingerprint ≠ job.fingerprint) :
      (after.1.setRequest 0 (request.updateJob job.fingerprint fun _ => after.2)).callsFor other.fingerprint =
        workshop.callsFor other.fingerprint := keeps.calls _ differs
  refine ⟨by simp [setRequest, requests, track.requests], config.trans track.config,
    (track.books.updateJob member derivation inputs request.cancelled).1, track.going, track.settled, ?_, ?_, ?_, ?_⟩
  · intro node within unrecorded still
    by_cases here : node.fingerprint = job.fingerprint
    · have moved : after.2 ∈ (request.updateJob job.fingerprint fun _ => after.2).jobs :=
        List.mem_map.mpr ⟨job, present, by simp⟩
      obtain ⟨untouched, unmoved⟩ := keeps.untouched (still after.2 moved (same.trans here.symm))
      have was := track.unchanged node within unrecorded fun other old at' => by
        rw [track.books.job_eq old present (at'.trans here)]
        exact untouched
      rw [unmoved]
      exact was
    · have still : ∀ other ∈ request.jobs, other.fingerprint = node.fingerprint → other.place.isUntouched = true := by
        intro other old at'
        refine still other (List.mem_map.mpr ⟨other, old, ?_⟩) at'
        simp [at', here]
      obtain ⟨offered, none⟩ := track.unchanged node within unrecorded still
      refine ⟨?_, (keeps.calls _ here).trans none⟩
      rw [← offered, offers_eq, offers_eq workshop, ← undisturbed node within still, ← keeps.cache _ here]
      simp only [store, setRequest, config]
  · intro other within
    rcases either other within with rfl | ⟨old, _⟩
    · rw [derivation]
      exact track.missed job present
    · exact track.missed other old
  · intro other within
    rcases either other within with rfl | ⟨old, differs⟩
    · rw [same, derivation]
      exact keeps.bound
    · rw [stays other differs]
      exact track.bound other old
  · intro other within
    rcases either other within with rfl | ⟨old, differs⟩
    · rw [same]
      exact keeps.called
    · rw [stays other differs]
      exact track.called other old

/-- A request of which nothing is under way has all its derivations recorded. -/
private theorem has_of_idle (track : start.OnTrack surroundings workshop request) (idle : request.placed = [])
    {fingerprint : Fingerprint} (within : request.graph.contains fingerprint = true) :
    request.report.has fingerprint = true := by
  refine track.books.order.induction (P := fun fingerprint => request.report.has fingerprint = true) ?_ fingerprint within
  intro fingerprint within inputs
  by_contra unrecorded
  have unrecorded : request.report.has fingerprint = false := by simpa using unrecorded
  have lacks : request.graph.missing request.report fingerprint ≠ 0 := by
    intro due
    simpa [idle] using track.books.complete fingerprint within due unrecorded
  -- An input that has not succeeded has failed, and its failure spreads.
  obtain ⟨input, uses, open'⟩ : ∃ input ∈ request.graph.dependencies fingerprint, request.report.succeeded input ≠ true := by
    by_contra none
    refine lacks (missing_eq_zero.mpr fun input uses => ?_)
    by_contra open'
    exact none ⟨input, uses, open'⟩
  obtain ⟨⟨name, status⟩, known⟩ := has_iff.mp (inputs input uses)
  obtain ⟨node, found, rfl⟩ := track.books.named input _ known
  have failed : ∃ error, request.report.Failed input error := by
    cases status with
    | succeeded outputs cached => exact absurd (succeeded_iff.mpr ⟨_, _, _, known⟩) open'
    | failed error => exact ⟨error, _, known⟩
    | cancelled =>
      obtain ⟨_, rfl⟩ := find?_some found
      rcases track.settled node .cancelled found known with ⟨_, own⟩ | ⟨_, absurd, _⟩
      · exact own.elim
      · cases absurd
  obtain ⟨error, failed⟩ := failed
  obtain ⟨cause, handed⟩ := track.books.spread input error failed fingerprint (track.books.graph.mem_dependents.mpr uses)
  simp [handed.has] at unrecorded

private theorem close (track : start.OnTrack surroundings workshop request) (closes : request.close = some next') :
    start.OnTrack surroundings (workshop.setRequest 0 next') next' := by
  obtain ⟨books, continues⟩ := track.books.close closes
  obtain ⟨idle, _, later, rfl, known⟩ := Request.Books.close_cases closes
  have settled := track.settled.grow continues.grows fun node status found _ new => by
    have recorded := track.has_of_idle idle (contains_iff.mpr ⟨node, found⟩)
    simp [recorded] at new
  exact track.quiet (by simp [setRequest, track.requests]) rfl books track.going rfl settled continues.grows
    (fun _ _ _ _ => rfl) rfl (fun _ => Or.inl) (fun _ present _ => present)

/-- What a job came to is recorded for its derivation, and the request goes on. -/
private theorem conclude (track : start.OnTrack surroundings workshop request)
    (keepsGoing : start.config.keepGoing = true) {job : Job} {result : JobResult} (member : job ∈ request.jobs)
    (place : job.place = .finished result)
    (lawful : ∀ name, surroundings.ownError? start.config job.derivation ≠ some (.cancelled name)) (rest : Request)
    (graph : rest.graph = request.graph) (report : rest.report = request.report)
    (going : rest.cancelled = false ∧ rest.halted = false) :
    ((rest.conclude workshop.config job.derivation result).cancelled = false ∧
      (rest.conclude workshop.config job.derivation result).halted = false) ∧
      (rest.conclude workshop.config job.derivation result).graph = request.graph ∧
      (rest.conclude workshop.config job.derivation result).jobs = rest.jobs ∧
      start.Settled surroundings (rest.conclude workshop.config job.derivation result).graph
        (rest.conclude workshop.config job.derivation result).report := by
  have placed : job.fingerprint ∈ [] ++ request.placed := by simp [Request.placed, List.mem_map_of_mem member]
  have found := (track.books.jobs job member).1
  have fresh := track.books.unrecorded _ placed
  have due := (track.books.due _ placed).2
  have missed := track.missed job member
  have bound := track.bound job member
  rw [place] at bound
  fun_cases Request.conclude workshop.config rest job.derivation result with
  | case1 realized =>
    obtain ⟨waiting, ready, shape⟩ := Request.succeed_eq rest job.derivation realized
    rw [shape]
    refine ⟨going, graph, rfl, ?_⟩
    simp only [Request.record, graph, report]
    exact track.settled.insert found fresh due (Or.inr bound.symm)
  | case2 name => exact absurd bound.symm (lawful name)
  | case3 error other failed keeps =>
    refine ⟨going, graph, rfl, ?_⟩
    simp only [failed, Request.fail, graph, report]
    exact track.settled.fail track.books.graph found due ⟨missed, bound.symm⟩
  | case4 error other failed stops => simp [track.config, keepsGoing] at stops

private theorem join {fingerprint : Fingerprint} (track : start.OnTrack surroundings workshop request)
    (keepsGoing : start.config.keepGoing = true)
    (lawful : ∀ node ∈ request.graph.nodes, ∀ name, surroundings.ownError? start.config node ≠ some (.cancelled name))
    (joins : request.join workshop.config fingerprint = some next') :
    start.OnTrack surroundings (workshop.setRequest 0 next') next' := by
  obtain ⟨books, continues⟩ := track.books.join joins
  obtain ⟨job, result, looking, ready, member, rfl, place, rfl⟩ := Request.join_cases joins
  have node := (find?_some (track.books.jobs job member).1).1
  obtain ⟨going, graph, jobs, settled⟩ := track.conclude keepsGoing member place (lawful _ node)
    { request with jobs := request.jobs.filter (·.fingerprint ≠ job.fingerprint) } rfl rfl track.going
  refine track.quiet (by simp [setRequest, track.requests]) rfl books going graph settled continues.grows
    (fun _ _ _ _ => rfl) rfl ?_ ?_
  · intro other present
    rw [jobs] at present
    exact Or.inl (List.mem_of_mem_filter present)
  · intro other present unrecorded
    rcases continues.jobs other.fingerprint (List.mem_map_of_mem present) with stays | recorded
    · rw [jobs] at stays ⊢
      obtain ⟨twin, kept, same⟩ := List.mem_map.mp stays
      exact List.mem_filter.mpr ⟨present, by simpa [same] using (List.mem_filter.mp kept).2⟩
    · cases recorded.symm.trans unrecorded

private theorem write {disk : Disk} (track : start.OnTrack surroundings workshop request)
    (undisturbed : ∀ node ∈ request.graph.nodes,
      (∀ job ∈ request.jobs, job.fingerprint = node.fingerprint → job.place.isUntouched = true) →
        (workshop.store.lookup disk node).isSome = (workshop.store.lookup workshop.disk node).isSome) :
    start.OnTrack surroundings { workshop with disk } request := by
  refine track.quiet track.requests rfl track.books track.going rfl track.settled (Extends.refl _) ?_ rfl
    (fun _ => Or.inl) (fun _ present _ => present)
  intro node within _ untouched
  rw [offers_eq, offers_eq, ← undisturbed node within untouched]
  rfl

/-- What is on its way as foreseen stays so. -/
theorem step {event : Event} (track : start.OnTrack surroundings workshop request)
    (keepsGoing : start.config.keepGoing = true)
    (lawful : ∀ node ∈ request.graph.nodes, ∀ name, surroundings.ownError? start.config node ≠ some (.cancelled name))
    (foreseen : workshop.Foreseen surroundings event) (steps : workshop.step event = some next) :
    ∃ next', start.OnTrack surroundings next next' ∧ next'.graph = request.graph := by
  have at0 : workshop.requests[0]? = some request := by simp [track.requests]
  have undisturbed := foreseen.undisturbed next steps request (by simp [track.requests])
  cases step_serves steps with
  | @request roots cancelled => exact absurd rfl (foreseen.alone roots cancelled)
  | visit at' visits =>
    obtain ⟨rfl, rfl⟩ := eq_of_lone track.requests at'
    exact ⟨_, track.visit visits, (track.books.visit visits).2.graph⟩
  | @look _ _ derivation at' looking =>
    obtain ⟨rfl, rfl⟩ := eq_of_lone track.requests at'
    exact ⟨_, track.look looking, (track.books.looked looking _).2.graph⟩
  | @advance _ _ job at' member =>
    obtain ⟨rfl, rfl⟩ := eq_of_lone track.requests at'
    have frame := advance_frame workshop 0 request job
    have keeps := track.keeps_advance (List.mem_of_find?_eq_some member) at0 foreseen
    exact ⟨_, track.move member keeps frame.requests frame.config frame.derivation frame.inputs undisturbed, rfl⟩
  | @reply _ _ job outputs attempt rest reply cancels at' member running =>
    obtain ⟨rfl, rfl⟩ := eq_of_lone track.requests at'
    obtain ⟨rfl, rfl⟩ := foreseen.replies 0 job.fingerprint reply cancels rfl
    have keeps := track.keeps_reply (List.mem_of_find?_eq_some member) running
    have frame := replied_frame workshop.config job outputs attempt rest
      (surroundings.answer job.fingerprint (workshop.callsFor job.fingerprint - 1))
    have going : { request with cancelled := false } = request := by rw [← track.going.1]
    rw [going]
    exact ⟨_, track.move member keeps rfl rfl frame.1 frame.2 fun _ _ _ => rfl, rfl⟩
  | join at' joins =>
    obtain ⟨rfl, rfl⟩ := eq_of_lone track.requests at'
    exact ⟨_, track.join keepsGoing lawful joins, (track.books.join joins).2.graph⟩
  | close at' closes =>
    obtain ⟨rfl, rfl⟩ := eq_of_lone track.requests at'
    exact ⟨_, track.close closes, (track.books.close closes).2.graph⟩
  | @cancel id => exact absurd rfl (foreseen.uncancelled id)
  | write disk => exact ⟨_, track.write undisturbed, rfl⟩

end OnTrack

theorem OnTrack.run {workshop after : Workshop} {request : Request} {events : List Event}
    (track : start.OnTrack surroundings workshop request) (keepsGoing : start.config.keepGoing = true)
    (lawful : ∀ node ∈ request.graph.nodes, ∀ name, surroundings.ownError? start.config node ≠ some (.cancelled name))
    (foreseen : workshop.Along (Foreseen surroundings) events) (ran : workshop.run events = some after) :
    ∃ final, start.OnTrack surroundings after final ∧ final.graph = request.graph := by
  induction events generalizing workshop request with
  | nil =>
    cases ran
    exact ⟨request, track, rfl⟩
  | cons event rest ih =>
    obtain ⟨next, steps, onwards⟩ := run_cons ran
    obtain ⟨next', later, same⟩ := track.step keepsGoing lawful foreseen.1 steps
    obtain ⟨final, ended, graph⟩ := ih later (same ▸ lawful) (foreseen.2 next steps) onwards
    exact ⟨final, ended, graph.trans same⟩

theorem OnTrack.serving {request : Request} {roots : List Derivation} (opens : request.Opens roots)
    (uncancelled : request.cancelled = false) : start.OnTrack surroundings (start.serving request) request := by
  have idle : request.jobs = [] := by rw [opens.fresh]; rfl
  have fresh : request.report = .empty request.graph.roots := by rw [opens.fresh]; rfl
  refine ⟨rfl, rfl, opens.books, ⟨uncancelled, by rw [opens.fresh]; rfl⟩, ?_, ?_, ?_, ?_, ?_⟩
  · intro node status _ known
    simp [fresh, BuildReport.empty, BuildReport.get?, Dict.get?] at known
  · exact fun node _ _ _ => ⟨rfl, rfl⟩
  · simp [idle]
  · simp [idle]
  · simp [idle]

end Workshop

end
end Pkgset

import Pkgset.Proofs.Build.Planning

/-!
# Requests that are halted

A request that does not keep going is halted for a failure. It is halted when it collects
the job that failed, not when that job fails: the permit of the job is free before, and a
job that gets it meanwhile and finds the request still going is at work from then on. What
is at work when the failure is collected goes on to its end, and nothing else begins.
-/

namespace Pkgset
open BuildReport BuildGraph

theorem JobPlace.isEarly_of_isMaking {place : JobPlace} (making : place.isMaking = true) : place.isEarly = false := by
  cases place with
  | finished result => cases making
  | _ => first | rfl | cases making

/-- How the jobs of a stopped request move: one that is early stays so. -/
def Job.StaysEarly (job moved : Job) : Prop := job.place.isEarly = true → moved.place.isEarly = true

namespace Request
variable {config : BuildConfig} {request later : Request}

/-- A request that does not keep going is halted by a failure that it collects. -/
theorem conclude_of_failed {error : BuildError} (failed : ∀ name, error ≠ .cancelled name)
    (stops : config.keepGoing = false) (request : Request) (derivation : Derivation) :
    request.conclude config derivation (.error error) = { request.fail derivation error with halted := true } := by
  cases error with
  | cancelled name => exact absurd rfl (failed name)
  | _ => simp [conclude, stops]

/-- What holds of a stopped request, and after everything that such a request does, holds
    from then on. -/
theorem Subsides.induct {goes : Job → Job → Prop} {motive : Request → Prop}
    (step : ∀ {request next}, request.Books [] → request.isStopped = true → request.Subsides config goes next →
      motive request → motive next)
    (books : request.Books []) (stopped : request.isStopped = true) (first : motive request)
    (reaches : Relation.ReflTransGen (Request.Subsides config goes) request later) :
    later.Books [] ∧ later.isStopped = true ∧ motive later := by
  induction reaches with
  | refl => exact ⟨books, stopped, first⟩
  | tail _ subsides ih =>
    obtain ⟨books, stopped, holds⟩ := ih
    obtain ⟨scheduled, moves⟩ := subsides.moves
    exact ⟨(books.moves moves).1, subsides.stopped books stopped, step books stopped subsides holds⟩

end Request

namespace Workshop
variable {workshop next after : Workshop} {event : Event} {id : RequestId} {request : Request}

/-! ### A workshop with a stopped request -/

/-- A job of a stopped request that has not had its last look is called off there. -/
theorem advance_staysEarly (workshop : Workshop) (id : RequestId) (job : Job) (stopped : request.isStopped = true) :
    job.StaysEarly (workshop.advance id request job).2 := by
  intro early
  fun_cases Workshop.advance workshop id request job with
  | case1 calledOff => rfl
  | case7 calledOff place going =>
    -- it would go on only if the request were neither called off nor halted
    have off : request.cancelled = false := by simpa [place, JobPlace.heedsCancel] using calledOff
    simp [Request.isStopped, off, going] at stopped
  | _ => simp_all [JobPlace.isEarly, Job.goTo, Job.cancel, Job.finish]

theorem Undergoes.subsides {request' : Request} (undergoes : workshop.Undergoes id request event request')
    (stopped : request.isStopped = true) : request.Subsides workshop.config Job.StaysEarly request' := by
  cases undergoes with
  | visit visits => exact .visit visits
  | look looking => exact .look looking _
  | @advance job member =>
    have frame := advance_frame workshop id request job
    exact .job member frame.derivation frame.inputs (advance_staysEarly workshop id job stopped) request.cancelled
      fun off => off
  | @reply job outputs attempt rest reply cancels member running open' =>
    have frame := replied_frame workshop.config job outputs attempt rest reply
    refine .job member frame.1 frame.2 (fun early => ?_) cancels (by simp [open'])
    rw [running] at early
    cases early
  | join joins => exact .join joins
  | close closes => exact .close closes
  | cancel => exact .cancel

/-- A call that a request makes is for a job of it that is not early. -/
theorem Serves.callsOf_cases (serves : workshop.Serves event next) (at' : workshop.requests[id]? = some request) :
    next.callsOf id = workshop.callsOf id ∨ ∃ job ∈ request.jobs, job.place.isEarly = false ∧
      ∃ call, call.derivation = job.derivation ∧ next.callsOf id = call :: workshop.callsOf id := by
  cases serves with
  | @advance other owner job owns member =>
    unfold callsOf
    rcases (advance_frame workshop other owner job).calls with same | ⟨attempt, outputs, called⟩
    · exact Or.inl (by simp [setRequest, same])
    by_cases here : other = id
    · subst here
      obtain rfl : owner = request := Option.some.inj (owns.symm.trans at')
      refine Or.inr ⟨job, List.mem_of_find?_eq_some member, ?_, _, rfl, by simp [setRequest, called]; rfl⟩
      rcases (stride_advance workshop other owner job).calls with same | ⟨making, _⟩
      · simp [same] at called
      · exact JobPlace.isEarly_of_isMaking making
    · exact Or.inl (by simp [setRequest, called, here])
  | _ => exact Or.inl rfl

/-- From when a request is stopped on, it does only what such a request does, and calls the
    runner only for what was begun before. -/
theorem run_subsides {events : List Event} (guarded : workshop.Guarded) (at' : workshop.requests[id]? = some request)
    (stopped : request.isStopped = true) (ran : workshop.run events = some after) :
    ∃ later fresh, after.requests[id]? = some later ∧
      Relation.ReflTransGen (Request.Subsides workshop.config Job.StaysEarly) request later ∧
        after.callsOf id = fresh ++ workshop.callsOf id ∧
          ∀ call ∈ fresh, ¬ request.Unbegun call.derivation.fingerprint := by
  induction events generalizing workshop request with
  | nil =>
    cases ran
    exact ⟨request, [], at', .refl, rfl, by simp⟩
  | cons event rest ih =>
    obtain ⟨between, steps, onwards⟩ := run_cons ran
    have serves := step_serves steps
    have books := guarded.books request (List.mem_of_getElem? at')
    obtain ⟨now, atNow, undergoes⟩ := serves.undergoes at'
    have subsides : now = request ∨ request.Subsides workshop.config Job.StaysEarly now :=
      undergoes.imp_right (·.subsides stopped)
    have stoppedNow : now.isStopped = true := by
      rcases subsides with rfl | subsides
      · exact stopped
      · exact subsides.stopped books stopped
    have unbegun {fingerprint : Fingerprint} (unbegun : request.Unbegun fingerprint) : now.Unbegun fingerprint := by
      rcases subsides with rfl | subsides
      · exact unbegun
      · exact unbegun.subsides books stopped (fun stays => stays) subsides
    obtain ⟨later, fresh, atLater, reaches, calls, begun⟩ := ih (guarded.step serves) atNow stoppedNow onwards
    have reaches : Relation.ReflTransGen (Request.Subsides workshop.config Job.StaysEarly) request later := by
      rw [serves.config] at reaches
      rcases subsides with rfl | subsides
      · exact reaches
      · exact .head subsides reaches
    rcases serves.callsOf_cases at' with same | ⟨job, member, late, call, itself, called⟩
    · exact ⟨later, fresh, atLater, reaches, by rw [calls, same], fun call new still => begun call new (unbegun still)⟩
    · refine ⟨later, fresh ++ [call], atLater, reaches, by rw [calls, called, List.append_assoc]; rfl, ?_⟩
      intro other new still
      rcases List.mem_append.mp new with new | last
      · exact begun other new (unbegun still)
      · obtain rfl := List.mem_singleton.mp last
        have early := still.jobs job member (by rw [itself, Job.fingerprint])
        rw [late] at early
        cases early

/-- However requests and jobs went before, and whatever happens from the moment on at which a
    request that does not keep going collects a job that failed: the request stays halted. It
    calls the runner only for derivations whose jobs had their last look whether to go on
    before that moment. At its end, every derivation that had no record and no such job is
    recorded as called off, if no direct input failed, or as failed because of an input. -/
theorem run_halted {before moment : Workshop} {earlier events : List Event} {job : Job} {error : BuildError}
    (opens : ∀ request ∈ workshop.requests, ∃ roots, request.Opens roots) (came : workshop.run earlier = some before)
    (at' : before.requests[id]? = some request) (stops : before.config.keepGoing = false) (member : job ∈ request.jobs)
    (place : job.place = .finished (.error error)) (failed : ∀ name, error ≠ .cancelled name)
    (collects : before.step (.join id job.fingerprint) = some moment) (ran : moment.run events = some after) :
    ∃ now, after.requests[id]? = some now ∧ now.isStopped = true ∧
      (∃ fresh, after.callsOf id = fresh ++ before.callsOf id ∧ ∀ call ∈ fresh, ∃ other ∈ request.jobs,
        other.fingerprint = call.derivation.fingerprint ∧ other.place.isEarly = false ∧ other.fingerprint ≠ job.fingerprint) ∧
      (now.closed = true → ∀ node ∈ request.graph.nodes, request.report.has node.fingerprint = false →
        (∀ other ∈ request.jobs, other.fingerprint = node.fingerprint → other.place.isEarly = true) →
          (now.report.get? node.fingerprint = some ⟨node.name, .cancelled⟩ ∧
            ∀ input ∈ request.graph.dependencies node.fingerprint, ∀ cause, ¬ now.report.Failed input cause) ∨
          ∃ cause, now.report.get? node.fingerprint = some ⟨node.name, .failed cause⟩ ∧
            Request.HandedDown request.graph now.report node cause) := by
  have guarded : before.Guarded := (Guarded.opens opens).run came
  have books := guarded.books request (List.mem_of_getElem? at')
  have guardedMoment : moment.Guarded := guarded.step (step_serves collects)
  -- what is collected is the failure
  obtain ⟨owner, owns, collects⟩ := Option.bind_eq_some_iff.mp collects
  obtain ⟨next, joins, shape⟩ := Option.bind_eq_some_iff.mp collects
  obtain rfl : request = owner := Option.some.inj (at'.symm.trans owns)
  obtain rfl : before.setRequest id next = moment := Option.some.inj shape
  obtain ⟨booksNext, continues⟩ := books.join joins
  obtain ⟨joined, result, looking, ready, present, same, ended, shape⟩ := Request.join_cases joins
  obtain rfl : joined = job := books.job_eq present member same
  obtain rfl : result = .error error := by simpa [ended] using place
  have recorded {fingerprint : Fingerprint} {record : BuildRecord} (apart : fingerprint ≠ joined.derivation.fingerprint)
      (known : next.report.get? fingerprint = some record) : request.report.get? fingerprint = some record ∨
        ∃ node cause, request.graph.find? fingerprint = some node ∧ record = ⟨node.name, .failed cause⟩ ∧
          Request.HandedDown request.graph next.report node cause := by
    rw [shape] at known ⊢
    refine Request.conclude_recorded ?_ apart known
    exact books.graph
  rw [Request.conclude_of_failed failed stops] at shape
  have lookingNext : next.looking = none := by rw [shape]; exact looking
  have jobsNext : next.jobs = request.jobs.filter (·.fingerprint ≠ joined.fingerprint) := by rw [shape]; rfl
  have stopped : next.isStopped = true := by simp [shape, Request.isStopped]
  have atMoment : (before.setRequest id next).requests[id]? = some next := by
    obtain ⟨inside, _⟩ := List.getElem?_eq_some_iff.mp at'
    simp [setRequest, inside]
  obtain ⟨now, fresh, atNow, reaches, calls, begun⟩ := run_subsides guardedMoment atMoment stopped ran
  obtain ⟨booksNow, stoppedNow, graph⟩ := Request.Subsides.induct (motive := fun now => now.graph = next.graph)
    (fun books _ subsides same => by
      obtain ⟨scheduled, moves⟩ := subsides.moves
      exact (books.moves moves).2.graph.trans same) booksNext stopped rfl reaches
  refine ⟨now, atNow, stoppedNow, ⟨fresh, calls, fun call new => ?_⟩, ?_⟩
  · by_contra none
    refine begun call new ⟨by simp [lookingNext], fun other among alike => ?_⟩
    rw [jobsNext, List.mem_filter] at among
    by_contra late
    exact none ⟨other, among.1, alike, by simpa using late, by simpa using among.2⟩
  · intro closed node known fresh early
    have apart : node.fingerprint ≠ joined.fingerprint := by
      intro alike
      have early := early joined member alike.symm
      rw [place] at early
      obtain ⟨name, off⟩ := JobPlace.cancelled_of_isEarly early
      exact failed name (by simpa using off)
    have unbegun : next.Unbegun node.fingerprint := by
      refine ⟨by simp [lookingNext], fun other among alike => early other ?_ alike⟩
      rw [jobsNext] at among
      exact List.mem_of_mem_filter among
    have gives : next.GivesUp node.fingerprint := by
      intro record there
      rcases recorded apart there with old | ⟨twin, cause, found, rfl, handed⟩
      · simp [has, old] at fresh
      · exact ⟨twin, by rw [continues.graph]; exact found, rfl, Or.inr ⟨cause, rfl, by rw [continues.graph]; exact handed⟩⟩
    obtain ⟨_, _, _, givesNow⟩ := Request.Subsides.induct
      (motive := fun now => now.Unbegun node.fingerprint ∧ now.GivesUp node.fingerprint)
      (fun books stopped subsides earlier => ⟨earlier.1.subsides books stopped (fun stays => stays) subsides,
        earlier.2.subsides earlier.1 books stopped subsides⟩) booksNext stopped ⟨unbegun, gives⟩ reaches
    rw [← continues.graph, ← graph]
    have found : now.graph.find? node.fingerprint = some node := by
      rw [graph, continues.graph]
      exact books.graph.find?_of_mem known
    exact booksNow.given_up givesNow closed found

end Workshop

/-! ### A failure that is collected early, or late -/

namespace Errand

/-- What happens until the job of `unnamed` has failed while that of `lib` waits for a permit. -/
def mishap : List Event := openings ++ List.replicate 5 (.advance 0 unnamed.fingerprint)

/-- The request when the failure was collected before `lib` was begun. -/
def checked : Request := { abreast refused .queued with report := losses, jobs := [⟨lib, [], .queued⟩], halted := true }

/-- What happens after that: the job of `lib` gets a permit and the claim, and notices. -/
def remnants : List Event := [work, work, work, .join 0 lib.fingerprint, .close 0]

theorem run_mishap : (house (ground none) [] [both]).run mishap = some (busy (ground none) refused .queued) :=
  Workshop.run_trans runs_openings run_refused

theorem step_checked : (busy (ground none) refused .queued).step (.join 0 unnamed.fingerprint) =
    some (house (ground none) [] [checked]) := by
  have joins : (abreast refused .queued).join (busy (ground none) refused .queued).config unnamed.fingerprint =
      some checked := by
    rw [checked, ← failAll_unnamed]
    rfl
  have at' : (busy (ground none) refused .queued).requests[0]? = some (abreast refused .queued) := rfl
  simp only [Workshop.step, at', Option.bind_eq_bind, Option.bind_some, joins]
  rfl

end Errand

open Errand in
/-- If the failure is collected first, `lib` is called off although it gets the permit, and
    `spare` is called off with it. -/
theorem Workshop.run_halted_errand : ∃ final, (house (ground none) [] [checked]).run remnants =
      some (house (ground none) [] [final]) ∧ final.closed = true ∧
    final.report.get? lib.fingerprint = some ⟨lib.name, .cancelled⟩ ∧
    final.report.get? spare.fingerprint = some ⟨spare.name, .cancelled⟩ := by
  have opening : ∀ request ∈ (house (ground none) [] [both]).requests, ∃ roots, request.Opens roots := by
    intro request member
    obtain rfl : request = both := by simpa [house] using member
    exact ⟨_, opens_both⟩
  have ran : (house (ground none) [] [checked]).run remnants = some (house (ground none) [] [_]) := rfl
  have at' : (busy (ground none) refused .queued).requests[0]? = some (abreast refused .queued) := rfl
  have failing : (⟨unnamed, [], refused⟩ : Job) ∈ (abreast refused .queued).jobs := List.mem_cons_self
  obtain ⟨now, atNow, _, _, gives⟩ := Workshop.run_halted opening run_mishap at' rfl failing rfl (by simp [refusal])
    step_checked ran
  obtain rfl := Option.some.inj atNow
  have member {node : Derivation} (known : both.graph.find? node.fingerprint = some node) : node ∈ both.graph.nodes :=
    List.mem_of_find?_eq_some known
  have early (node : Derivation) (apart : unnamed.fingerprint ≠ node.fingerprint) :
      ∀ other ∈ (abreast refused .queued).jobs, other.fingerprint = node.fingerprint → other.place.isEarly = true := by
    intro other among same
    rcases List.mem_pair.mp among with rfl | rfl
    · exact absurd same apart
    · rfl
  refine ⟨_, ran, rfl, ?_, ?_⟩
  · rcases gives rfl lib (member rfl) rfl (early lib (by decide)) with ⟨off, _⟩ | ⟨cause, known, _⟩
    · exact off
    · cases known
  · rcases gives rfl spare (member rfl) rfl (early spare (by decide)) with ⟨off, _⟩ | ⟨cause, known, _⟩
    · exact off
    · cases known

open Errand in
/-- If the failure is collected last, `lib` is made after it, in a request that does not keep
    going: its job waited for a permit when the other one failed. -/
theorem Workshop.halts_late : ∃ marked,
    both.Opens [blocked, spare] ∧ (house (ground none) [] [both]).config.keepGoing = false ∧
    (house (ground none) [] [both]).run mishap = some (house (ground none) [] [abreast refused .queued]) ∧
    refused = .finished (.error refusal) ∧ (∀ name, refusal ≠ .cancelled name) ∧
    (house (ground none) [] [abreast refused .queued]).run (List.replicate 8 work ++ closings) =
      some (house marked [("a1", place)] [bothClosed]) ∧
    bothClosed.closed = true ∧
    bothClosed.report.get? lib.fingerprint = some ⟨lib.name, .succeeded place false⟩ := by
  obtain ⟨marked, made⟩ := run_made
  exact ⟨marked, opens_both, rfl, run_mishap, rfl, by simp [refusal], Workshop.run_trans made (runs_closings marked _), rfl, rfl⟩

end Pkgset

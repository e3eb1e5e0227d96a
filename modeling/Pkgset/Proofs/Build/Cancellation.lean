import Pkgset.Proofs.Build.Stopping

/-!
# Requests that are called off

A request is called off for good. From then on no job of it gets to the runner: where it
waits, where it is about to call and where the runner is at work it notices and ends. A
job between those places goes on until it notices, so it may still complete an entry if
no phase is left to start. A derivation that has not come so far gets no outputs: it is
recorded as called off, unless an input fails and it fails with it.
-/

namespace Pkgset
open BuildReport BuildGraph

namespace JobPlace

/-- Whether a job there goes on to its next phase or to the completion of its entry
    without looking whether it was called off. -/
def isBetween : JobPlace → Bool
  | .looking | .preparing | .between _ _ | .committing _ => true
  | _ => false

end JobPlace

namespace Job
variable {config : BuildConfig} {job moved : Job}

/-- The phases that a job has yet to come to; of the one that the runner is at, further
    tries apart. -/
def ahead (job : Job) : List Phase :=
  match job.place with
  | .queued | .admitted | .claimed | .looking | .preparing => job.derivation.phases
  | .between _ rest | .running _ _ rest => rest
  | .calling _ attempt rest => attempt.phase :: rest
  | .committing _ | .recording _ | .finished _ => []

/-- The phases that a job has yet to start: those ahead of it that are not left out. -/
def toStart (config : BuildConfig) (job : Job) : List Phase :=
  job.ahead.filter fun phase => !skips config job.derivation phase

/-- A job comes to the completion of its entry, if nothing fails, although it is called off. -/
structure Completes (config : BuildConfig) (job : Job) : Prop where
  between : job.place.isBetween = true
  nothing : job.toStart config = []

/-- What a job that was called off does when it moves. -/
inductive Lapses (config : BuildConfig) (job : Job) : Job → Prop where
  | notices (heeds : job.place.heedsCancel = true) : Lapses config job job.cancel
  | ends (heedless : job.place.heedsCancel = false) (going : ∀ result, job.place ≠ .finished result)
      (early : job.place.isEarly = false) (result : JobResult) : Lapses config job (job.finish result)
  | misses (place : job.place = .looking) : Lapses config job (job.goTo .preparing)
  | prepares (place : job.place = .preparing) (outputs : Outputs) :
      Lapses config job (job.goTo (.between outputs job.derivation.phases))
  | proceeds {outputs : Outputs} {rest : List Phase} (place : job.place = .between outputs rest) :
      Lapses config job (job.proceed config outputs rest)
  | commits {outputs : Outputs} (place : job.place = .committing outputs) :
      Lapses config job (job.goTo (.recording outputs))
  | stays {result : JobResult} (place : job.place = .finished result) : Lapses config job job

theorem Lapses.early (lapses : job.Lapses config moved) (early : job.place.isEarly = true) :
    moved.place.isEarly = true := by
  cases lapses with
  | notices heeds => rfl
  | ends heedless going late result => rw [early] at late; cases late
  | misses place => rw [place] at early; cases early
  | prepares place outputs => rw [place] at early; cases early
  | proceeds place => rw [place] at early; cases early
  | commits place => rw [place] at early; cases early
  | stays place => exact early

/-- A job that comes to the completion of its entry was already going there. -/
theorem Lapses.completes (lapses : job.Lapses config moved) (completes : moved.Completes config) :
    job.Completes config := by
  obtain ⟨between, nothing⟩ := completes
  cases lapses with
  | notices heeds => cases between
  | ends heedless going late result => cases between
  | misses place =>
    exact ⟨by rw [place]; rfl, by simpa [toStart, ahead, goTo, place] using nothing⟩
  | prepares place outputs =>
    exact ⟨by rw [place]; rfl, by simpa [toStart, ahead, goTo, place] using nothing⟩
  | @proceeds outputs rest place =>
    refine ⟨by rw [place]; rfl, ?_⟩
    cases rest with
    | nil => simp [toStart, ahead, place]
    | cons phase rest =>
      cases skipped : skips config job.derivation phase with
      | true =>
        -- a phase that is left out is not to be started
        simpa [toStart, ahead, proceed, goTo, place, skipped] using nothing
      | false => simp [proceed, skipped, goTo, JobPlace.isBetween] at between
  | commits place => cases between
  | stays place => rw [place] at between; cases between

/-- The moves that a job has before it at most, if it is called off. -/
def distance (job : Job) : Nat :=
  match job.place with
  | .finished _ => 0
  | .queued | .admitted | .claimed | .calling _ _ _ | .running _ _ _ | .recording _ => 1
  | .committing _ => 2
  | .between _ rest => rest.length + 3
  | .preparing => job.derivation.phases.length + 4
  | .looking => job.derivation.phases.length + 5

theorem Lapses.distance_lt (lapses : job.Lapses config moved) (going : ∀ result, job.place ≠ .finished result) :
    moved.distance < job.distance := by
  have positive : 0 < job.distance := by
    unfold distance
    split
    next result place => exact absurd place (going result)
    all_goals omega
  cases lapses with
  | notices heeds => exact positive
  | ends heedless going late result => exact positive
  | misses place => simp [distance, goTo, place]
  | prepares place outputs => simp [distance, goTo, place]
  | @proceeds outputs rest place =>
    cases rest with
    | nil => simp [distance, proceed, goTo, place]
    | cons phase rest =>
      cases skipped : skips config job.derivation phase <;> simp [distance, proceed, goTo, place, skipped]
  | commits place => simp [distance, goTo, place]
  | stays place => exact absurd place (going _)

end Job

/-- The request that an event belongs to. -/
def Event.request? : Event → Option RequestId
  | .request _ _ | .write _ => none
  | .visit id | .look id | .advance id _ | .reply id _ _ _ | .join id _ | .close id | .cancel id => some id

namespace Workshop
variable {workshop next : Workshop} {event : Event} {id : RequestId} {request : Request}

/-- A job of a request that was called off does not get to the runner. -/
theorem advance_lapses (workshop : Workshop) (id : RequestId) (job : Job) (cancelled : request.cancelled = true) :
    job.Lapses workshop.config (workshop.advance id request job).2 ∧
      (workshop.advance id request job).1.calls = workshop.calls := by
  by_cases heeds : job.place.heedsCancel = true
  · have noticed : workshop.advance id request job = (workshop, job.cancel) := by
      simp [Workshop.advance, cancelled, heeds]
    rw [noticed]
    exact ⟨.notices heeds, rfl⟩
  have heedless : job.place.heedsCancel = false := by simpa using heeds
  have ends {place : JobPlace} (here : job.place = place) (going : ∀ result, place ≠ .finished result)
      (late : place.isEarly = false) (result : JobResult) : job.Lapses workshop.config (job.finish result) :=
    .ends heedless (by rw [here]; exact going) (by rw [here]; exact late) result
  fun_cases Workshop.advance workshop id request job with
  | case8 notOff place after outputs fetched =>
    obtain rfl : (workshop.fetch job.derivation).1 = after := congrArg Prod.fst fetched
    exact ⟨ends place (by simp) rfl _, rfl⟩
  | case9 notOff place after fetched =>
    obtain rfl : (workshop.fetch job.derivation).1 = after := congrArg Prod.fst fetched
    exact ⟨.misses place, rfl⟩
  | case10 notOff place =>
    unfold Workshop.prepare
    split
    next disk outputs prepared => exact ⟨.prepares place outputs, rfl⟩
    next disk error prepared => exact ⟨ends place (by simp) rfl _, rfl⟩
  | case11 notOff outputs rest place => exact ⟨.proceeds place, rfl⟩
  | case14 notOff outputs place =>
    unfold Workshop.commit
    split
    next disk committed => exact ⟨.commits place, rfl⟩
    next disk error committed => exact ⟨ends place (by simp) rfl _, rfl⟩
  | case15 notOff outputs place cache recorded inserted => exact ⟨ends place (by simp) rfl _, rfl⟩
  | case16 notOff result place => exact ⟨.stays place, rfl⟩
  | case1 calledOff => simp [cancelled, heedless] at calledOff
  | _ => simp_all [JobPlace.heedsCancel]

end Workshop

namespace Request
variable {config : BuildConfig} {request next : Request} {fingerprint : Fingerprint}

/-! ### What a request that was called off does -/

/-- What a workshop does to a request that was called off. -/
inductive Lapses (config : BuildConfig) (request : Request) : Request → Prop where
  | visit {next : Request} (visits : request.visit = some next) : Lapses config request next
  | look {derivation : Derivation} (looking : request.looking = some derivation) (found : Option Outputs) :
      Lapses config request (request.looked derivation found)
  | job {job moved : Job} (member : request.jobs.find? (·.fingerprint = job.fingerprint) = some job)
      (derivation : moved.derivation = job.derivation) (inputs : moved.inputs = job.inputs)
      (lapses : job.Lapses config moved) : Lapses config request (request.updateJob job.fingerprint fun _ => moved)
  | join {next : Request} {fingerprint : Fingerprint} (joins : request.join config fingerprint = some next) :
      Lapses config request next
  | close {next : Request} (closes : request.close = some next) : Lapses config request next

theorem Lapses.subsides (lapses : request.Lapses config next) : request.Subsides config (Job.Lapses config) next := by
  cases lapses with
  | visit visits => exact .visit visits
  | look looking found => exact .look looking found
  | job member derivation inputs lapses => exact .job member derivation inputs lapses request.cancelled id
  | join joins => exact .join joins
  | close closes => exact .close closes

theorem isStopped_of_cancelled (cancelled : request.cancelled = true) : request.isStopped = true := by
  simp [isStopped, cancelled]

theorem Lapses.cancelled (lapses : request.Lapses config next) (books : request.Books [])
    (cancelled : request.cancelled = true) : next.cancelled = true := by
  cases lapses with
  | visit visits =>
    obtain ⟨rest, derivation, _, _, _, rfl⟩ := visit_of_stopped books (isStopped_of_cancelled cancelled) visits
    exact cancelled
  | @look derivation looking found =>
    cases found with
    | some outputs => exact (succeed_frame ..).2.1.trans cancelled
    | none => exact cancelled
  | job member derivation inputs lapses => exact cancelled
  | join joins =>
    obtain ⟨job, result, _, _, _, _, _, rfl⟩ := join_cases joins
    exact (conclude_frame ..).2.trans cancelled
  | close closes =>
    obtain ⟨_, _, later, rfl, _⟩ := Books.close_cases closes
    exact cancelled

/-- What holds of a request that was called off, and after everything that such a request
    does, holds from then on. -/
theorem Lapses.induct {motive : Request → Prop} {later : Request}
    (step : ∀ {request next}, request.Books [] → request.cancelled = true → request.Lapses config next →
      motive request → motive next)
    (books : request.Books []) (cancelled : request.cancelled = true) (first : motive request)
    (reaches : Relation.ReflTransGen (Request.Lapses config) request later) :
    later.Books [] ∧ later.cancelled = true ∧ motive later := by
  induction reaches with
  | refl => exact ⟨books, cancelled, first⟩
  | tail _ lapses ih =>
    obtain ⟨books, cancelled, holds⟩ := ih
    obtain ⟨scheduled, moves⟩ := lapses.subsides.moves
    exact ⟨(books.moves moves).1, lapses.cancelled books cancelled, step books cancelled lapses holds⟩

/-! ### Derivations that have not come so far -/

theorem Unbegun.lapses (unbegun : request.Unbegun fingerprint) (books : request.Books [])
    (cancelled : request.cancelled = true) (lapses : request.Lapses config next) : next.Unbegun fingerprint :=
  unbegun.subsides books (isStopped_of_cancelled cancelled) (fun lapses early => lapses.early early) lapses.subsides

theorem GivesUp.lapses (gives : request.GivesUp fingerprint) (unbegun : request.Unbegun fingerprint)
    (books : request.Books []) (cancelled : request.cancelled = true) (lapses : request.Lapses config next) :
    next.GivesUp fingerprint :=
  gives.subsides unbegun books (isStopped_of_cancelled cancelled) lapses.subsides

/-! ### Entries that are completed -/

/-- A job comes to the completion of its entry only if one of its fingerprint did so before. -/
theorem Lapses.completes (lapses : request.Lapses config next) (books : request.Books [])
    (cancelled : request.cancelled = true) {job : Job} (member : job ∈ next.jobs) (completes : job.Completes config) :
    ∃ before ∈ request.jobs, before.fingerprint = job.fingerprint ∧ before.Completes config := by
  rcases lapses.subsides.job_cases books (isStopped_of_cancelled cancelled) member with ⟨_, queued⟩ | ⟨before, within, alike, rfl | moved⟩
  · have between := completes.between
    rw [queued] at between
    cases between
  · exact ⟨before, within, rfl, completes⟩
  · exact ⟨before, within, alike, moved.completes completes⟩

/-! ### Requests that are called off from the start -/

/-- Nothing of a request was ever under way: whatever is recorded was called off. -/
structure Untouched (request : Request) : Prop where
  looking : request.looking = none
  jobs : request.jobs = []
  cancelled : ∀ fingerprint record, request.report.get? fingerprint = some record → record.status = .cancelled

theorem Opens.untouched {roots : List Derivation} (opens : request.Opens roots) : request.Untouched := by
  rw [opens.fresh]
  refine ⟨rfl, rfl, fun fingerprint record known => ?_⟩
  cases known

theorem Untouched.lapses (untouched : request.Untouched) (books : request.Books [])
    (cancelled : request.cancelled = true) (lapses : request.Lapses config next) : next.Untouched := by
  cases lapses with
  | visit visits =>
    obtain ⟨rest, derivation, _, _, _, rfl⟩ := visit_of_stopped books (isStopped_of_cancelled cancelled) visits
    refine ⟨untouched.looking, untouched.jobs, fun fingerprint record known => ?_⟩
    by_cases same : fingerprint = derivation.fingerprint
    · simp only [Request.record, get?_insert, same, ↓reduceIte, Option.some.injEq] at known
      rw [← known]
    · exact untouched.cancelled fingerprint record (by simpa [Request.record, get?_insert, same] using known)
  | look looking found =>
    rw [untouched.looking] at looking
    cases looking
  | job member derivation inputs lapses =>
    rw [untouched.jobs] at member
    cases member
  | join joins =>
    obtain ⟨job, result, _, _, member, _, _, _⟩ := join_cases joins
    rw [untouched.jobs] at member
    cases member
  | close closes =>
    have recorded {fingerprint : Fingerprint} {record : BuildRecord}
        (known : next.report.get? fingerprint = some record) := Books.recorded_of_close closes known
    obtain ⟨_, _, later, rfl, _⟩ := Books.close_cases closes
    refine ⟨untouched.looking, untouched.jobs, fun fingerprint record known => ?_⟩
    rcases recorded known with before | ⟨_, _, rfl⟩
    · exact untouched.cancelled fingerprint record before
    · rfl

/-- At its end, a request of which nothing was under way has called off every derivation. -/
theorem Untouched.called_off (untouched : request.Untouched) (books : request.Books []) (ended : request.closed = true)
    {node : Derivation} (found : request.graph.find? fingerprint = some node) :
    request.report.get? fingerprint = some ⟨node.name, .cancelled⟩ := by
  obtain ⟨⟨name, status⟩, known⟩ := has_iff.mp ((books.ended ended).2 fingerprint (contains_iff.mpr ⟨node, found⟩))
  obtain ⟨twin, foundTwin, named⟩ := books.named fingerprint _ known
  obtain rfl : node = twin := Option.some.inj (found.symm.trans foundTwin)
  obtain rfl : name = node.name := named
  obtain rfl : status = .cancelled := untouched.cancelled fingerprint _ known
  exact known

end Request

namespace Workshop
variable {workshop next : Workshop} {event : Event} {id : RequestId} {request : Request}

/-! ### A workshop with a request that was called off -/

theorem Undergoes.lapses {request' : Request} (undergoes : workshop.Undergoes id request event request')
    (cancelled : request.cancelled = true) : request' = request ∨ request.Lapses workshop.config request' := by
  cases undergoes with
  | visit visits => exact Or.inr (.visit visits)
  | look looking => exact Or.inr (.look looking _)
  | @advance job member =>
    have frame := advance_frame workshop id request job
    exact Or.inr (.job member frame.derivation frame.inputs (advance_lapses workshop id job cancelled).1)
  | reply member running open' =>
    rw [cancelled] at open'
    cases open'
  | join joins => exact Or.inr (.join joins)
  | close closes => exact Or.inr (.close closes)
  | cancel => exact Or.inl (by simp [← cancelled])

theorem Serves.lapses (serves : workshop.Serves event next) (at' : workshop.requests[id]? = some request)
    (cancelled : request.cancelled = true) :
    ∃ request', next.requests[id]? = some request' ∧
      (request' = request ∨ request.Lapses workshop.config request') := by
  obtain ⟨request', atNow, same | undergoes⟩ := serves.undergoes at'
  · exact ⟨request', atNow, Or.inl same⟩
  · exact ⟨request', atNow, undergoes.lapses cancelled⟩

/-- The calls that a request made. -/
def callsOf (workshop : Workshop) (id : RequestId) : List Call := workshop.calls.filter (·.request = id)

/-- A request that was called off makes no call. -/
theorem Serves.callsOf_eq (serves : workshop.Serves event next) (at' : workshop.requests[id]? = some request)
    (cancelled : request.cancelled = true) : next.callsOf id = workshop.callsOf id := by
  cases serves with
  | @advance other owner job owns member =>
    unfold callsOf
    by_cases here : other = id
    · subst here
      obtain rfl : owner = request := Option.some.inj (owns.symm.trans at')
      simp [setRequest, (advance_lapses workshop other job cancelled).2]
    · rcases (advance_frame workshop other owner job).calls with same | ⟨attempt, outputs, called⟩
      · simp [setRequest, same]
      · simp [setRequest, called, here]
  | _ => rfl

/-- From when a request was called off on, it does only what such a request does, and makes no call. -/
theorem run_lapses {after : Workshop} {events : List Event} (guarded : workshop.Guarded)
    (at' : workshop.requests[id]? = some request) (cancelled : request.cancelled = true)
    (ran : workshop.run events = some after) :
    ∃ later, after.requests[id]? = some later ∧
      Relation.ReflTransGen (Request.Lapses workshop.config) request later ∧
        after.callsOf id = workshop.callsOf id := by
  induction events generalizing workshop request with
  | nil =>
    cases ran
    exact ⟨request, at', .refl, rfl⟩
  | cons event rest ih =>
    obtain ⟨between, steps, onwards⟩ := run_cons ran
    have serves := step_serves steps
    have calls := serves.callsOf_eq at' cancelled
    have books := guarded.books request (List.mem_of_getElem? at')
    obtain ⟨now, atNow, same | lapses⟩ := serves.lapses at' cancelled
    · subst same
      obtain ⟨later, atLater, reaches, callsLater⟩ := ih (guarded.step serves) atNow cancelled onwards
      exact ⟨later, atLater, serves.config ▸ reaches, callsLater.trans calls⟩
    · obtain ⟨later, atLater, reaches, callsLater⟩ :=
        ih (guarded.step serves) atNow (lapses.cancelled books cancelled) onwards
      exact ⟨later, atLater, .head lapses (serves.config ▸ reaches), callsLater.trans calls⟩

/-- Where no job and no look is under way, a request leaves the files alone. -/
theorem Serves.disk_eq (serves : workshop.Serves event next) (own : event.request? = some id)
    (at' : workshop.requests[id]? = some request) (untouched : request.Untouched) : next.disk = workshop.disk := by
  cases serves with
  | request made => cases own
  | @advance other owner job owns member =>
    obtain rfl : other = id := Option.some.inj own
    obtain rfl : owner = request := Option.some.inj (owns.symm.trans at')
    rw [untouched.jobs] at member
    cases member
  | write disk => cases own
  | _ => rfl

/-! ### The end of a request that was called off -/

/-- The moves that the jobs of a request have before them at most, if it is called off. -/
def distance (request : Request) : Nat := (request.jobs.map Job.distance).sum

private theorem distance_updateJob (books : request.Books []) {job moved : Job} (member : job ∈ request.jobs)
    (less : moved.distance < job.distance) :
    distance (request.updateJob job.fingerprint fun _ => moved) < distance request := by
  simp only [distance, Request.updateJob, List.map_map]
  refine List.sum_lt_sum _ _ (fun other present => ?_) ⟨job, member, by simpa using less⟩
  by_cases same : other.fingerprint = job.fingerprint
  · obtain rfl : other = job := books.job_eq present member same
    simpa using less.le
  · simp [same]

/-- A request is nearer to its end than before: there is less for it to do, or as much while
    its jobs have fewer moves before them. -/
def Nearer (next request : Request) : Prop :=
  Prod.Lex (· < ·) (· < ·) (next.remaining, distance next) (request.remaining, distance request)

theorem nearer_wf : WellFounded Nearer :=
  InvImage.wf (fun request : Request => (request.remaining, distance request)) (Prod.lex Nat.lt_wfRel Nat.lt_wfRel).wf

/-- A job of a request that was called off moves, and has fewer moves before it. -/
private theorem exists_advance (guarded : workshop.Guarded) (at' : workshop.requests[id]? = some request)
    (cancelled : request.cancelled = true) {job : Job}
    (member : request.jobs.find? (·.fingerprint = job.fingerprint) = some job)
    (going : ∀ result, job.place ≠ .finished result) :
    ∃ next request', workshop.step (.advance id job.fingerprint) = some next ∧ next.requests[id]? = some request' ∧
      Nearer request' request := by
  have frame := advance_frame workshop id request job
  have lapses := (advance_lapses workshop id job cancelled).1
  have inside : id < workshop.requests.length := (List.getElem?_eq_some_iff.mp at').1
  have present : job ∈ request.jobs := List.mem_of_find?_eq_some member
  have books := guarded.books request (List.mem_of_getElem? at')
  obtain ⟨⟨after, moved⟩, moves⟩ : ∃ after, workshop.advance id request job = after := ⟨_, rfl⟩
  rw [moves] at frame lapses
  have requests : after.requests = workshop.requests := frame.requests
  have rests : request.Rests (request.updateJob job.fingerprint fun _ => moved) :=
    .updateJob present frame.derivation (fun result ended => absurd ended (going result)) request.cancelled
  refine ⟨_, request.updateJob job.fingerprint fun _ => moved, step_advance at' member moves, ?_, ?_⟩
  · simp [setRequest, requests, inside]
  rw [Nearer, rests.remaining]
  exact Prod.Lex.right _ (distance_updateJob books present (lapses.distance_lt going))

/-- A request that was called off and has not ended can do something itself that brings it
    nearer to its end, whatever the runner does. -/
theorem exists_step (guarded : workshop.Guarded) (at' : workshop.requests[id]? = some request)
    (cancelled : request.cancelled = true) (open' : request.closed = false) :
    ∃ event next request', event.request? = some id ∧ workshop.step event = some next ∧
      next.requests[id]? = some request' ∧ Nearer request' request := by
  have driven (event : Event) (own : event.request? = some id) (drives : event.drives id = true)
      (possible : (workshop.step event).isSome = true) :
      ∃ event next request', event.request? = some id ∧ workshop.step event = some next ∧
        next.requests[id]? = some request' ∧ Nearer request' request := by
    obtain ⟨next, steps⟩ := Option.isSome_iff_exists.mp possible
    obtain ⟨before, request', atBefore, atNext, less⟩ := (step_serves steps).remaining_lt guarded.books drives
    obtain rfl : request = before := Option.some.inj (at'.symm.trans atBefore)
    exact ⟨event, next, request', own, steps, atNext, Prod.Lex.left _ _ less⟩
  cases looking : request.looking with
  | some derivation => exact driven (.look id) rfl (by simp [Event.drives]) (by simp [step, at', looking])
  | none =>
    by_cases ready : request.ready = []
    · cases jobs : request.jobs with
      | nil =>
        have closes : request.close.isSome = true := by simp [Request.close, looking, ready, jobs, open']
        obtain ⟨next, closes⟩ := Option.isSome_iff_exists.mp closes
        exact driven (.close id) rfl (by simp [Event.drives]) (by simp [step, at', closes])
      | cons job others =>
        have member : request.jobs.find? (·.fingerprint = job.fingerprint) = some job := by simp [jobs]
        by_cases isOver : ∃ result, job.place = .finished result
        · obtain ⟨result, place⟩ := isOver
          have joins : (request.join workshop.config job.fingerprint).isSome = true := by
            simp [Request.join, looking, ready, member, place]
          obtain ⟨next, joins⟩ := Option.isSome_iff_exists.mp joins
          exact driven (.join id job.fingerprint) rfl (by simp [Event.drives]) (by simp [step, at', joins])
        · obtain ⟨next, request', steps, atNext, nearer⟩ :=
            exists_advance guarded at' cancelled member fun result place => isOver ⟨result, place⟩
          exact ⟨_, next, request', rfl, steps, atNext, nearer⟩
    · obtain ⟨next, visits⟩ := Option.isSome_iff_exists.mp (Request.visit_isSome looking ready)
      exact driven (.visit id) rfl (by simp [Event.drives]) (by simp [step, at', visits])

/-- A request that was called off comes to its end by what it does itself: no reply of the
    runner is waited for. -/
theorem exists_end (guarded : workshop.Guarded) (at' : workshop.requests[id]? = some request)
    (cancelled : request.cancelled = true) :
    ∃ moves last final, (∀ event ∈ moves, event.request? = some id) ∧ workshop.run moves = some last ∧
      last.requests[id]? = some final ∧ final.closed = true := by
  induction request using nearer_wf.induction generalizing workshop with
  | h request ih =>
    cases ended : request.closed with
    | true => exact ⟨[], workshop, request, by simp, rfl, at', ended⟩
    | false =>
      obtain ⟨event, next, request', own, steps, atNext, nearer⟩ := exists_step guarded at' cancelled ended
      have serves := step_serves steps
      have still : request'.cancelled = true := by
        obtain ⟨now, atNow, same | lapses⟩ := serves.lapses at' cancelled
        · rw [← Option.some.inj (atNow.symm.trans atNext), same, cancelled]
        · rw [← Option.some.inj (atNow.symm.trans atNext)]
          exact lapses.cancelled (guarded.books request (List.mem_of_getElem? at')) cancelled
      obtain ⟨moves, last, final, owns, ran, atLast, closed⟩ := ih request' nearer (guarded.step serves) atNext still
      refine ⟨event :: moves, last, final, fun other member => ?_, run_step steps ran, atLast, closed⟩
      rcases List.mem_cons.mp member with rfl | later
      · exact own
      · exact owns other later

/-- However requests and jobs went before, and whatever happens from the moment on at which a
    request has been called off, with any replies of the runner to others, failures and files
    changed: the request makes no call any more, for a first try of a phase or another. It
    completes the entry of a derivation only if the job of it was going there at that moment
    and had no phase left to start. It comes to its end by what it does itself. There every
    derivation that had no record, was not looked for and had no job past its last look
    whether it was called off is recorded as called off, if no direct input failed, or as
    failed because of an input that did. A request that was called off before it did anything
    changes no file, and it calls off all that its roots need. -/
theorem run_cancelled {workshop moment after : Workshop} {earlier events : List Event} {id : RequestId}
    {request : Request} (opens : ∀ request ∈ workshop.requests, ∃ roots, request.Opens roots)
    (came : workshop.run earlier = some moment) (at' : moment.requests[id]? = some request)
    (cancelled : request.cancelled = true) (ran : moment.run events = some after) :
    after.callsOf id = moment.callsOf id ∧
    (∃ moves last final, (∀ event ∈ moves, event.request? = some id) ∧ after.run moves = some last ∧
      last.requests[id]? = some final ∧ final.closed = true) ∧
    ∃ now, after.requests[id]? = some now ∧
      (∀ job ∈ now.jobs, ∀ outputs, job.place = .committing outputs →
        ∃ before ∈ request.jobs, before.fingerprint = job.fingerprint ∧ before.Completes moment.config) ∧
      (now.closed = true → ∀ node ∈ request.graph.nodes, request.report.has node.fingerprint = false →
        request.Unbegun node.fingerprint →
          (now.report.get? node.fingerprint = some ⟨node.name, .cancelled⟩ ∧
            ∀ input ∈ request.graph.dependencies node.fingerprint, ∀ error, ¬ now.report.Failed input error) ∨
          ∃ error, now.report.get? node.fingerprint = some ⟨node.name, .failed error⟩ ∧
            Request.HandedDown request.graph now.report node error) ∧
      ∀ roots, request.Opens roots →
        (∀ event next, event.request? = some id → after.step event = some next → next.disk = after.disk) ∧
        (now.closed = true → ∀ node ∈ (ofRoots roots).nodes,
          now.report.get? node.fingerprint = some ⟨node.name, .cancelled⟩) := by
  have guarded : moment.Guarded := (Guarded.opens opens).run came
  have books := guarded.books request (List.mem_of_getElem? at')
  obtain ⟨now, atNow, reaches, calls⟩ := run_lapses guarded at' cancelled ran
  have goesOn {motive : Request → Prop} (first : motive request)
      (step : ∀ {request next : Request}, request.Books [] → request.cancelled = true →
        request.Lapses moment.config next → motive request → motive next) :=
    Request.Lapses.induct step books cancelled first reaches
  obtain ⟨booksNow, cancelledNow, graph⟩ := goesOn (motive := fun now => now.graph = request.graph) rfl
    fun books _ lapses same => by
      obtain ⟨scheduled, moves⟩ := lapses.subsides.moves
      exact (books.moves moves).2.graph.trans same
  have member {node : Derivation} (known : node ∈ request.graph.nodes) :
      now.graph.find? node.fingerprint = some node := by
    rw [graph]
    exact books.graph.find?_of_mem known
  refine ⟨calls, exists_end (guarded.run ran) atNow cancelledNow, now, atNow, ?_, ?_, ?_⟩
  · intro job present outputs place
    have came := goesOn (motive := fun now => ∀ job ∈ now.jobs, job.Completes moment.config →
        ∃ before ∈ request.jobs, before.fingerprint = job.fingerprint ∧ before.Completes moment.config)
      (fun job present completes => ⟨job, present, rfl, completes⟩)
      fun books off lapses earlier job present completes => by
        obtain ⟨before, within, alike, completes⟩ := lapses.completes books off present completes
        obtain ⟨first, within, same, completes⟩ := earlier before within completes
        exact ⟨first, within, same.trans alike, completes⟩
    exact came.2.2 job present ⟨by rw [place]; rfl, by simp [Job.toStart, Job.ahead, place]⟩
  · intro ended node known fresh unbegun
    have given := goesOn (motive := fun now => now.Unbegun node.fingerprint ∧ now.GivesUp node.fingerprint)
      ⟨unbegun, fun record recorded => by simp [has, recorded] at fresh⟩ fun books off lapses earlier =>
        ⟨earlier.1.lapses books off lapses, earlier.2.lapses earlier.1 books off lapses⟩
    rw [← graph]
    exact booksNow.given_up given.2.2.2 ended (member known)
  · intro roots opened
    have untouched := (goesOn (motive := Request.Untouched) opened.untouched fun books off lapses earlier =>
      earlier.lapses books off lapses).2.2
    refine ⟨fun event next own steps => (step_serves steps).disk_eq own atNow untouched, fun ended node known => ?_⟩
    exact untouched.called_off booksNow ended (member (opened.nodes.mem_iff.mpr known))

end Workshop

/-! ### Two requests that are called off -/

namespace Errand

/-- The request called off while the job for `lib` waits for a permit. -/
def regretted : Request := { midway none [⟨lib, [], .queued⟩] with cancelled := true }

/-- The request called off before it starts. -/
def unwanted : Request := { asked with cancelled := true }

/-- What happens up to when the request is called off. -/
def regret : List Event := [.visit 0, .look 0, .visit 0, .look 0, .cancel 0]

/-- The request that was called off, when its job was collected. -/
def abandoned : Request := (midway none []).record lib .cancelled

theorem runs_regret : (shop [tool] asked).run regret = some (shop [tool] regretted) := by
  have at' : (shop [tool] (midway (some lib) [])).requests[0]? = some (midway (some lib) []) := rfl
  have looked : (shop [tool] (midway (some lib) [])).step (.look 0) = some (working .queued) :=
    Workshop.step_look_of_missed at' rfl (working_forgotten _)
  have onwards : (shop [tool] (midway (some lib) [])).run [.look 0, .cancel 0] = some (shop [tool] regretted) := by
    simp only [Workshop.run, List.foldlM_cons, List.foldlM_nil, looked, Option.bind_eq_bind, Option.bind_some]
    rfl
  exact onwards

end Errand

open Errand in
/-- Where a job waits when its request is called off, nothing is made, and what waits for it
    is called off with it; and a request that was called off from the start calls off all. -/
theorem Workshop.run_cancelled_errand :
    (∃ final, (shop [tool] regretted).run [work, .join 0 lib.fingerprint, .close 0] = some (shop [tool] final) ∧
      final.report.get? lib.fingerprint = some ⟨lib.name, .cancelled⟩ ∧
      final.report.get? app.fingerprint = some ⟨app.name, .cancelled⟩) ∧
    ∃ final, (shop [] unwanted).run [.visit 0, .visit 0, .close 0] = some (shop [] final) ∧
      ∀ node ∈ (ofRoots [app]).nodes, final.report.get? node.fingerprint = some ⟨node.name, .cancelled⟩ := by
  have started : unwanted.Opens [app] := ⟨opens_asked.nodes, opens_asked.roots, opens_asked.order, rfl⟩
  have opens {remembered : List Derivation} {now : Request} (opened : now.Opens [app]) :
      ∀ request ∈ (shop remembered now).requests, ∃ roots, request.Opens roots := by
    intro request member
    obtain rfl : request = now := by simpa [shop] using member
    exact ⟨[app], opened⟩
  constructor
  · have ran : (shop [tool] regretted).run [work, .join 0 lib.fingerprint, .close 0] =
        some (shop [tool] { abandoned.cancelLeftovers with cancelled := true, closed := true }) := rfl
    have at' : (shop [tool] regretted).requests[0]? = some regretted := rfl
    obtain ⟨_, _, now, atNow, _, gives, _⟩ := Workshop.run_cancelled (opens opens_asked) runs_regret at' rfl ran
    obtain rfl := Option.some.inj atNow
    have unbegun (node : Derivation) : regretted.Unbegun node.fingerprint := by
      refine ⟨fun derivation looking => (by cases looking), fun job present same => ?_⟩
      obtain rfl : job = ⟨lib, [], .queued⟩ := by simpa [regretted, midway] using present
      rfl
    have member {node : Derivation} (known : regretted.graph.find? node.fingerprint = some node) :
        node ∈ regretted.graph.nodes := List.mem_of_find?_eq_some known
    refine ⟨_, ran, ?_, ?_⟩
    · rcases gives rfl lib (member rfl) rfl (unbegun lib) with ⟨off, _⟩ | ⟨error, known, _⟩
      · exact off
      · cases known
    · rcases gives rfl app (member rfl) rfl (unbegun app) with ⟨off, _⟩ | ⟨error, known, _⟩
      · exact off
      · cases known
  · have ran : (shop [] unwanted).run [.visit 0, .visit 0, .close 0] = some (shop [] _) := rfl
    have at' : (shop [] unwanted).requests[0]? = some unwanted := rfl
    have came : (shop [] unwanted).run [] = some (shop [] unwanted) := rfl
    obtain ⟨_, _, now, atNow, _, _, off⟩ := Workshop.run_cancelled (opens started) came at' rfl ran
    obtain rfl := Option.some.inj atNow
    exact ⟨_, ran, (off [app] started).2 rfl⟩

end Pkgset

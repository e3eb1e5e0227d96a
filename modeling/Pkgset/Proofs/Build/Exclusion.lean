import Pkgset.Proofs.Build.Outcome

/-!
# One job for each fingerprint

The requests of a workshop share work through the claims and the cache. A job passes
the claim on its fingerprint before it looks for outputs a last time, and has it up to
its end; so at most one job is at work for a fingerprint, outputs are recorded once, and
everyone who asks later finds the outputs that were recorded.

A request looks for outputs without a claim. Such a look takes effect at one moment: the
files may change at any moment before or after it, and the requests may be at anything.
What is remembered for a fingerprint is never replaced.
-/

namespace Pkgset
open BuildReport

/-- Whether a job makes outputs there: it has looked for them and found none. -/
def JobPlace.isMaking : JobPlace → Bool
  | .preparing | .between _ _ | .calling _ _ _ | .running _ _ _ | .committing _ | .recording _ => true
  | _ => false

theorem JobPlace.holdsClaim_of_isMaking {place : JobPlace} (making : place.isMaking = true) : place.holdsClaim = true := by
  cases place <;> first | rfl | cases making

theorem BuildCache.get?_insert_of_some {cache : BuildCache} {fingerprint other : Fingerprint} {earlier : Outputs}
    (remembered : cache.get? other = some earlier) (outputs : Outputs) :
    (cache.insert fingerprint outputs).1.get? other = some earlier := by
  by_cases same : other = fingerprint
  · subst same
    simp [BuildCache.insert, remembered]
  · rw [Workshop.get?_remember_of_ne cache same, remembered]

/-- What is recorded is what is remembered from then on. -/
theorem BuildCache.get?_insert_self (cache : BuildCache) (fingerprint : Fingerprint) (outputs : Outputs) :
    (cache.insert fingerprint outputs).1.get? fingerprint = some (cache.insert fingerprint outputs).2 := by
  unfold BuildCache.insert
  split
  next earlier remembered => exact remembered
  next => simp [BuildCache.get?, Dict.get?_insert]

namespace Workshop

/-- A job of a request, by the places of both. -/
def job? (workshop : Workshop) (id : RequestId) (place : Nat) : Option Job :=
  workshop.requests[id]?.bind fun request => request.jobs[place]?

/-- A request has a job. -/
def Has (workshop : Workshop) (id : RequestId) (job : Job) : Prop :=
  ∃ request, workshop.requests[id]? = some request ∧ job ∈ request.jobs

/-- Everything that one workshop remembers, a later one does too. -/
def Remembers (workshop later : Workshop) : Prop :=
  ∀ fingerprint outputs, workshop.cache.get? fingerprint = some outputs → later.cache.get? fingerprint = some outputs

theorem Remembers.refl (workshop : Workshop) : workshop.Remembers workshop := fun _ _ => id

theorem Remembers.trans {workshop later last : Workshop} (first : workshop.Remembers later)
    (second : later.Remembers last) : workshop.Remembers last :=
  fun fingerprint outputs remembered => second _ _ (first fingerprint outputs remembered)

theorem remembers_fetch (workshop : Workshop) (derivation : Derivation) :
    workshop.Remembers (workshop.fetch derivation).1 := by
  intro fingerprint outputs remembered
  change (workshop.cache.fetch workshop.store workshop.disk derivation).1.get? fingerprint = _
  unfold BuildCache.fetch
  split
  next => exact remembered
  next =>
    split
    next => exact remembered
    next => exact BuildCache.get?_insert_of_some remembered _

/-- What is found is remembered. -/
theorem get?_of_fetch {workshop : Workshop} {derivation : Derivation} {outputs : Outputs}
    (found : (workshop.fetch derivation).2 = some outputs) :
    (workshop.fetch derivation).1.cache.get? derivation.fingerprint = some outputs := by
  change (workshop.cache.fetch workshop.store workshop.disk derivation).2 = _ at found
  change (workshop.cache.fetch workshop.store workshop.disk derivation).1.get? _ = _
  unfold BuildCache.fetch at found ⊢
  split at found
  next earlier remembered => exact remembered.trans found
  next =>
    split at found
    next => cases found
    next => exact (BuildCache.get?_insert_self ..).trans found

theorem get?_of_fetch_missed {workshop : Workshop} {derivation : Derivation}
    (missed : (workshop.fetch derivation).2 = none) : workshop.cache.get? derivation.fingerprint = none := by
  have without : workshop.offers derivation = false := by simp [offers, missed]
  rw [offers_eq, Bool.or_eq_false_iff] at without
  simpa using without.1

/-- A fingerprint is claimed exactly when some job of it is past the claim. -/
theorem isHeld_iff {workshop : Workshop} {fingerprint : Fingerprint} :
    workshop.claims.isHeld fingerprint = true ↔
      ∃ id job, workshop.Has id job ∧ job.fingerprint = fingerprint ∧ job.place.holdsClaim = true := by
  simp only [Claims.isHeld, claims, List.contains_iff_mem, List.mem_flatMap, List.mem_map, List.mem_filter, Has]
  constructor
  · rintro ⟨request, member, job, ⟨present, holds⟩, same⟩
    obtain ⟨id, at'⟩ := List.getElem?_of_mem member
    exact ⟨id, job, ⟨request, at', present⟩, same, holds⟩
  · rintro ⟨id, job, ⟨request, at', present⟩, same, holds⟩
    exact ⟨request, List.mem_of_getElem? at', job, ⟨present, holds⟩, same⟩

/-! ### The move of a job -/

/-- What a job that moves has to do with claims and the cache: it passes the claim only if
    nobody else has it, it starts making outputs only if none are remembered, it calls the
    runner only while it makes outputs, and it ends with outputs that are remembered. -/
structure Stride (workshop : Workshop) (job : Job) (next : Workshop) (moved : Job) : Prop where
  derivation : moved.derivation = job.derivation
  remembers : workshop.Remembers next
  claims : moved.place.holdsClaim = true → job.place.holdsClaim = true ∨ workshop.claims.isHeld job.fingerprint = false
  makes : moved.place.isMaking = true → job.place.isMaking = true ∨ workshop.cache.get? job.fingerprint = none
  calls : next.calls = workshop.calls ∨
    job.place.isMaking = true ∧ ∃ call, call.derivation = job.derivation ∧ next.calls = call :: workshop.calls
  ends : ∀ realized, moved.place = .finished (.ok realized) →
    moved = job ∨ job.place.holdsClaim = true ∧ next.cache.get? job.fingerprint = some realized.outputs

/-- A job that moves without the cache, and does not pass the claim or end with outputs. -/
private theorem Stride.aside {workshop next : Workshop} {job : Job} {place : JobPlace} (cache : next.cache = workshop.cache)
    (calls : next.calls = workshop.calls) (claims : place.holdsClaim = true → job.place.holdsClaim = true)
    (makes : place.isMaking = true → job.place.isMaking = true)
    (ends : ∀ realized, place ≠ .finished (.ok realized)) : workshop.Stride job next (job.goTo place) := by
  refine ⟨rfl, fun fingerprint outputs remembered => ?_, fun holds => Or.inl (claims holds),
    fun making => Or.inl (makes making), Or.inl calls, fun realized ended => absurd ended (ends realized)⟩
  rw [cache, remembered]

/-- A job that goes where it has nothing to do with claims and outputs. -/
private theorem Stride.off {workshop next : Workshop} {job : Job} {place : JobPlace} (cache : next.cache = workshop.cache)
    (calls : next.calls = workshop.calls) (idle : place.holdsClaim = false) (quiet : place.isMaking = false)
    (ends : ∀ realized, place ≠ .finished (.ok realized)) : workshop.Stride job next (job.goTo place) :=
  .aside cache calls (by simp [idle]) (by simp [quiet]) ends

/-- A job that ends with outputs that are remembered. -/
private theorem Stride.done {workshop next : Workshop} {job : Job} {realized : Realized}
    (remembers : workshop.Remembers next) (calls : next.calls = workshop.calls) (holds : job.place.holdsClaim = true)
    (known : next.cache.get? job.fingerprint = some realized.outputs) :
    workshop.Stride job next (job.finish (.ok realized)) := by
  refine ⟨rfl, remembers, by simp [Job.finish, Job.goTo, JobPlace.holdsClaim],
    by simp [Job.finish, Job.goTo, JobPlace.isMaking], Or.inl calls, fun other ended => Or.inr ⟨holds, ?_⟩⟩
  cases ended
  exact known

theorem Stride.stays (workshop : Workshop) (job : Job) : workshop.Stride job workshop job :=
  ⟨rfl, .refl workshop, Or.inl, Or.inl, Or.inl rfl, fun _ _ => Or.inl rfl⟩

/-- Requests have no part in it. -/
theorem Stride.setRequest {workshop next : Workshop} {job moved : Job} (stride : workshop.Stride job next moved)
    (id : RequestId) (request : Request) : workshop.Stride job (next.setRequest id request) moved :=
  ⟨stride.derivation, stride.remembers, stride.claims, stride.makes, stride.calls, stride.ends⟩

theorem stride_advance (workshop : Workshop) (id : RequestId) (request : Request) (job : Job) :
    workshop.Stride job (workshop.advance id request job).1 (workshop.advance id request job).2 := by
  fun_cases Workshop.advance workshop id request job with
  | case1 waits => exact .off rfl rfl rfl rfl (by simp)
  | case2 waits place free => exact .off rfl rfl rfl rfl (by simp)
  | case4 waits place held => exact .stays workshop job
  | case5 waits place free =>
    exact ⟨rfl, .refl workshop, fun _ => Or.inr (by simpa using free), by simp [Job.goTo, JobPlace.isMaking], Or.inl rfl,
      by simp [Job.goTo]⟩
  | case6 waits place halted => exact .off rfl rfl rfl rfl (by simp)
  | case7 waits place going =>
    exact .aside rfl rfl (fun _ => by simp [place, JobPlace.holdsClaim]) (by simp [JobPlace.isMaking]) (by simp)
  | case8 waits place after outputs fetched =>
    obtain rfl : (workshop.fetch job.derivation).1 = after := congrArg Prod.fst fetched
    exact .done (remembers_fetch workshop _) rfl (by simp [place, JobPlace.holdsClaim])
      (get?_of_fetch (congrArg Prod.snd fetched))
  | case9 waits place after fetched =>
    obtain rfl : (workshop.fetch job.derivation).1 = after := congrArg Prod.fst fetched
    exact ⟨rfl, remembers_fetch workshop _, fun _ => Or.inl (by simp [place, JobPlace.holdsClaim]),
      fun _ => Or.inr (get?_of_fetch_missed (congrArg Prod.snd fetched)), Or.inl rfl, by simp [Job.goTo]⟩
  | case10 waits place =>
    unfold Workshop.prepare
    split
    next => exact .aside rfl rfl (by simp [place, JobPlace.holdsClaim]) (by simp [place, JobPlace.isMaking]) (by simp)
    next => exact .off rfl rfl rfl rfl (by simp)
  | case11 waits outputs rest place =>
    fun_cases Job.proceed workshop.config job outputs rest <;>
      exact .aside rfl rfl (by simp [place, JobPlace.holdsClaim]) (by simp [place, JobPlace.isMaking]) (by simp)
  | case12 waits outputs attempt rest place =>
    exact ⟨rfl, .refl workshop, by simp [place, JobPlace.holdsClaim], by simp [place, JobPlace.isMaking],
      Or.inr ⟨by simp [place, JobPlace.isMaking], _, rfl, rfl⟩, fun _ ended => by cases ended⟩
  | case14 waits outputs place =>
    unfold Workshop.commit
    split
    next => exact .aside rfl rfl (by simp [place, JobPlace.holdsClaim]) (by simp [place, JobPlace.isMaking]) (by simp)
    next => exact .off rfl rfl rfl rfl (by simp)
  | case15 waits outputs place cache recorded inserted =>
    obtain rfl : (workshop.cache.insert job.fingerprint outputs).1 = cache := congrArg Prod.fst inserted
    exact .done (fun _ _ remembered => BuildCache.get?_insert_of_some remembered outputs) rfl
      (by simp [place, JobPlace.holdsClaim])
      ((BuildCache.get?_insert_self ..).trans (congrArg some (congrArg Prod.snd inserted)))
  | _ => exact .stays workshop job

theorem stride_replied (workshop : Workshop) {job : Job} {outputs : Outputs} {attempt : Attempt} {rest : List Phase}
    (running : job.place = .running outputs attempt rest) (reply : Reply) :
    workshop.Stride job workshop (replied workshop.config job outputs attempt rest reply) := by
  have holds : job.place.holdsClaim = true := by simp [running, JobPlace.holdsClaim]
  have making : job.place.isMaking = true := by simp [running, JobPlace.isMaking]
  cases reply with
  | exit status =>
    simp only [replied, Job.exited]
    split
    · exact .aside rfl rfl (fun _ => holds) (fun _ => making) (by simp)
    · split
      · exact .aside rfl rfl (fun _ => holds) (fun _ => making) (by simp)
      · exact .off rfl rfl rfl rfl (by simp)
  | error error => exact .off rfl rfl rfl rfl (by simp)
  | crash => exact .off rfl rfl rfl rfl (by simp)

/-! ### The jobs and records of a workshop -/

/-- What an event does to the jobs of a workshop: one job moves, or none does and those
    that are scheduled are queued. -/
inductive Works (workshop next : Workshop) : Prop where
  | rest (remembers : workshop.Remembers next) (calls : next.calls = workshop.calls)
      (jobs : ∀ id job, next.Has id job → job.place = .queued ∨ workshop.Has id job)
  | move {id : RequestId} {job moved : Job} (has : workshop.Has id job) (stride : workshop.Stride job next moved)
      (jobs : ∀ id' job', next.Has id' job' →
        id' = id ∧ job' = moved ∨ workshop.Has id' job' ∧ (id' = id → job'.fingerprint ≠ job.fingerprint))

private theorem has_setRequest {workshop : Workshop} {id id' : RequestId} {request : Request} {job : Job}
    (has : (workshop.setRequest id request).Has id' job) :
    id' = id ∧ job ∈ request.jobs ∨ id' ≠ id ∧ workshop.Has id' job := by
  obtain ⟨other, at', present⟩ := has
  by_cases same : id' = id
  · subst same
    obtain ⟨inside, rfl⟩ := List.getElem?_eq_some_iff.mp at'
    exact Or.inl ⟨rfl, by simpa [setRequest] using present⟩
  · refine Or.inr ⟨same, other, ?_, present⟩
    rwa [setRequest, List.getElem?_set_ne (Ne.symm same)] at at'

/-- A request that changes, and its jobs at most by new ones. -/
private theorem Works.request {workshop next : Workshop} {id : RequestId} {request changed : Request}
    (at' : workshop.requests[id]? = some request) (remembers : workshop.Remembers next) (calls : next.calls = workshop.calls)
    (requests : next.requests = workshop.requests.set id changed)
    (jobs : ∀ job ∈ changed.jobs, job.place = .queued ∨ job ∈ request.jobs) : workshop.Works next := by
  refine .rest remembers calls fun id' job has => ?_
  have has' : (workshop.setRequest id changed).Has id' job := by simpa only [Has, setRequest, requests] using has
  rcases has_setRequest has' with ⟨rfl, present⟩ | ⟨_, old⟩
  · exact (jobs job present).imp_right fun old => ⟨request, at', old⟩
  · exact Or.inr old

/-- A job that moves is replaced in its request. -/
private theorem Works.job {workshop next : Workshop} {id : RequestId} {request : Request} {job moved : Job}
    (cancelled : Bool) (at' : workshop.requests[id]? = some request) (member : job ∈ request.jobs) (stride : workshop.Stride job next moved)
    (requests : next.requests =
      workshop.requests.set id ({ request with cancelled }.updateJob job.fingerprint fun _ => moved)) :
    workshop.Works next := by
  refine .move ⟨request, at', member⟩ stride fun id' other has => ?_
  have has' : (workshop.setRequest id
      ({ request with cancelled }.updateJob job.fingerprint fun _ => moved)).Has id' other := by
    simpa only [Has, setRequest, requests] using has
  rcases has_setRequest has' with ⟨rfl, present⟩ | ⟨apart, old⟩
  · obtain ⟨before, within, shape⟩ := List.mem_map.mp present
    by_cases here : before.fingerprint = job.fingerprint
    · simp only [here, ↓reduceIte] at shape
      exact Or.inl ⟨rfl, shape.symm⟩
    · simp only [here, ↓reduceIte] at shape
      subst shape
      exact Or.inr ⟨⟨request, at', within⟩, fun _ => here⟩
  · exact Or.inr ⟨old, fun same => absurd same apart⟩

theorem jobs_conclude (config : BuildConfig) (request : Request) (derivation : Derivation) (result : JobResult) :
    (request.conclude config derivation result).jobs = request.jobs := by
  fun_cases Request.conclude config request derivation result with
  | case1 realized =>
    obtain ⟨waiting, ready, shape⟩ := Request.succeed_eq request derivation realized
    rw [shape]
    rfl
  | _ => rfl

theorem jobs_updateJob {request : Request} {job moved : Job} (cancelled : Bool) {other : Job}
    (present : other ∈ ({ request with cancelled }.updateJob job.fingerprint fun _ => moved).jobs) :
    other = moved ∨ other ∈ request.jobs ∧ other.fingerprint ≠ job.fingerprint := by
  obtain ⟨before, within, shape⟩ := List.mem_map.mp present
  by_cases here : before.fingerprint = job.fingerprint
  · simp only [here, ↓reduceIte] at shape
    exact Or.inl shape.symm
  · simp only [here, ↓reduceIte] at shape
    subst shape
    exact Or.inr ⟨within, here⟩

theorem Serves.works {workshop next : Workshop} {event : Event} (serves : workshop.Serves event next)
    (books : ∀ request ∈ workshop.requests, request.Books []) : workshop.Works next := by
  cases serves with
  | @request roots cancelled request made =>
    have idle : request.jobs = [] := by rw [(Request.opens_new made).1.fresh]; rfl
    refine .rest (.refl workshop) rfl fun id job has => Or.inr ?_
    obtain ⟨other, at', present⟩ := has
    rw [List.getElem?_append] at at'
    split at at'
    · exact ⟨other, at', present⟩
    · obtain ⟨_, rfl⟩ := List.getElem?_eq_some_iff.mp at'
      simp [List.getElem_singleton, idle] at present
  | visit at' visits =>
    obtain ⟨_, _, _, _, _, _, ⟨_, rfl⟩ | ⟨_, rfl⟩⟩ :=
      Request.visit_cases (books _ (List.mem_of_getElem? at')) visits
    all_goals exact .request at' (.refl workshop) rfl rfl fun _ => Or.inr
  | @look id request derivation at' looking =>
    refine .request at' (remembers_fetch workshop derivation) rfl rfl fun job present => ?_
    cases found : (workshop.fetch derivation).2 with
    | some outputs =>
      obtain ⟨waiting, ready, shape⟩ :=
        Request.succeed_eq { request with looking := none } derivation ⟨outputs, true⟩
      simp only [found, Request.looked, shape] at present
      exact Or.inr present
    | none =>
      simp only [found, Request.looked, List.mem_append, List.mem_singleton] at present
      rcases present with old | rfl
      · exact Or.inr old
      · exact Or.inl rfl
  | @advance id request job at' member =>
    refine .job request.cancelled at' (List.mem_of_find?_eq_some member)
      ((stride_advance workshop id request job).setRequest id _) ?_
    simp only [setRequest, (advance_frame workshop id request job).requests]
  | @reply id request job outputs attempt rest reply cancels at' member running open' =>
    exact .job cancels at' (List.mem_of_find?_eq_some member)
      ((stride_replied workshop running reply).setRequest id _) rfl
  | join at' joins =>
    obtain ⟨job, result, _, _, _, _, _, rfl⟩ := Request.join_cases joins
    refine .request at' (.refl workshop) rfl rfl fun other present => Or.inr ?_
    rw [jobs_conclude] at present
    exact List.mem_of_mem_filter present
  | close at' closes =>
    obtain ⟨_, _, later, rfl, _⟩ := Request.Books.close_cases closes
    exact .request at' (.refl workshop) rfl rfl fun _ => Or.inr
  | cancel at' => exact .request at' (.refl workshop) rfl rfl fun _ => Or.inr
  | write disk => exact .rest (.refl workshop) rfl fun _ _ => Or.inr

theorem Works.remembers {workshop next : Workshop} (works : workshop.Works next) : workshop.Remembers next := by
  cases works with
  | rest remembers calls jobs => exact remembers
  | move has stride jobs => exact stride.remembers

/-- The outputs that a request has recorded for a fingerprint. -/
def Reports (request : Request) (fingerprint : Fingerprint) (outputs : Outputs) : Prop :=
  ∃ name cached, request.report.get? fingerprint = some ⟨name, .succeeded outputs cached⟩

private theorem reports_record {request : Request} {derivation : Derivation} {status : BuildStatus}
    {fingerprint : Fingerprint} {outputs : Outputs}
    (reports : Reports (request.record derivation status) fingerprint outputs) :
    Reports request fingerprint outputs ∨
      fingerprint = derivation.fingerprint ∧ ∃ cached, status = .succeeded outputs cached := by
  obtain ⟨name, cached, known⟩ := reports
  simp only [Request.record, get?_insert] at known
  split at known
  next same =>
    cases known
    exact Or.inr ⟨same, cached, rfl⟩
  next => exact Or.inl ⟨name, cached, known⟩

private theorem reports_succeed {request : Request} {derivation : Derivation} {realized : Realized}
    {fingerprint : Fingerprint} {outputs : Outputs}
    (reports : Reports (request.succeed derivation realized) fingerprint outputs) :
    Reports request fingerprint outputs ∨ fingerprint = derivation.fingerprint ∧ realized.outputs = outputs := by
  obtain ⟨waiting, ready, shape⟩ := Request.succeed_eq request derivation realized
  rw [shape] at reports
  have reported :
      Reports (request.record derivation (.succeeded realized.outputs realized.cached)) fingerprint outputs := reports
  rcases reports_record reported with old | ⟨same, cached, new⟩
  · exact Or.inl old
  · cases new
    exact Or.inr ⟨same, rfl⟩

/-- Failures bring no success. -/
private theorem reports_fail {request : Request} (closed : request.graph.Closed) {derivation : Derivation}
    {error : BuildError} {fingerprint : Fingerprint} {outputs : Outputs}
    (reports : Reports (request.fail derivation error) fingerprint outputs) : Reports request fingerprint outputs := by
  obtain ⟨name, cached, known⟩ := reports
  have flood := Request.failAll_flood closed request.report [(derivation.fingerprint, error)]
  cases recorded : request.report.get? fingerprint with
  | some record =>
    obtain rfl := Option.some.inj ((flood.grows _ _ recorded).symm.trans known)
    exact ⟨name, cached, recorded⟩
  | none =>
    obtain ⟨node, cause, _, shape, _⟩ := flood.origin fingerprint _ known (by simp [has, recorded])
    cases shape

private theorem reports_conclude {config : BuildConfig} {request : Request} (closed : request.graph.Closed)
    {derivation : Derivation} {result : JobResult} {fingerprint : Fingerprint} {outputs : Outputs}
    (reports : Reports (request.conclude config derivation result) fingerprint outputs) :
    Reports request fingerprint outputs ∨
      fingerprint = derivation.fingerprint ∧ ∃ realized, result = .ok realized ∧ realized.outputs = outputs := by
  revert reports
  fun_cases Request.conclude config request derivation result with
  | case1 realized =>
    intro reports
    exact (reports_succeed reports).imp_right fun made => ⟨made.1, realized, rfl, made.2⟩
  | case2 name =>
    intro reports
    rcases reports_record reports with old | ⟨_, _, absurd⟩
    · exact Or.inl old
    · cases absurd
  | case3 error other failed keepsGoing => exact fun reports => Or.inl (reports_fail closed reports)
  | case4 error other failed stops => exact fun reports => Or.inl (reports_fail closed reports)

/-- A request that ends reports no more successes. -/
private theorem reports_close {request next : Request} (closes : request.close = some next)
    {fingerprint : Fingerprint} {outputs : Outputs} (reports : Reports next fingerprint outputs) :
    Reports request fingerprint outputs := by
  obtain ⟨name, cached, found⟩ := reports
  rcases Request.Books.recorded_of_close closes found with old | ⟨_, _, absurd⟩
  · exact ⟨name, cached, old⟩
  · cases absurd

/-- Where one request is replaced in its place, a success is reported by a request that was
    there, unless the new one brings it. -/
private theorem reports_set {requests : List Request} {id : RequestId} {before after request : Request}
    (at' : requests[id]? = some before) (member : request ∈ requests.set id after)
    {fingerprint : Fingerprint} {outputs : Outputs} (reports : Reports request fingerprint outputs) {brings : Prop}
    (replaced : Reports after fingerprint outputs → Reports before fingerprint outputs ∨ brings) :
    (∃ earlier ∈ requests, Reports earlier fingerprint outputs) ∨ brings := by
  rcases List.mem_or_eq_of_mem_set member with old | rfl
  · exact Or.inl ⟨request, old, reports⟩
  · exact (replaced reports).imp_left fun earlier => ⟨before, List.mem_of_getElem? at', earlier⟩

/-- A success that a request reports after an event was reported before, or its outputs
    are remembered, or a job has ended with them. -/
theorem Serves.reports_step {workshop next : Workshop} {event : Event} (serves : workshop.Serves event next)
    (books : ∀ request ∈ workshop.requests, request.Books []) {request : Request} (member : request ∈ next.requests)
    {fingerprint : Fingerprint} {outputs : Outputs} (reports : Reports request fingerprint outputs) :
    (∃ earlier ∈ workshop.requests, Reports earlier fingerprint outputs) ∨
      next.cache.get? fingerprint = some outputs ∨
      ∃ id job cached, workshop.Has id job ∧ job.fingerprint = fingerprint ∧
        job.place = .finished (.ok ⟨outputs, cached⟩) := by
  cases serves with
  | @request roots cancelled started made =>
    rcases List.mem_append.mp member with old | new
    · exact Or.inl ⟨request, old, reports⟩
    · obtain ⟨name, cached, known⟩ := reports
      rw [List.mem_singleton.mp new, (Request.opens_new made).1.fresh] at known
      cases known
  | visit at' visits =>
    obtain ⟨_, _, _, _, _, _, ⟨_, rfl⟩ | ⟨_, rfl⟩⟩ :=
      Request.visit_cases (books _ (List.mem_of_getElem? at')) visits
    · -- a visit records at most a failure
      refine reports_set at' member reports fun reports => Or.inl ?_
      rcases reports_record reports with before | ⟨_, _, absurd⟩
      · exact before
      · cases absurd
    · exact reports_set at' member reports Or.inl
  | @look id before derivation at' looking =>
    refine reports_set at' member reports fun reports => ?_
    cases found : (workshop.fetch derivation).2 with
    | none =>
      simp only [found, Request.looked] at reports
      exact Or.inl reports
    | some outputs' =>
      simp only [found, Request.looked] at reports
      rcases reports_succeed reports with before | ⟨rfl, rfl⟩
      · exact Or.inl before
      · exact Or.inr (Or.inl (get?_of_fetch found))
  | @advance id before job at' _ =>
    have requests : (workshop.advance id before job).1.requests = workshop.requests :=
      (advance_frame workshop id before job).requests
    rw [setRequest, requests] at member
    exact reports_set at' member reports Or.inl
  | reply at' _ _ _ => exact reports_set at' member reports Or.inl
  | @join id before next fingerprint' at' joins =>
    obtain ⟨job, result, _, _, present, rfl, place, rfl⟩ := Request.join_cases joins
    refine reports_set at' member reports fun reports => ?_
    have closed : before.graph.Closed := (books before (List.mem_of_getElem? at')).graph
    rcases reports_conclude (by exact closed) reports with earlier | ⟨rfl, realized, rfl, rfl⟩
    · exact Or.inl earlier
    · exact Or.inr (Or.inr ⟨id, job, realized.cached, ⟨before, at', present⟩, rfl, place⟩)
  | close at' closes => exact reports_set at' member reports fun reports => Or.inl (reports_close closes reports)
  | cancel at' => exact reports_set at' member reports Or.inl
  | write disk => exact Or.inl ⟨request, member, reports⟩

/-! ### What the claims guard -/

/-- One job at most is past the claim on a fingerprint. Once a job has ended with outputs,
    they are remembered and nobody makes others. What is reported is what is remembered. -/
structure Guarded (workshop : Workshop) : Prop where
  books : ∀ request ∈ workshop.requests, request.Books []
  exclusive : ∀ {id id' job job'}, workshop.Has id job → workshop.Has id' job' → job.fingerprint = job'.fingerprint →
    job.place.holdsClaim = true → job'.place.holdsClaim = true → id = id' ∧ job = job'
  remembered : ∀ {id job realized}, workshop.Has id job → job.place = .finished (.ok realized) →
    workshop.cache.get? job.fingerprint = some realized.outputs
  idle : ∀ {id id' job job' realized}, workshop.Has id job → job.place = .finished (.ok realized) →
    workshop.Has id' job' → job'.fingerprint = job.fingerprint → job'.place.isMaking = false
  reported : ∀ request ∈ workshop.requests, ∀ fingerprint outputs, Reports request fingerprint outputs →
    workshop.cache.get? fingerprint = some outputs

namespace Guarded

theorem opens {workshop : Workshop} (opens : ∀ request ∈ workshop.requests, ∃ roots, request.Opens roots) :
    workshop.Guarded := by
  have nobody {id : RequestId} {job : Job} : ¬ workshop.Has id job := by
    rintro ⟨request, at', present⟩
    obtain ⟨roots, started⟩ := opens request (List.mem_of_getElem? at')
    rw [started.fresh] at present
    cases present
  refine ⟨fun request member => ?_, fun has => absurd has nobody, fun has => absurd has nobody,
    fun has => absurd has nobody, fun request member fingerprint outputs reports => ?_⟩
  · obtain ⟨roots, started⟩ := opens request member
    exact started.books
  · obtain ⟨roots, started⟩ := opens request member
    obtain ⟨name, cached, known⟩ := reports
    rw [started.fresh] at known
    cases known

/-- Who is not past the claim makes nothing, and nobody else does who has its fingerprint. -/
private theorem idle_of_claimed {workshop : Workshop} (guarded : workshop.Guarded) {id id' : RequestId} {job job' : Job}
    (has : workshop.Has id job) (holds : job.place.holdsClaim = true) (has' : workshop.Has id' job')
    (same : job'.fingerprint = job.fingerprint) (apart : id' = id → job' ≠ job) : job'.place.isMaking = false := by
  by_contra making
  obtain ⟨rfl, rfl⟩ :=
    guarded.exclusive has has' same.symm holds (JobPlace.holdsClaim_of_isMaking (by simpa using making))
  exact apart rfl rfl

private theorem exclusive_move {workshop next : Workshop} (guarded : workshop.Guarded) {id : RequestId} {job moved : Job}
    (has : workshop.Has id job) (stride : workshop.Stride job next moved) {id' : RequestId} {other : Job}
    (has' : workshop.Has id' other) (apart : id' = id → other.fingerprint ≠ job.fingerprint)
    (same : other.fingerprint = moved.fingerprint) (holds : moved.place.holdsClaim = true)
    (holds' : other.place.holdsClaim = true) : False := by
  have same' : other.fingerprint = job.fingerprint := by rw [same, Job.fingerprint, stride.derivation, Job.fingerprint]
  rcases stride.claims holds with before | free
  · obtain ⟨rfl, rfl⟩ := guarded.exclusive has has' same'.symm before holds'
    exact apart rfl rfl
  · rw [isHeld_iff.mpr ⟨id', other, has', same', holds'⟩] at free
    cases free

/-- What an event does keeps the claims. -/
theorem step {workshop next : Workshop} {event : Event} (guarded : workshop.Guarded)
    (serves : workshop.Serves event next) : next.Guarded := by
  have reported : ∀ request ∈ next.requests, ∀ fingerprint outputs, Reports request fingerprint outputs →
      next.cache.get? fingerprint = some outputs := by
    have remembers : workshop.Remembers next := (serves.works guarded.books).remembers
    intro request member fingerprint outputs reports
    rcases serves.reports_step guarded.books member reports with
      ⟨earlier, old, reported⟩ | known | ⟨id, job, cached, has, rfl, place⟩
    · exact remembers _ _ (guarded.reported earlier old fingerprint outputs reported)
    · exact known
    · exact remembers _ _ (guarded.remembered has place)
  cases serves.works guarded.books with
  | rest remembers calls jobs =>
    have old {id : RequestId} {job : Job} (has : next.Has id job) (busy : job.place ≠ .queued) : workshop.Has id job :=
      (jobs id job has).resolve_left busy
    refine ⟨(serves.turn.books guarded.books).1, ?_, ?_, ?_, reported⟩
    · intro id id' job job' has has' same holds holds'
      exact guarded.exclusive (old has fun queued => by simp [queued, JobPlace.holdsClaim] at holds)
        (old has' fun queued => by simp [queued, JobPlace.holdsClaim] at holds') same holds holds'
    · intro id job realized has ended
      exact remembers _ _ (guarded.remembered (old has (by simp [ended])) ended)
    · intro id id' job job' realized has ended has' same
      rcases jobs id' job' has' with queued | has'
      · simp [queued, JobPlace.isMaking]
      · exact guarded.idle (old has (by simp [ended])) ended has' same
  | @move id job moved has stride jobs =>
    have same : moved.fingerprint = job.fingerprint := by rw [Job.fingerprint, stride.derivation, Job.fingerprint]
    refine ⟨(serves.turn.books guarded.books).1, ?_, ?_, ?_, reported⟩
    · intro first second one other hasOne hasOther alike holds holds'
      rcases jobs first one hasOne with ⟨rfl, rfl⟩ | ⟨oldOne, apartOne⟩
      · rcases jobs second other hasOther with ⟨rfl, rfl⟩ | ⟨oldOther, apartOther⟩
        · exact ⟨rfl, rfl⟩
        · exact (exclusive_move guarded has stride oldOther apartOther alike.symm holds holds').elim
      · rcases jobs second other hasOther with ⟨rfl, rfl⟩ | ⟨oldOther, apartOther⟩
        · exact (exclusive_move guarded has stride oldOne apartOne alike holds' holds).elim
        · exact guarded.exclusive oldOne oldOther alike holds holds'
    · intro id' job' realized has' ended
      rcases jobs id' job' has' with ⟨rfl, rfl⟩ | ⟨old, apart⟩
      · rw [same]
        rcases stride.ends realized ended with rfl | ⟨_, known⟩
        · exact stride.remembers _ _ (guarded.remembered has ended)
        · exact known
      · exact stride.remembers _ _ (guarded.remembered old ended)
    · intro first second ender other realized hasEnder ended hasOther alike
      rcases jobs first ender hasEnder with ⟨rfl, rfl⟩ | ⟨oldEnder, _⟩
      · rcases jobs second other hasOther with ⟨rfl, rfl⟩ | ⟨oldOther, apart⟩
        · simp [ended, JobPlace.isMaking]
        · rcases stride.ends realized ended with rfl | ⟨holds, _⟩
          · exact guarded.idle has ended oldOther alike
          · exact idle_of_claimed guarded has holds oldOther (alike.trans same) fun here equal =>
              apart here (congrArg Job.fingerprint equal)
      · rcases jobs second other hasOther with ⟨rfl, rfl⟩ | ⟨oldOther, _⟩
        · by_contra making
          rcases stride.makes (by simpa using making) with before | forgotten
          · rw [guarded.idle oldEnder ended has (same.symm.trans alike)] at before
            cases before
          · have known := guarded.remembered oldEnder ended
            rw [← alike, same, forgotten] at known
            cases known
        · exact guarded.idle oldEnder ended oldOther alike

end Guarded

/-- The outputs of a fingerprint are remembered, and nobody makes others. -/
structure Provided (workshop : Workshop) (fingerprint : Fingerprint) : Prop where
  remembered : (workshop.cache.get? fingerprint).isSome = true
  idle : ∀ {id job}, workshop.Has id job → job.fingerprint = fingerprint → job.place.isMaking = false

/-- What is provided stays so, and the runner is not called for it. -/
theorem Provided.step {workshop next : Workshop} {fingerprint : Fingerprint} (provided : workshop.Provided fingerprint)
    (works : workshop.Works next) :
    next.Provided fingerprint ∧ ∃ fresh, next.calls = fresh ++ workshop.calls ∧
      ∀ call ∈ fresh, call.derivation.fingerprint ≠ fingerprint := by
  have remembered : (next.cache.get? fingerprint).isSome = true := by
    obtain ⟨outputs, known⟩ := Option.isSome_iff_exists.mp provided.remembered
    simp [works.remembers _ _ known]
  cases works with
  | rest remembers calls jobs =>
    refine ⟨⟨remembered, fun {id job} has same => ?_⟩, [], calls, by simp⟩
    rcases jobs id job has with queued | old
    · simp [queued, JobPlace.isMaking]
    · exact provided.idle old same
  | @move id job moved has stride jobs =>
    have same : moved.fingerprint = job.fingerprint := by rw [Job.fingerprint, stride.derivation, Job.fingerprint]
    refine ⟨⟨remembered, fun {id' job'} has' alike => ?_⟩, ?_⟩
    · rcases jobs id' job' has' with ⟨rfl, rfl⟩ | ⟨old, _⟩
      · by_contra making
        rcases stride.makes (by simpa using making) with before | forgotten
        · rw [provided.idle has (same.symm.trans alike)] at before
          cases before
        · have known := provided.remembered
          rw [← alike, same, forgotten] at known
          cases known
      · exact provided.idle old alike
    · rcases stride.calls with calls | ⟨making, call, itself, calls⟩
      · exact ⟨[], calls, by simp⟩
      · refine ⟨[call], calls, fun other member => ?_⟩
        rw [List.mem_singleton.mp member, itself]
        intro alike
        rw [provided.idle has alike] at making
        cases making

/-! ### Runs -/

theorem Guarded.run {workshop after : Workshop} (guarded : workshop.Guarded) {events : List Event}
    (ran : workshop.run events = some after) : after.Guarded := by
  induction events generalizing workshop with
  | nil =>
    cases ran
    exact guarded
  | cons event rest ih =>
    obtain ⟨next, steps, onwards⟩ := run_cons ran
    exact ih (guarded.step (step_serves steps)) onwards

theorem Provided.run {workshop after : Workshop} {fingerprint : Fingerprint} (guarded : workshop.Guarded)
    (provided : workshop.Provided fingerprint) {events : List Event} (ran : workshop.run events = some after) :
    after.Provided fingerprint ∧ workshop.Remembers after ∧ ∃ fresh, after.calls = fresh ++ workshop.calls ∧
      ∀ call ∈ fresh, call.derivation.fingerprint ≠ fingerprint := by
  induction events generalizing workshop with
  | nil =>
    cases ran
    exact ⟨provided, .refl _, [], rfl, by simp⟩
  | cons event rest ih =>
    obtain ⟨next, steps, onwards⟩ := run_cons ran
    have works := (step_serves steps).works guarded.books
    obtain ⟨still, fresh, calls, others⟩ := provided.step works
    obtain ⟨later, remembers, fresh', calls', others'⟩ := ih (guarded.step (step_serves steps)) still onwards
    refine ⟨later, works.remembers.trans remembers, fresh' ++ fresh, by rw [calls', calls, List.append_assoc], ?_⟩
    intro call member
    rcases List.mem_append.mp member with new | old
    · exact others' call new
    · exact others call old

private theorem has_of_job? {workshop : Workshop} {id : RequestId} {place : Nat} {job : Job}
    (at' : workshop.job? id place = some job) : workshop.Has id job := by
  obtain ⟨request, here, found⟩ := Option.bind_eq_some_iff.mp at'
  exact ⟨request, here, List.mem_of_getElem? found⟩

/-- One job at most is past the claim on a fingerprint. -/
theorem Guarded.place_eq {workshop : Workshop} (guarded : workshop.Guarded) {id id' : RequestId} {place place' : Nat}
    {job job' : Job} (at' : workshop.job? id place = some job) (at'' : workshop.job? id' place' = some job')
    (same : job.fingerprint = job'.fingerprint) (holds : job.place.holdsClaim = true)
    (holds' : job'.place.holdsClaim = true) : id = id' ∧ place = place' := by
  obtain ⟨rfl, rfl⟩ := guarded.exclusive (has_of_job? at') (has_of_job? at'') same holds holds'
  obtain ⟨request, here, found⟩ := Option.bind_eq_some_iff.mp at'
  obtain ⟨request', here', found'⟩ := Option.bind_eq_some_iff.mp at''
  obtain rfl := Option.some.inj (here.symm.trans here')
  have once := (guarded.books request (List.mem_of_getElem? here)).nodup_jobs
  have inside := (List.getElem?_eq_some_iff.mp found).1
  exact ⟨rfl, (List.getElem?_inj (by simpa using inside) once).mp (by simp [found, found'])⟩

/-- However the requests of a workshop and their jobs move, with any replies of the runner,
    failures, requests called off and files changed: one job at most is past the claim on a
    fingerprint; after a job has ended with outputs, which it has recorded or found, the
    runner is never called for its fingerprint again, nobody makes other outputs, and
    whoever reports a success reports these; and all who report a success of one
    fingerprint report the same outputs. -/
theorem run_exclusive {workshop mid after : Workshop} {earlier later : List Event}
    (opens : ∀ request ∈ workshop.requests, ∃ roots, request.Opens roots) (ran : workshop.run earlier = some mid)
    (onwards : mid.run later = some after) :
    (∀ id id' place place' job job', after.job? id place = some job → after.job? id' place' = some job' →
      job.fingerprint = job'.fingerprint → job.place.holdsClaim = true → job'.place.holdsClaim = true →
        id = id' ∧ place = place') ∧
      (∀ id place job realized, mid.job? id place = some job → job.place = .finished (.ok realized) →
        (∃ fresh, after.calls = fresh ++ mid.calls ∧
          ∀ call ∈ fresh, call.derivation.fingerprint ≠ job.fingerprint) ∧
        (∀ id' place' job', after.job? id' place' = some job' → job'.fingerprint = job.fingerprint →
          job'.place.isMaking = false) ∧
        ∀ request ∈ after.requests, ∀ outputs, Reports request job.fingerprint outputs → outputs = realized.outputs) ∧
      ∀ request ∈ after.requests, ∀ request' ∈ after.requests, ∀ fingerprint outputs outputs',
        Reports request fingerprint outputs → Reports request' fingerprint outputs' → outputs = outputs' := by
  have guarded : mid.Guarded := (Guarded.opens opens).run ran
  have ended : after.Guarded := guarded.run onwards
  refine ⟨fun _ _ _ _ _ _ => ended.place_eq, ?_, ?_⟩
  · intro id place job realized at' finished
    have has := has_of_job? at'
    have known := guarded.remembered has finished
    have provided : mid.Provided job.fingerprint :=
      ⟨by simp [known], fun has' same => guarded.idle has finished has' same⟩
    obtain ⟨still, remembers, calls⟩ := provided.run guarded onwards
    refine ⟨calls, fun id' place' job' at'' same => still.idle (has_of_job? at'') same, ?_⟩
    intro request member outputs reports
    exact Option.some.inj ((ended.reported request member _ _ reports).symm.trans (remembers _ _ known))
  · intro request member request' member' fingerprint outputs outputs' reports reports'
    exact Option.some.inj ((ended.reported request member _ _ reports).symm.trans
      (ended.reported request' member' _ _ reports'))

end Workshop

/-! ### Two requests for the same -/

namespace Errand

/-- A workshop that remembers `tool`, with two requests. -/
def pair (first second : Request) : Workshop := { shop [tool] first with requests := [first, second] }

/-- Both requests find `tool` and schedule a job for `lib`. -/
def shared : List Event :=
  [.visit 0, .look 0, .visit 0, .visit 1, .look 1, .visit 1, .look 0, .look 1]

/-- One job passes the claim, and the other one cannot. -/
def contested : List Event :=
  [.advance 0 lib.fingerprint, .advance 1 lib.fingerprint, .advance 0 lib.fingerprint, .advance 1 lib.fingerprint]

/-- A request with its job for `lib`. -/
def atWork (place : JobPlace) : Request := midway none [⟨lib, [], place⟩]

theorem run_shared : (pair asked asked).run shared = some (pair (atWork .queued) (atWork .queued)) := by
  have missed (first second : Request) : (pair first second).offers lib = false := working_forgotten first
  have at0 : (pair (midway (some lib) []) (midway (some lib) [])).requests[0]? = some (midway (some lib) []) := rfl
  have at1 : (pair (atWork .queued) (midway (some lib) [])).requests[1]? = some (midway (some lib) []) := rfl
  have first : (pair (midway (some lib) []) (midway (some lib) [])).step (.look 0) =
      some (pair (atWork .queued) (midway (some lib) [])) := Workshop.step_look_of_missed at0 rfl (missed _ _)
  have second : (pair (atWork .queued) (midway (some lib) [])).step (.look 1) =
      some (pair (atWork .queued) (atWork .queued)) := Workshop.step_look_of_missed at1 rfl (missed _ _)
  have both : (pair (midway (some lib) []) (midway (some lib) [])).run [.look 0, .look 1] =
      some (pair (atWork .queued) (atWork .queued)) := by
    simp only [Workshop.run, List.foldlM_cons, List.foldlM_nil, first, second, Option.bind_eq_bind, Option.bind_some]
    rfl
  exact both

theorem run_contested : (pair (atWork .queued) (atWork .queued)).run contested =
    some (pair (atWork .claimed) (atWork .admitted)) := rfl

end Errand

open Errand in
/-- The second job waits while the first one has the claim, and both requests report the
    same outputs of what was there. -/
theorem Workshop.run_exclusive_errand :
    ∃ after, (pair asked asked).run (shared ++ contested) = some after ∧
      (∃ job job', after.job? 0 0 = some job ∧ after.job? 1 0 = some job' ∧ job.fingerprint = job'.fingerprint ∧
        job.place.holdsClaim = true ∧ job'.place.holdsClaim = false) ∧
      ∀ outputs outputs', Reports (atWork .claimed) tool.fingerprint outputs →
        Reports (atWork .admitted) tool.fingerprint outputs' → outputs = outputs' := by
  have opening : ∀ request ∈ (pair asked asked).requests, ∃ roots, request.Opens roots := by
    intro request member
    obtain rfl : request = asked := by simpa [pair] using member
    exact ⟨[app], opens_asked⟩
  obtain ⟨alone, _, same⟩ := Workshop.run_exclusive opening run_shared run_contested
  refine ⟨pair (atWork .claimed) (atWork .admitted), ?_, ⟨⟨lib, [], .claimed⟩, ⟨lib, [], .admitted⟩, rfl, rfl, rfl, rfl, ?_⟩, ?_⟩
  · have both := run_shared
    simp only [Workshop.run, List.foldlM_append] at both ⊢
    rw [both]
    exact run_contested
  · by_contra holds
    have absurd := alone 0 1 0 0 _ _ rfl rfl rfl rfl (by simpa using holds)
    cases absurd.1
  · exact same _ (by simp [pair]) _ (by simp [pair]) _

end Pkgset

import Pkgset.Proofs.Build.Completion

/-!
# Requests that are stopped

A request that was called off, or halted for a failure, is stopped for good: nothing that
is ready is looked for any more. A derivation whose job has not come past its last look
whether it is to go on gets no outputs from there: it is recorded as called off, unless an
input fails and it fails with it.
-/

namespace Pkgset
open BuildReport BuildGraph

namespace JobPlace

/-- Whether a job there has yet to look for the last time whether it was called off before
    it works, or has ended by being called off. -/
def isEarly : JobPlace → Bool
  | .queued | .admitted | .claimed | .finished (.error (.cancelled _)) => true
  | _ => false

/-- A job that is over early was called off. -/
theorem cancelled_of_isEarly {result : JobResult} (early : (finished result).isEarly = true) :
    ∃ name, result = .error (.cancelled name) := by
  cases result with
  | ok outputs => cases early
  | error error => cases error with
    | cancelled name => exact ⟨name, rfl⟩
    | _ => cases early

end JobPlace

namespace Request
variable {config : BuildConfig} {goes : Job → Job → Prop} {request next : Request} {fingerprint : Fingerprint}

/-! ### What a stopped request does -/

/-- What a workshop does to a stopped request whose jobs move in certain ways. -/
inductive Subsides (config : BuildConfig) (goes : Job → Job → Prop) (request : Request) : Request → Prop where
  | visit {next : Request} (visits : request.visit = some next) : Subsides config goes request next
  | look {derivation : Derivation} (looking : request.looking = some derivation) (found : Option Outputs) :
      Subsides config goes request (request.looked derivation found)
  | job {job moved : Job} (member : request.jobs.find? (·.fingerprint = job.fingerprint) = some job)
      (derivation : moved.derivation = job.derivation) (inputs : moved.inputs = job.inputs) (moves : goes job moved)
      (cancelled : Bool) (lasts : request.cancelled = true → cancelled = true) :
      Subsides config goes request ({ request with cancelled }.updateJob job.fingerprint fun _ => moved)
  | join {next : Request} {fingerprint : Fingerprint} (joins : request.join config fingerprint = some next) :
      Subsides config goes request next
  | close {next : Request} (closes : request.close = some next) : Subsides config goes request next
  | cancel : Subsides config goes request { request with cancelled := true }

theorem Subsides.moves (subsides : request.Subsides config goes next) :
    ∃ scheduled, request.Moves config scheduled next := by
  cases subsides with
  | visit visits => exact ⟨_, .visit visits⟩
  | @look derivation looking found =>
    cases found with
    | some outputs => exact ⟨_, .look looking outputs⟩
    | none => exact ⟨_, .schedule looking⟩
  | job member derivation inputs moves cancelled lasts => exact ⟨_, .job member _ derivation inputs cancelled⟩
  | join joins => exact ⟨_, .join joins⟩
  | close closes => exact ⟨_, .close closes⟩
  | cancel => exact ⟨_, .cancel⟩

/-- What is ready is called off when a request is stopped. -/
theorem visit_of_stopped (books : request.Books []) (stopped : request.isStopped = true)
    (visits : request.visit = some next) :
    ∃ rest derivation, request.looking = none ∧ request.ready = derivation.fingerprint :: rest ∧
      request.graph.find? derivation.fingerprint = some derivation ∧
      next = { request with ready := rest }.record derivation .cancelled := by
  obtain ⟨fingerprint, rest, derivation, looking, ready, found, ⟨_, rfl⟩ | ⟨going, _⟩⟩ := visit_cases books visits
  · obtain rfl := (find?_some found).2
    exact ⟨rest, derivation, looking, ready, found, rfl⟩
  · rw [stopped] at going
    cases going

theorem succeed_frame (request : Request) (derivation : Derivation) (realized : Realized) :
    (request.succeed derivation realized).looking = request.looking ∧
      (request.succeed derivation realized).cancelled = request.cancelled ∧
      (request.succeed derivation realized).halted = request.halted := by
  obtain ⟨waiting, ready, shape⟩ := succeed_eq request derivation realized
  rw [shape]
  exact ⟨rfl, rfl, rfl⟩

theorem conclude_frame (config : BuildConfig) (request : Request) (derivation : Derivation) (result : JobResult) :
    (request.conclude config derivation result).looking = request.looking ∧
      (request.conclude config derivation result).cancelled = request.cancelled := by
  fun_cases Request.conclude config request derivation result with
  | case1 realized => exact ⟨(succeed_frame ..).1, (succeed_frame ..).2.1⟩
  | _ => exact ⟨rfl, rfl⟩

theorem stopped_conclude {derivation : Derivation} {result : JobResult} (stopped : request.isStopped = true) :
    (request.conclude config derivation result).isStopped = true := by
  fun_cases Request.conclude config request derivation result with
  | case1 realized =>
    have frame := (succeed_frame request derivation realized).2
    rwa [isStopped, frame.1, frame.2]
  | case4 error other failed stops => simp [isStopped]
  | _ => exact stopped

theorem Subsides.stopped (subsides : request.Subsides config goes next) (books : request.Books [])
    (stopped : request.isStopped = true) : next.isStopped = true := by
  cases subsides with
  | visit visits =>
    obtain ⟨rest, derivation, _, _, _, rfl⟩ := visit_of_stopped books stopped visits
    exact stopped
  | @look derivation looking found =>
    cases found with
    | some outputs =>
      have frame := (succeed_frame { request with looking := none } derivation ⟨outputs, true⟩).2
      rwa [looked, isStopped, frame.1, frame.2]
    | none => exact stopped
  | job member derivation inputs moves cancelled lasts =>
    rcases Bool.or_eq_true_iff.mp stopped with off | halted
    · exact Bool.or_eq_true_iff.mpr (Or.inl (lasts off))
    · exact Bool.or_eq_true_iff.mpr (Or.inr halted)
  | join joins =>
    obtain ⟨job, result, _, _, _, _, _, rfl⟩ := join_cases joins
    exact stopped_conclude stopped
  | close closes =>
    obtain ⟨_, _, later, rfl, _⟩ := Books.close_cases closes
    exact stopped
  | cancel => rfl

/-- The jobs after a stopped request did something are jobs from before, perhaps moved, or are queued. -/
theorem Subsides.job_cases (subsides : request.Subsides config goes next) (books : request.Books [])
    (stopped : request.isStopped = true) {job : Job} (member : job ∈ next.jobs) :
    (request.looking = some job.derivation ∧ job.place = .queued) ∨
      ∃ before ∈ request.jobs, before.fingerprint = job.fingerprint ∧ (before = job ∨ goes before job) := by
  cases subsides with
  | visit visits =>
    obtain ⟨rest, derivation, _, _, _, rfl⟩ := visit_of_stopped books stopped visits
    exact Or.inr ⟨job, member, rfl, Or.inl rfl⟩
  | @look derivation looking found =>
    cases found with
    | some outputs =>
      obtain ⟨waiting, ready, shape⟩ := succeed_eq { request with looking := none } derivation ⟨outputs, true⟩
      simp only [looked, shape] at member
      exact Or.inr ⟨job, member, rfl, Or.inl rfl⟩
    | none =>
      simp only [looked, List.mem_append, List.mem_singleton] at member
      rcases member with old | rfl
      · exact Or.inr ⟨job, old, rfl, Or.inl rfl⟩
      · exact Or.inl ⟨looking, rfl⟩
  | @job mover moved present derivation inputs moves cancelled lasts =>
    obtain ⟨before, within, shape⟩ := List.mem_map.mp member
    by_cases here : before.fingerprint = mover.fingerprint
    · simp only [here, ↓reduceIte] at shape
      subst shape
      refine Or.inr ⟨mover, List.mem_of_find?_eq_some present, ?_, Or.inr moves⟩
      rw [Job.fingerprint, Job.fingerprint, derivation]
    · simp only [here, ↓reduceIte] at shape
      subst shape
      exact Or.inr ⟨before, within, rfl, Or.inl rfl⟩
  | join joins =>
    obtain ⟨joined, result, _, _, _, _, _, rfl⟩ := join_cases joins
    rw [Workshop.jobs_conclude] at member
    exact Or.inr ⟨job, List.mem_of_mem_filter member, rfl, Or.inl rfl⟩
  | close closes =>
    obtain ⟨_, _, later, rfl, _⟩ := Books.close_cases closes
    exact Or.inr ⟨job, member, rfl, Or.inl rfl⟩
  | cancel => exact Or.inr ⟨job, member, rfl, Or.inl rfl⟩

/-! ### Derivations that have not come so far -/

/-- No outputs of a derivation are under way: it is not looked for, and its job is early. -/
structure Unbegun (request : Request) (fingerprint : Fingerprint) : Prop where
  looking : ∀ derivation, request.looking = some derivation → derivation.fingerprint ≠ fingerprint
  jobs : ∀ job ∈ request.jobs, job.fingerprint = fingerprint → job.place.isEarly = true

/-- A status of a derivation that has been given up: it was called off, or it failed because
    of an input. -/
def GivenUp (graph : BuildGraph) (report : BuildReport) (node : Derivation) (status : BuildStatus) : Prop :=
  status = .cancelled ∨ ∃ error, status = .failed error ∧ HandedDown graph report node error

/-- The records of a derivation, if there are some, say that it was given up. -/
def GivesUp (request : Request) (fingerprint : Fingerprint) : Prop :=
  ∀ record, request.report.get? fingerprint = some record →
    ∃ node, request.graph.find? fingerprint = some node ∧ record.name = node.name ∧
      GivenUp request.graph request.report node record.status

/-- Nothing is begun for a derivation by a stopped request whose early jobs stay early. -/
theorem Unbegun.subsides (unbegun : request.Unbegun fingerprint) (books : request.Books [])
    (stopped : request.isStopped = true)
    (early : ∀ {job moved}, goes job moved → job.place.isEarly = true → moved.place.isEarly = true)
    (subsides : request.Subsides config goes next) : next.Unbegun fingerprint := by
  constructor
  · cases subsides with
    | visit visits =>
      obtain ⟨rest, derivation, _, _, _, rfl⟩ := visit_of_stopped books stopped visits
      exact unbegun.looking
    | @look derivation looking found =>
      intro other looked
      cases found with
      | some outputs =>
        rw [Request.looked, (succeed_frame ..).1] at looked
        cases looked
      | none => cases looked
    | job member derivation inputs moves cancelled lasts => exact unbegun.looking
    | join joins =>
      obtain ⟨job, result, looking, _, _, _, _, rfl⟩ := join_cases joins
      intro other looked
      rw [(conclude_frame ..).1] at looked
      rw [looking] at looked
      cases looked
    | close closes =>
      obtain ⟨_, _, later, rfl, _⟩ := Books.close_cases closes
      exact unbegun.looking
    | cancel => exact unbegun.looking
  · intro job member same
    rcases subsides.job_cases books stopped member with ⟨_, queued⟩ | ⟨before, within, alike, rfl | moved⟩
    · rw [queued]
      rfl
    · exact unbegun.jobs before within same
    · exact early moved (unbegun.jobs before within (alike.trans same))

/-- What a job comes to is recorded for its derivation; all other records that are new are of
    failures that are handed down. -/
theorem conclude_recorded (closed : request.graph.Closed) {derivation : Derivation} {result : JobResult}
    {record : BuildRecord} (apart : fingerprint ≠ derivation.fingerprint)
    (known : (request.conclude config derivation result).report.get? fingerprint = some record) :
    request.report.get? fingerprint = some record ∨
      ∃ node error, request.graph.find? fingerprint = some node ∧ record = ⟨node.name, .failed error⟩ ∧
        HandedDown request.graph (request.conclude config derivation result).report node error := by
  revert known
  have failing (error : BuildError)
      (known : (request.fail derivation error).report.get? fingerprint = some record) :
      request.report.get? fingerprint = some record ∨
        ∃ node error', request.graph.find? fingerprint = some node ∧ record = ⟨node.name, .failed error'⟩ ∧
          HandedDown request.graph (request.fail derivation error).report node error' := by
    have flood := failAll_flood closed request.report [(derivation.fingerprint, error)]
    cases old : request.report.get? fingerprint with
    | some before => exact Or.inl ((flood.grows _ _ old).symm.trans known)
    | none =>
      obtain ⟨node, cause, found, shape, listed | handed⟩ :=
        flood.origin fingerprint record known (get?_eq_none.mp old)
      · exact absurd (Prod.mk.inj (List.mem_singleton.mp listed)).1 apart
      · exact Or.inr ⟨node, cause, found, shape, handed⟩
  fun_cases Request.conclude config request derivation result with
  | case1 realized =>
    intro known
    obtain ⟨waiting, ready, shape⟩ := succeed_eq request derivation realized
    rw [shape] at known
    exact Or.inl (by simpa [Request.record, get?_insert, apart] using known)
  | case2 name =>
    intro known
    exact Or.inl (by simpa [Request.record, get?_insert, apart] using known)
  | case3 error other failed keepsGoing => exact failing error
  | case4 error other failed stops => exact failing error

theorem GivenUp.mono {graph : BuildGraph} {report later : BuildReport} {node : Derivation} {status : BuildStatus}
    (grows : later.Extends report) (given : GivenUp graph report node status) : GivenUp graph later node status :=
  given.imp_right fun ⟨error, failed, handed⟩ => ⟨error, failed, handed.mono grows⟩

/-- A derivation that has not come so far gets no record but that it was given up. -/
theorem GivesUp.subsides (gives : request.GivesUp fingerprint) (unbegun : request.Unbegun fingerprint)
    (books : request.Books []) (stopped : request.isStopped = true) (subsides : request.Subsides config goes next) :
    next.GivesUp fingerprint := by
  obtain ⟨scheduled, moves⟩ := subsides.moves
  obtain ⟨booksNext, continues⟩ := books.moves moves
  intro record known
  obtain ⟨node, found, named⟩ := booksNext.named fingerprint record known
  refine ⟨node, found, named, ?_⟩
  have found' : request.graph.find? fingerprint = some node := by rw [← continues.graph, found]
  have old (before : request.report.get? fingerprint = some record) :
      GivenUp next.graph next.report node record.status := by
    obtain ⟨twin, foundTwin, _, given⟩ := gives record before
    obtain rfl : node = twin := Option.some.inj (found'.symm.trans foundTwin)
    rw [continues.graph]
    exact given.mono continues.grows
  cases subsides with
  | visit visits =>
    obtain ⟨rest, derivation, _, _, _, rfl⟩ := visit_of_stopped books stopped visits
    by_cases same : fingerprint = derivation.fingerprint
    · simp only [Request.record, get?_insert, same, ↓reduceIte, Option.some.injEq] at known
      exact Or.inl (by rw [← known])
    · exact old (by simpa [Request.record, get?_insert, same] using known)
  | @look derivation looking answer =>
    have apart : fingerprint ≠ derivation.fingerprint := (unbegun.looking derivation looking).symm
    cases answer with
    | some outputs =>
      obtain ⟨waiting, ready, shape⟩ := succeed_eq { request with looking := none } derivation ⟨outputs, true⟩
      refine old ?_
      simpa [Request.looked, shape, Request.record, get?_insert, apart] using known
    | none => exact old known
  | job member derivation inputs moves cancelled lasts => exact old known
  | join joins =>
    obtain ⟨job, result, _, _, member, _, place, rfl⟩ := join_cases joins
    by_cases same : fingerprint = job.fingerprint
    · -- the job is early and over, so it ended by being called off
      have early := unbegun.jobs job member same.symm
      rw [place] at early
      obtain ⟨name, rfl⟩ := JobPlace.cancelled_of_isEarly early
      have itself : fingerprint = job.derivation.fingerprint := same
      simp only [Request.conclude, Request.record, get?_insert, itself, ↓reduceIte, Option.some.injEq] at known
      exact Or.inl (by rw [← known])
    · rcases conclude_recorded (by exact books.graph) same known with before | ⟨twin, error, foundTwin, rfl, handed⟩
      · exact old before
      · obtain rfl : node = twin := Option.some.inj (found'.symm.trans foundTwin)
        refine Or.inr ⟨error, rfl, ?_⟩
        rw [continues.graph]
        exact handed
  | close closes =>
    rcases Books.recorded_of_close closes known with before | ⟨_, _, rfl⟩
    · exact old before
    · exact Or.inl rfl
  | cancel => exact old known

/-- At its end, a request has given up every derivation that gives up, and those that failed
    had an input that failed. -/
theorem Books.given_up (books : request.Books []) (gives : request.GivesUp fingerprint) (ended : request.closed = true)
    {node : Derivation} (found : request.graph.find? fingerprint = some node) :
    (request.report.get? fingerprint = some ⟨node.name, .cancelled⟩ ∧
      ∀ input ∈ request.graph.dependencies fingerprint, ∀ error, ¬ request.report.Failed input error) ∨
    ∃ error, request.report.get? fingerprint = some ⟨node.name, .failed error⟩ ∧
      HandedDown request.graph request.report node error := by
  obtain ⟨record, known⟩ := has_iff.mp ((books.ended ended).2 fingerprint (contains_iff.mpr ⟨node, found⟩))
  obtain ⟨twin, foundTwin, named, given⟩ := gives record known
  obtain rfl : node = twin := Option.some.inj (found.symm.trans foundTwin)
  obtain ⟨name, status⟩ := record
  obtain rfl : name = node.name := named
  rcases given with rfl | ⟨error, rfl, handed⟩
  · refine Or.inl ⟨known, fun input uses error failed => ?_⟩
    -- a failure of an input would have been one of the derivation
    obtain ⟨cause, name, failed⟩ := books.spread input error failed fingerprint (books.graph.mem_dependents.mpr uses)
    cases known.symm.trans failed
  · exact Or.inr ⟨error, known, handed⟩

end Request
end Pkgset

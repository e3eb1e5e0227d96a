import Pkgset.Proofs.Build.Exclusion
import Pkgset.Proofs.Build.Outcome

/-!
# What failures come from

A derivation fails by itself, with an error that its own job makes or that the runner
replied, or because of a direct input, and then with the very error that is recorded for
that input. So the causes of an error lead along the inputs to a derivation that failed
by itself.
-/

namespace Pkgset
open BuildReport BuildGraph

/-- The errors that the job of a derivation makes of its own. -/
inductive BuildError.OfJob (node : Derivation) : BuildError → Prop
  | phaseFailure (phase : PhaseName) (code : Option Int) : OfJob node (.phaseFailure node.name phase code)
  | crashed : OfJob node (.crashed node.name)
  | store (path message : String) : OfJob node (.store path message)
  | cancelled : OfJob node (.cancelled node.name)

/-- What was not handed down is its own root cause. -/
theorem BuildError.rootCause_eq {error : BuildError} (root : error.depth = 0) : error.rootCause = error := by
  cases error <;> first | rfl | cases root

theorem BuildError.OfJob.depth_eq {node : Derivation} {error : BuildError} (made : error.OfJob node) : error.depth = 0 := by
  cases made <;> rfl

/-! ### Errors of jobs -/

namespace Store

theorem makeAll_error : ∀ (paths : List String) {disk : Disk} {error : BuildError},
    (makeAll paths disk).2 = .error error → ∃ path message, error = .store path message
  | [], _, _, made => by cases made
  | path :: rest, disk, error, made => by
    rw [makeAll] at made
    split at made
    next => exact makeAll_error rest made
    next refusal _ => cases made; exact ⟨path, refusal.message, rfl⟩

/-- An entry that cannot be made is an error of the store. -/
theorem prepare_error {store : Store} {disk : Disk} {node : Derivation} {error : BuildError}
    (prepared : (store.prepare disk node).2 = .error error) : ∃ path message, error = .store path message := by
  unfold prepare at prepared
  dsimp only at prepared
  split at prepared
  next refusal _ => cases prepared; exact ⟨_, refusal.message, rfl⟩
  next =>
    cases made : (makeAll (Dict.values (store.outputsFor node).paths ++
        scratch.map (Path.join (store.outputsFor node).storePath)) _).2 with
    | error other =>
      rw [made] at prepared
      cases prepared
      exact makeAll_error _ made
    | ok _ =>
      rw [made] at prepared
      cases prepared

/-- An entry that cannot be completed is an error of the store. -/
theorem commit_error {disk : Disk} {node : Derivation} {outputs : Outputs} {error : BuildError}
    (committed : (commit disk node outputs).2 = .error error) : ∃ path message, error = .store path message := by
  unfold commit at committed
  dsimp only at committed
  split at committed
  next refusal _ => cases committed; exact ⟨_, refusal.message, rfl⟩
  next =>
    split at committed
    next => cases committed
    next refusal _ => cases committed; exact ⟨_, refusal.message, rfl⟩

end Store

namespace Workshop
variable {workshop : Workshop} {id : RequestId} {request : Request} {job : Job} {error : BuildError}

/-- A job that ends with an error as it moves made the error of its own. -/
theorem advance_error (failed : (workshop.advance id request job).2.place = .finished (.error error)) :
    error.OfJob job.derivation ∨ job.place = .finished (.error error) := by
  revert failed
  fun_cases Workshop.advance workshop id request job with
  | case1 waits =>
    intro failed
    cases failed
    exact Or.inl .cancelled
  | case6 waits place halted =>
    intro failed
    cases failed
    exact Or.inl .cancelled
  | case10 waits place =>
    unfold Workshop.prepare
    split
    next =>
      intro failed
      cases failed
    next disk refusal prepared =>
      intro failed
      cases failed
      obtain ⟨path, message, rfl⟩ := Store.prepare_error (congrArg Prod.snd prepared)
      exact Or.inl (.store path message)
  | case11 waits outputs rest place =>
    fun_cases Job.proceed workshop.config job outputs rest <;>
      · intro failed
        cases failed
  | case14 waits outputs place =>
    unfold Workshop.commit
    split
    next =>
      intro failed
      cases failed
    next disk refusal committed =>
      intro failed
      cases failed
      obtain ⟨path, message, rfl⟩ := Store.commit_error (congrArg Prod.snd committed)
      exact Or.inl (.store path message)
  | _ =>
    first
    | exact Or.inr
    | intro failed
      cases failed

/-- A job that a reply ends with an error made it of its own, or the reply is that error. -/
theorem replied_error {config : BuildConfig} {outputs : Outputs} {attempt : Attempt} {rest : List Phase} {reply : Reply}
    (failed : (replied config job outputs attempt rest reply).place = .finished (.error error)) :
    error.OfJob job.derivation ∨ reply = .error error := by
  cases reply with
  | exit status =>
    revert failed
    simp only [replied, Job.exited]
    split
    · intro failed
      cases failed
    · split
      · intro failed
        cases failed
      · intro failed
        cases failed
        exact Or.inl (.phaseFailure ..)
  | error other =>
    cases failed
    exact Or.inr rfl
  | crash =>
    cases failed
    exact Or.inl .crashed

end Workshop

/-! ### Errors of requests -/

namespace Request
variable {config : BuildConfig} {request next : Request} {own other : Derivation → BuildError → Prop}

/-- A failure that is recorded is one that the derivation may have by itself, or it is
    handed down by an input. -/
def Explains (own : Derivation → BuildError → Prop) (graph : BuildGraph) (report : BuildReport) (node : Derivation)
    (error : BuildError) : Prop :=
  own node error ∨ HandedDown graph report node error

/-- What the jobs and records of a request have failed with. -/
structure Blames (request : Request) (own : Derivation → BuildError → Prop) : Prop where
  jobs : ∀ job ∈ request.jobs, ∀ error, job.place = .finished (.error error) → own job.derivation error
  records : ∀ node error, request.graph.find? node.fingerprint = some node →
    request.report.Failed node.fingerprint error → Explains own request.graph request.report node error

theorem Blames.mono (blames : request.Blames own) (weaker : ∀ node error, own node error → other node error) :
    request.Blames other :=
  ⟨fun job member error failed => weaker _ _ (blames.jobs job member error failed),
    fun node error found failed => (blames.records node error found failed).imp_left (weaker node error)⟩

/-- What was recorded stays explained, so only what is new has to be. -/
theorem Blames.onwards (blames : request.Blames own) (continues : request.Continues next)
    (jobs : ∀ job ∈ next.jobs, ∀ error, job.place = .finished (.error error) → own job.derivation error)
    (new : ∀ node error, request.graph.find? node.fingerprint = some node → next.report.Failed node.fingerprint error →
      request.report.has node.fingerprint = false → Explains own request.graph next.report node error) :
    next.Blames own := by
  refine ⟨jobs, fun node error found failed => ?_⟩
  rw [continues.graph] at found ⊢
  cases recorded : request.report.has node.fingerprint with
  | false => exact new node error found failed recorded
  | true =>
    obtain ⟨record, known⟩ := has_iff.mp recorded
    obtain ⟨name, failed⟩ := failed
    obtain rfl := Option.some.inj ((continues.grows _ _ known).symm.trans failed)
    exact (blames.records node error found ⟨name, known⟩).imp_right (HandedDown.mono continues.grows)

/-- A status that is no failure is recorded. -/
theorem failed_record {derivation : Derivation} {status : BuildStatus} {fingerprint : Fingerprint} {error : BuildError}
    (other : ∀ error, status ≠ .failed error) (failed : (request.record derivation status).report.Failed fingerprint error) :
    request.report.Failed fingerprint error := by
  obtain ⟨name, known⟩ := failed
  simp only [Request.record, get?_insert] at known
  split at known
  next =>
    cases known
    exact absurd rfl (other error)
  next => exact ⟨name, known⟩

theorem failed_succeed {derivation : Derivation} {realized : Realized} {fingerprint : Fingerprint} {error : BuildError}
    (failed : (request.succeed derivation realized).report.Failed fingerprint error) :
    request.report.Failed fingerprint error := by
  obtain ⟨waiting, ready, shape⟩ := succeed_eq request derivation realized
  rw [shape] at failed
  exact failed_record (by simp) failed

/-- A failure floods the derivations that depend on it. -/
theorem failed_fail (closed : request.graph.Closed) {derivation node : Derivation} {cause error : BuildError}
    (found : request.graph.find? node.fingerprint = some node)
    (known : request.graph.find? derivation.fingerprint = some derivation)
    (fresh : request.report.has node.fingerprint = false) (owns : own derivation cause)
    (failed : (request.fail derivation cause).report.Failed node.fingerprint error) :
    Explains own request.graph (request.fail derivation cause).report node error := by
  obtain ⟨name, recorded⟩ := failed
  have flood := failAll_flood closed request.report [(derivation.fingerprint, cause)]
  obtain ⟨twin, error', foundTwin, shape, listed | handed⟩ := flood.origin _ _ recorded fresh
  all_goals
    obtain rfl : node = twin := Option.some.inj (found.symm.trans foundTwin)
    cases shape
  · obtain ⟨same, rfl⟩ := Prod.mk.inj (List.mem_singleton.mp listed)
    rw [same, known] at found
    obtain rfl := Option.some.inj found
    exact Or.inl owns
  · exact Or.inr handed

theorem failed_conclude (closed : request.graph.Closed) {derivation node : Derivation} {result : JobResult}
    {error : BuildError} (found : request.graph.find? node.fingerprint = some node)
    (known : request.graph.find? derivation.fingerprint = some derivation)
    (fresh : request.report.has node.fingerprint = false) (owns : ∀ cause, result = .error cause → own derivation cause)
    (failed : (request.conclude config derivation result).report.Failed node.fingerprint error) :
    Explains own request.graph (request.conclude config derivation result).report node error := by
  have unrecorded (failed : request.report.Failed node.fingerprint error) : False := by
    simpa [fresh] using failed.has
  revert failed
  fun_cases Request.conclude config request derivation result with
  | case1 realized => exact fun failed => absurd (failed_succeed failed) unrecorded
  | case2 name => exact fun failed => absurd (failed_record (by simp) failed) unrecorded
  | case3 cause other failure keepsGoing => exact failed_fail closed found known fresh (owns cause rfl)
  | case4 cause other failure stops => exact failed_fail closed found known fresh (owns cause rfl)

theorem Blames.visit (blames : request.Blames own) (books : request.Books []) (visits : request.visit = some next) :
    next.Blames own := by
  have continues := (books.visit visits).2
  obtain ⟨_, _, _, _, _, _, ⟨_, rfl⟩ | ⟨_, rfl⟩⟩ := visit_cases books visits
  · refine blames.onwards continues blames.jobs fun node error _ failed fresh => ?_
    have old : request.report.Failed node.fingerprint error := failed_record (by simp) failed
    exact absurd old.has (by simp [fresh])
  · exact ⟨blames.jobs, blames.records⟩

theorem Blames.looked {derivation : Derivation} (blames : request.Blames own) (books : request.Books [])
    (looking : request.looking = some derivation) (found : Option Outputs) :
    (request.looked derivation found).Blames own := by
  have continues := (books.looked looking found).2
  cases found with
  | some outputs =>
    refine blames.onwards continues ?_ fun node error _ failed fresh => ?_
    · obtain ⟨waiting, ready, shape⟩ := succeed_eq { request with looking := none } derivation ⟨outputs, true⟩
      rw [Request.looked, shape]
      exact blames.jobs
    · have old : { request with looking := none }.report.Failed node.fingerprint error := failed_succeed failed
      exact absurd old.has (by simp [fresh])
  | none =>
    refine ⟨fun job member error failed => ?_, blames.records⟩
    rcases List.mem_append.mp member with old | new
    · exact blames.jobs job old error failed
    · obtain rfl := List.mem_singleton.mp new
      cases failed

theorem Blames.updateJob {moved : Job} (blames : request.Blames own) (fingerprint : Fingerprint) (cancelled : Bool)
    (owns : ∀ error, moved.place = .finished (.error error) → own moved.derivation error) :
    ({ request with cancelled }.updateJob fingerprint fun _ => moved).Blames own := by
  refine ⟨fun other member error failed => ?_, blames.records⟩
  obtain ⟨before, within, shape⟩ := List.mem_map.mp member
  split at shape
  · obtain rfl : moved = other := shape
    exact owns error failed
  · obtain rfl : before = other := shape
    exact blames.jobs before within error failed

theorem Blames.join {fingerprint : Fingerprint} (blames : request.Blames own) (books : request.Books [])
    (joins : request.join config fingerprint = some next) : next.Blames own := by
  have continues := (books.join joins).2
  obtain ⟨job, result, _, _, member, rfl, place, rfl⟩ := join_cases joins
  refine blames.onwards continues (fun other within error failed => ?_) fun node error found failed fresh => ?_
  · rw [Workshop.jobs_conclude] at within
    exact blames.jobs other (List.mem_of_mem_filter within) error failed
  · have owns : ∀ cause, result = .error cause → own job.derivation cause := by
      rintro cause rfl
      exact blames.jobs job member cause place
    let rest : Request := { request with jobs := request.jobs.filter (·.fingerprint ≠ job.fingerprint) }
    have closed : rest.graph.Closed := books.graph
    exact failed_conclude closed found (books.jobs job member).1 fresh owns failed

theorem Blames.close (blames : request.Blames own) (books : request.Books []) (closes : request.close = some next) :
    next.Blames own := by
  have continues := (books.close closes).2
  refine blames.onwards continues ?_ fun node error _ failed fresh => ?_
  · obtain ⟨_, _, later, rfl, _⟩ := Books.close_cases closes
    exact blames.jobs
  · obtain ⟨name, known⟩ := failed
    rcases Books.recorded_of_close closes known with old | ⟨_, _, shape⟩
    · simp [has, old] at fresh
    · cases shape

theorem Opens.blames {roots : List Derivation} (opens : request.Opens roots) : request.Blames own := by
  rw [opens.fresh]
  refine ⟨fun job member => absurd member List.not_mem_nil, ?_⟩
  rintro node error _ ⟨name, known⟩
  cases known

end Request

/-! ### Errors of a workshop -/

/-- An error that a derivation of a request may have by itself: its job makes it, or the
    runner replied it to a phase of the derivation. -/
def Arises (events : List Event) (id : RequestId) (node : Derivation) (error : BuildError) : Prop :=
  error.OfJob node ∨ ∃ cancels, .reply id node.fingerprint (.error error) cancels ∈ events

namespace Workshop
open Request

theorem Arises.later {events later : List Event} {id : RequestId} {node : Derivation} {error : BuildError}
    (arises : Arises events id node error) : Arises (events ++ later) id node error :=
  arises.imp_right fun ⟨cancels, replied⟩ => ⟨cancels, List.mem_append_left later replied⟩

/-- The books of all requests agree, and their failures are explained by what happened. -/
structure Explained (workshop : Workshop) (events : List Event) : Prop where
  books : ∀ request ∈ workshop.requests, request.Books []
  blames : ∀ (id : RequestId) request, workshop.requests[id]? = some request → request.Blames (Arises events id)

theorem Undergoes.blames {workshop : Workshop} {events : List Event} {event : Event} {id : RequestId}
    {request request' : Request} (undergoes : workshop.Undergoes id request event request') (books : request.Books [])
    (blames : request.Blames (Arises (events ++ [event]) id)) : request'.Blames (Arises (events ++ [event]) id) := by
  cases undergoes with
  | visit visits => exact blames.visit books visits
  | look looking => exact blames.looked books looking _
  | @advance job member =>
    refine blames.updateJob job.fingerprint request.cancelled fun error failed => ?_
    rw [(advance_frame workshop id request job).derivation]
    rcases advance_error failed with made | before
    · exact Or.inl made
    · exact blames.jobs job (List.mem_of_find?_eq_some member) error before
  | @reply job outputs attempt rest reply cancels member running open' =>
    refine blames.updateJob job.fingerprint cancels fun error failed => ?_
    rw [(replied_frame workshop.config job outputs attempt rest reply).1]
    rcases replied_error failed with made | rfl
    · exact Or.inl made
    · exact Or.inr ⟨cancels, by simp [Job.fingerprint]⟩
  | join joins => exact blames.join books joins
  | close closes => exact blames.close books closes
  | cancel => exact ⟨blames.jobs, blames.records⟩

theorem Explained.step {workshop next : Workshop} {events : List Event} {event : Event}
    (explained : workshop.Explained events) (serves : workshop.Serves event next) :
    next.Explained (events ++ [event]) := by
  refine ⟨(serves.turn.books explained.books).1, fun id request at' => ?_⟩
  rcases serves.origin at' with ⟨roots, opens⟩ | ⟨before, was, same⟩
  · exact opens.blames
  · have blames : before.Blames (Arises (events ++ [event]) id) :=
      (explained.blames id before was).mono fun _ _ => Arises.later
    rcases same with rfl | undergoes
    · exact blames
    · exact undergoes.blames (explained.books before (List.mem_of_getElem? was)) blames

theorem Explained.run {workshop after : Workshop} {before events : List Event} (explained : workshop.Explained before)
    (ran : workshop.run events = some after) : after.Explained (before ++ events) := by
  induction events generalizing workshop before with
  | nil =>
    cases ran
    rwa [List.append_nil]
  | cons event rest ih =>
    obtain ⟨next, steps, onwards⟩ := run_cons ran
    have onwards := ih (explained.step (step_serves steps)) onwards
    rwa [List.append_assoc, List.singleton_append] at onwards

theorem Explained.start {workshop : Workshop} (opens : ∀ request ∈ workshop.requests, ∃ roots, request.Opens roots) :
    workshop.Explained [] := by
  refine ⟨fun request member => ?_, fun id request at' => ?_⟩
  · obtain ⟨roots, opens⟩ := opens request member
    exact opens.books
  · obtain ⟨roots, opens⟩ := opens request (List.mem_of_getElem? at')
    exact opens.blames

end Workshop

/-! ### Trails of causes -/

namespace Request
variable {graph : BuildGraph} {report : BuildReport} {error : BuildError} {path : List Derivation}

/-- The causes of an error lead from a derivation to one that failed by itself: each
    derivation on the way has its error from the next one, which is a direct input. -/
inductive Trail (graph : BuildGraph) (report : BuildReport) : BuildError → List Derivation → Prop
  | itself {node : Derivation} {error : BuildError} (found : graph.find? node.fingerprint = some node)
    (failed : report.get? node.fingerprint = some ⟨node.name, .failed error⟩) (root : error.depth = 0) :
    Trail graph report error [node]
  | handed {node input : Derivation} {cause : BuildError} {path : List Derivation}
    (found : graph.find? node.fingerprint = some node)
    (failed : report.get? node.fingerprint = some ⟨node.name, .failed (.dependencyFailed node.name input.name cause)⟩)
    (uses : graph.Uses node.fingerprint input.fingerprint) (rest : Trail graph report cause (input :: path)) :
    Trail graph report (.dependencyFailed node.name input.name cause) (node :: input :: path)

namespace Trail

theorem length_eq (trail : Trail graph report error path) : path.length = error.depth + 1 := by
  induction trail with
  | itself found failed root => rw [root]; rfl
  | handed found failed uses rest ih => rw [List.length_cons, ih, BuildError.depth]

theorem isChain (trail : Trail graph report error path) :
    path.IsChain fun node input => graph.Uses node.fingerprint input.fingerprint := by
  induction trail with
  | itself found failed root => exact .singleton _
  | handed found failed uses rest ih => exact .cons_cons uses ih

/-- The chain of an error has the names along its trail, but for the last, which is as the
    root cause names it. -/
theorem chain_eq (trail : Trail graph report error path) :
    error.chain = path.dropLast.map (·.name) ++ error.rootCause.derivation?.toList := by
  induction trail with
  | @itself node error found failed root =>
    rw [BuildError.rootCause_eq root]
    cases error <;> first | rfl | cases root
  | handed found failed uses rest ih =>
    rw [BuildError.chain, ih, BuildError.rootCause, List.dropLast_cons_cons, List.map_cons, List.cons_append]

/-- A trail ends at a derivation with the root cause as its own error. -/
theorem exists_root (trail : Trail graph report error path) :
    ∃ before root, path = before ++ [root] ∧ graph.find? root.fingerprint = some root ∧
      report.get? root.fingerprint = some ⟨root.name, .failed error.rootCause⟩ ∧ error.rootCause.depth = 0 := by
  induction trail with
  | @itself node error found failed root =>
    refine ⟨[], node, rfl, found, ?_⟩
    rw [BuildError.rootCause_eq root]
    exact ⟨failed, root⟩
  | @handed node input cause path found failed uses rest ih =>
    obtain ⟨before, root, shape, ending⟩ := ih
    exact ⟨node :: before, root, by rw [shape, List.cons_append], ending⟩

end Trail

/-- A failure that is explained, as are all others, has a trail. -/
theorem exists_trail (named : ∀ fingerprint record, report.get? fingerprint = some record →
      ∃ node, graph.find? fingerprint = some node ∧ record.name = node.name)
    (explained : ∀ node error, graph.find? node.fingerprint = some node → report.Failed node.fingerprint error →
      Explains (fun _ error => error.depth = 0) graph report node error) (error : BuildError) :
    ∀ {node : Derivation}, graph.find? node.fingerprint = some node → report.Failed node.fingerprint error →
      ∃ path, Trail graph report error (node :: path) := by
  have recorded {node : Derivation} {error : BuildError} (found : graph.find? node.fingerprint = some node)
      (failed : report.Failed node.fingerprint error) :
      report.get? node.fingerprint = some ⟨node.name, .failed error⟩ := by
    obtain ⟨name, known⟩ := failed
    obtain ⟨twin, foundTwin, rfl⟩ := named _ _ known
    obtain rfl := Option.some.inj (found.symm.trans foundTwin)
    exact known
  -- The cause of an error is a part of it.
  induction error with
  | dependencyFailed name dependency cause ih =>
    intro node found failed
    rcases explained node _ found failed with root | ⟨input, cause', uses, known, shape, inputFailed⟩
    · cases root
    · cases shape
      obtain ⟨path, trail⟩ := ih known ⟨_, inputFailed⟩
      exact ⟨input :: path, .handed found (recorded found failed) uses trail⟩
  | _ =>
    intro node found failed
    exact ⟨[], .itself found (recorded found failed) rfl⟩

end Request

/-! ### A build with a failure, at its end -/

namespace Errand

/-- What is reported once an input cannot be made. -/
def setbacks (error : BuildError) : BuildReport :=
  ((midway none []).report.insert lib.fingerprint ⟨lib.name, .failed error⟩).insert app.fingerprint
    ⟨app.name, .failed (.dependencyFailed app.name lib.name error)⟩

theorem failAll_lib (error : BuildError) :
    Request.failAll asked.graph (midway none []).report [(lib.fingerprint, error)] = setbacks error := by
  have first : asked.graph.find? lib.fingerprint = some lib := rfl
  have second : asked.graph.find? app.fingerprint = some app := rfl
  rw [Request.failAll_of_fresh rfl first]
  change Request.failAll _ _ [(app.fingerprint, .dependencyFailed app.name lib.name error)] = _
  rw [Request.failAll_of_fresh rfl second]
  change Request.failAll _ _ [] = _
  rw [Request.failAll]
  rfl

/-- The request at its end: all have records, so none was left over. -/
def ended (error : BuildError) : Request := { midway none [] with report := setbacks error, closed := true }

theorem closed_eq (error : BuildError) : closed error = ended error := by
  have fails : (midway none []).fail lib error = { midway none [] with report := setbacks error } := by
    rw [Request.fail, ← failAll_lib]
    rfl
  rw [closed, fails]
  rfl

theorem run_course : ∃ place message,
    (shop [tool] asked).run course = some (shop [tool] (ended (.store place message))) := by
  obtain ⟨place, message, _, ran⟩ := runs_course
  exact ⟨place, message, closed_eq _ ▸ ran⟩

theorem opens_shop : ∀ request ∈ (shop [tool] asked).requests, ∃ roots, request.Opens roots :=
  fun _ member => ⟨[app], List.mem_singleton.mp member ▸ opens_asked⟩

/-- The application is reported to have failed because of its input. -/
theorem failed_app (error : BuildError) :
    (ended error).report.Failed app.fingerprint (.dependencyFailed app.name lib.name error) := ⟨app.name, rfl⟩

end Errand

namespace Workshop
open Request

/-- If the errors of the runner name the derivation whose phase it could not run, the chain
    of an error lists the names along its trail, from the derivation that is reported with it
    to the one that failed by itself; if the store refused, the last name is missing, since
    errors of the store name none. -/
theorem run_chains {workshop after : Workshop} {events : List Event}
    (opens : ∀ request ∈ workshop.requests, ∃ roots, request.Opens roots) (ran : workshop.run events = some after)
    {id : RequestId} {request : Request} (at' : after.requests[id]? = some request)
    (replies : ∀ node error cancels, request.graph.find? node.fingerprint = some node →
      .reply id node.fingerprint (.error error) cancels ∈ events → error.depth = 0 ∧ error.derivation? = some node.name)
    {fingerprint : Fingerprint} {error : BuildError} (failed : request.report.Failed fingerprint error) :
    ∃ (node root : Derivation) (path : List Derivation), request.graph.find? fingerprint = some node ∧
      path.head? = some node ∧ path.getLast? = some root ∧ path.length = error.depth + 1 ∧
      (path.IsChain fun node input => request.graph.Uses node.fingerprint input.fingerprint) ∧
      request.report.get? root.fingerprint = some ⟨root.name, .failed error.rootCause⟩ ∧
      ((∀ place message, error.rootCause ≠ .store place message) → error.chain = path.map (·.name)) ∧
      ∀ place message, error.rootCause = .store place message → error.chain = path.dropLast.map (·.name) := by
  have explained := (Explained.start opens).run ran
  rw [List.nil_append] at explained
  have books := explained.books request (List.mem_of_getElem? at')
  have blames := explained.blames id request at'
  have bare (node : Derivation) (error : BuildError) (found : request.graph.find? node.fingerprint = some node)
      (failed : request.report.Failed node.fingerprint error) :
      Explains (fun _ error => error.depth = 0) request.graph request.report node error :=
    (blames.records node error found failed).imp_left fun arises =>
      arises.elim BuildError.OfJob.depth_eq fun ⟨cancels, replied⟩ => (replies node error cancels found replied).1
  obtain ⟨name, known⟩ := failed
  obtain ⟨node, found, rfl⟩ := books.named _ _ known
  obtain rfl := (find?_some found).2
  obtain ⟨rest, trail⟩ := exists_trail books.named bare error found ⟨_, known⟩
  obtain ⟨before, root, shape, foundRoot, rootFailed, rootBare⟩ := trail.exists_root
  have dropLast : (node :: rest).dropLast = before := by rw [shape, List.dropLast_concat]
  have chain := trail.chain_eq
  rw [dropLast] at chain
  -- Only the store makes errors that do not name the derivation.
  have named : error.rootCause.derivation? = some root.name ∨ ∃ place message, error.rootCause = .store place message := by
    rcases blames.records root _ foundRoot ⟨_, rootFailed⟩ with (made | ⟨cancels, replied⟩) | ⟨input, cause, _, _, handed, _⟩
    · generalize error.rootCause = cause at made ⊢
      cases made with
      | store place message => exact Or.inr ⟨place, message, rfl⟩
      | _ => exact Or.inl rfl
    · exact Or.inl (replies root _ cancels foundRoot replied).2
    · rw [handed] at rootBare
      cases rootBare
  refine ⟨node, root, node :: rest, found, rfl, by simp [shape], trail.length_eq, trail.isChain, rootFailed, ?_, ?_⟩
  · intro other
    obtain here | ⟨place, message, refused⟩ := named
    · rw [chain, here, shape, List.map_append]
      rfl
    · exact absurd refused (other place message)
  · intro place message refused
    rw [chain, refused, dropLast]
    exact List.append_nil _

open Errand in
/-- The store refuses the entry of an input: the chain of the application's error does not
    get to the input that failed. -/
theorem chain_misses_root : ∃ (after : Workshop) (request : Request) (error : BuildError),
    (shop [tool] asked).run course = some after ∧ after.requests[0]? = some request ∧
      request.report.Failed app.fingerprint error ∧ request.report.Failed lib.fingerprint error.rootCause ∧
      error.depth = 1 ∧ error.chain = [app.name] := by
  obtain ⟨place, message, ran⟩ := run_course
  exact ⟨_, _, _, ran, rfl, failed_app _, ⟨lib.name, rfl⟩, rfl, rfl⟩

open Errand in
/-- The trail of that error has both derivations, its chain one name. -/
theorem run_chains_errand : ∃ (after : Workshop) (request : Request) (error : BuildError) (path : List Derivation),
    (shop [tool] asked).run course = some after ∧ after.requests[0]? = some request ∧
      request.report.Failed app.fingerprint error ∧ path.length = 2 ∧ path.head? = some app ∧
      error.chain = path.dropLast.map (·.name) := by
  obtain ⟨place, message, ran⟩ := run_course
  have at' : (shop [tool] (ended (.store place message))).requests[0]? = some (ended (.store place message)) := rfl
  have silent : ∀ (node : Derivation) error cancels, (ended (.store place message)).graph.find? node.fingerprint = some node →
      Event.reply 0 node.fingerprint (.error error) cancels ∈ course →
        error.depth = 0 ∧ error.derivation? = some node.name := by simp [course, work]
  obtain ⟨node, root, path, found, head, _, length, _, _, _, refused⟩ := run_chains opens_shop ran at' silent (failed_app _)
  obtain rfl : app = node := Option.some.inj found
  exact ⟨_, _, _, path, ran, at', failed_app _, length, head, refused place message rfl⟩

end Workshop
end Pkgset

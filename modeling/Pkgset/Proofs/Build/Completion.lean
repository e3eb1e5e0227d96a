import Pkgset.Proofs.Build.Exclusion
import Pkgset.Proofs.Text.Dict
import Mathlib.Algebra.GroupWithZero.Nat
import Mathlib.Algebra.Order.BigOperators.Group.List
import Mathlib.Algebra.Order.Group.Nat

/-!
# The end of a request

A request looks after its derivations one at a time: each is ready, then looked for, then
perhaps in a job, and then recorded. What is left to do gets less with everything that the
request does, and nothing else adds to it. So if jobs end and the request is attended to,
the request ends, and then there is one record for each derivation.
-/

namespace Pkgset
open BuildReport BuildGraph

namespace Request
variable {config : BuildConfig} {request next : Request} {fingerprint : Fingerprint}

/-! ### Records are listed once -/

private theorem ascending_succeed {derivation : Derivation} {realized : Realized}
    (ascends : request.report.records.Ascending) :
    (request.succeed derivation realized).report.records.Ascending := by
  obtain ⟨waiting, ready, shape⟩ := succeed_eq request derivation realized
  rw [shape]
  exact ascends.insert _ _

private theorem ascending_failAll (graph : BuildGraph) {report : BuildReport} {stack : List (Fingerprint × BuildError)}
    (ascends : report.records.Ascending) : (failAll graph report stack).records.Ascending := by
  fun_induction failAll graph report stack with
  | case1 report => exact ascends
  | case2 report fingerprint error rest recorded ih => exact ih ascends
  | case3 report fingerprint error rest unrecorded missing ih => exact ih ascends
  | case4 report fingerprint error rest unrecorded derivation found ih => exact ih (ascends.insert _ _)

private theorem ascending_conclude {derivation : Derivation} {result : JobResult}
    (ascends : request.report.records.Ascending) :
    (request.conclude config derivation result).report.records.Ascending := by
  fun_cases Request.conclude config request derivation result with
  | case1 realized => exact ascending_succeed ascends
  | case2 name => exact ascends.insert _ _
  | case3 error other failed keepsGoing => exact ascending_failAll _ ascends
  | case4 error other failed stops => exact ascending_failAll _ ascends

private theorem ascending_cancelLeftovers (ascends : request.report.records.Ascending) :
    request.cancelLeftovers.report.records.Ascending := by
  unfold Request.cancelLeftovers
  generalize request.order = order
  induction order generalizing request with
  | nil => exact ascends
  | cons first rest ih =>
    rw [List.foldl_cons]
    apply ih
    split
    · exact ascends
    · split
      · exact ascends.insert _ _
      · exact ascends

/-- No move lists a record twice. -/
theorem Moves.ascending {scheduled : Option (Derivation × List Outputs)} (books : request.Books [])
    (moves : request.Moves config scheduled next) (ascends : request.report.records.Ascending) :
    next.report.records.Ascending := by
  cases moves with
  | visit visits =>
    obtain ⟨_, _, _, _, _, _, ⟨_, rfl⟩ | ⟨_, rfl⟩⟩ := visit_cases books visits
    · exact ascends.insert _ _
    · exact ascends
  | look looking outputs => exact ascending_succeed ascends
  | schedule looking => exact ascends
  | job member moved derivation inputs cancelled => exact ascends
  | join joins =>
    obtain ⟨job, result, _, _, _, _, _, rfl⟩ := join_cases joins
    exact ascending_conclude ascends
  | close closes =>
    unfold Request.close at closes
    split at closes
    · split at closes
      · cases closes
      · cases closes
        exact ascending_cancelLeftovers ascends
    · cases closes
  | cancel => exact ascends

/-! ### What is left to do -/

/-- How many more times a request turns to a derivation: to take it, to look for its
    outputs, and to collect its job. -/
def left (request : Request) (fingerprint : Fingerprint) : Nat :=
  if request.report.has fingerprint then 0
  else if fingerprint ∈ request.jobs.map Job.fingerprint then 1
  else if fingerprint ∈ request.looking.toList.map (·.fingerprint) then 2
  else 3

/-- What is left to do: with every derivation, and at the end. -/
def remaining (request : Request) : Nat :=
  (request.graph.nodes.map fun node => request.left node.fingerprint).sum + if request.closed then 0 else 1

theorem left_of_has (recorded : request.report.has fingerprint = true) : request.left fingerprint = 0 := by
  simp [left, recorded]

theorem left_le_one (member : fingerprint ∈ request.jobs.map Job.fingerprint) : request.left fingerprint ≤ 1 := by
  simp only [left, member, ↓reduceIte]
  split <;> omega

theorem left_le_two {derivation : Derivation} (looking : request.looking = some derivation) :
    request.left derivation.fingerprint ≤ 2 := by
  simp only [left, looking, Option.toList_some, List.map_cons, List.mem_cons, true_or, ↓reduceIte]
  split
  · omega
  · split <;> omega

theorem left_le_three (request : Request) (fingerprint : Fingerprint) : request.left fingerprint ≤ 3 := by
  unfold left
  split
  · omega
  · split
    · omega
    · split <;> omega

namespace Books

theorem left_ready (books : request.Books []) (member : fingerprint ∈ request.ready) : request.left fingerprint = 3 := by
  have once := books.once
  simp only [placed, List.nil_append] at once
  have apart := (List.nodup_append.mp once).2.2 fingerprint member
  have unrecorded := books.unrecorded fingerprint (by simp [placed, member])
  have noJob : fingerprint ∉ request.jobs.map Job.fingerprint := fun job =>
    apart fingerprint (List.mem_append_right _ job) rfl
  have notLooked : fingerprint ∉ request.looking.toList.map (·.fingerprint) := fun looked =>
    apart fingerprint (List.mem_append_left _ looked) rfl
  simp [left, unrecorded, noJob, notLooked]

theorem left_looking (books : request.Books []) {derivation : Derivation} (looking : request.looking = some derivation) :
    request.left derivation.fingerprint = 2 := by
  have once := books.once
  simp only [placed, looking, List.nil_append] at once
  have apart := (List.nodup_append.mp (List.nodup_append.mp once).2.1).2.2 derivation.fingerprint (by simp)
  have unrecorded := books.unrecorded derivation.fingerprint (by simp [placed, looking])
  have noJob : derivation.fingerprint ∉ request.jobs.map Job.fingerprint := fun job => apart _ job rfl
  simp [left, unrecorded, noJob, looking]

theorem left_job (books : request.Books []) (member : fingerprint ∈ request.jobs.map Job.fingerprint) :
    request.left fingerprint = 1 := by
  have unrecorded := books.unrecorded fingerprint (by simp [placed, member])
  simp [left, unrecorded, member]

end Books

/-- What goes on has no more left to do with any derivation, if it has come further with
    the one that was looked for. -/
theorem Continues.left_le (continues : request.Continues next)
    (looked : ∀ derivation, request.looking = some derivation → next.left derivation.fingerprint ≤ 2)
    (fingerprint : Fingerprint) : next.left fingerprint ≤ request.left fingerprint := by
  by_cases recorded : request.report.has fingerprint = true
  · rw [left_of_has (continues.grows.has recorded)]
    exact Nat.zero_le _
  · by_cases job : fingerprint ∈ request.jobs.map Job.fingerprint
    · have one : request.left fingerprint = 1 := by simp [left, recorded, job]
      rw [one]
      rcases continues.jobs fingerprint job with still | done
      · exact left_le_one still
      · exact (left_of_has done).trans_le (Nat.zero_le _)
    · by_cases sought : fingerprint ∈ request.looking.toList.map (·.fingerprint)
      · have two : request.left fingerprint = 2 := by simp [left, recorded, job, sought]
        rw [two]
        obtain ⟨derivation, looking, rfl⟩ := List.mem_map.mp sought
        exact looked derivation (Option.mem_toList.mp looking)
      · have three : request.left fingerprint = 3 := by simp [left, recorded, job, sought]
        rw [three]
        exact left_le_three next fingerprint

/-- To come further with one derivation leaves less to do. -/
theorem Continues.remaining_lt (continues : request.Continues next)
    (looked : ∀ derivation, request.looking = some derivation → next.left derivation.fingerprint ≤ 2)
    (closed : next.closed = request.closed) (within : request.graph.contains fingerprint = true)
    (less : next.left fingerprint < request.left fingerprint) : next.remaining < request.remaining := by
  obtain ⟨node, member, rfl⟩ := found_iff.mp within
  have sums : (request.graph.nodes.map fun node => next.left node.fingerprint).sum <
      (request.graph.nodes.map fun node => request.left node.fingerprint).sum :=
    List.sum_lt_sum _ _ (fun other _ => continues.left_le looked other.fingerprint) ⟨node, member, less⟩
  simp only [remaining, continues.graph, closed]
  omega

theorem Books.remaining_visit (books : request.Books []) (visits : request.visit = some next) :
    next.remaining < request.remaining := by
  have continues := (books.visit visits).2
  obtain ⟨fingerprint, rest, derivation, looking, ready, found, ends⟩ := visit_cases books visits
  obtain rfl := (find?_some found).2
  have before : request.left derivation.fingerprint = 3 := books.left_ready (by simp [ready])
  have after : next.left derivation.fingerprint ≤ 2 := by
    rcases ends with ⟨_, rfl⟩ | ⟨_, rfl⟩
    · exact (left_of_has (by simp [Request.record, has_insert])).trans_le (Nat.zero_le _)
    · exact left_le_two rfl
  have closed : next.closed = request.closed := by rcases ends with ⟨_, rfl⟩ | ⟨_, rfl⟩ <;> rfl
  refine continues.remaining_lt ?_ closed (contains_iff.mpr ⟨derivation, found⟩) (by omega)
  intro other looked
  rw [looking] at looked
  cases looked

theorem Books.remaining_looked (books : request.Books []) {derivation : Derivation}
    (looking : request.looking = some derivation) (found : Option Outputs) :
    (request.looked derivation found).remaining < request.remaining := by
  have continues := (books.looked looking found).2
  have before := books.left_looking looking
  have after : (request.looked derivation found).left derivation.fingerprint ≤ 1 := by
    cases found with
    | some outputs => exact (left_of_has (has_succeed _ derivation _)).trans_le (Nat.zero_le _)
    | none => exact left_le_one (by simp [Request.looked, Job.new, Job.fingerprint])
  have closed : (request.looked derivation found).closed = request.closed := by
    cases found with
    | some outputs =>
      obtain ⟨waiting, ready, shape⟩ := succeed_eq { request with looking := none } derivation ⟨outputs, true⟩
      simp only [Request.looked, shape]
      rfl
    | none => rfl
  refine continues.remaining_lt ?_ closed (contains_iff.mpr ⟨derivation, books.looking derivation looking⟩) (by omega)
  intro other looked
  obtain rfl : derivation = other := Option.some.inj (looking.symm.trans looked)
  omega

private theorem closed_conclude (config : BuildConfig) (request : Request) (derivation : Derivation)
    (result : JobResult) : (request.conclude config derivation result).closed = request.closed := by
  fun_cases Request.conclude config request derivation result with
  | case1 realized =>
    obtain ⟨waiting, ready, shape⟩ := succeed_eq request derivation realized
    rw [shape]
    rfl
  | _ => rfl

theorem Books.remaining_join (books : request.Books []) (joins : request.join config fingerprint = some next) :
    next.remaining < request.remaining := by
  have continues := (books.join joins).2
  obtain ⟨job, result, looking, ready, member, rfl, _, rfl⟩ := join_cases joins
  have present : job.fingerprint ∈ request.jobs.map Job.fingerprint := List.mem_map_of_mem member
  have before := books.left_job present
  -- The job is not among those that are left, so what it came to is recorded.
  have after := (continues.jobs _ present).resolve_left (by simp [Workshop.jobs_conclude])
  refine continues.remaining_lt ?_ (closed_conclude ..) (contains_iff.mpr ⟨_, (books.jobs job member).1⟩) ?_
  · intro other looked
    rw [looking] at looked
    cases looked
  · rw [left_of_has after]
    omega

theorem Books.remaining_close (books : request.Books []) (closes : request.close = some next) :
    next.remaining < request.remaining := by
  have continues := (books.close closes).2
  obtain ⟨idle, open', later, rfl, _⟩ := close_cases closes
  have sums : (request.graph.nodes.map fun node =>
        ({ request with report := later, closed := true } : Request).left node.fingerprint).sum ≤
      (request.graph.nodes.map fun node => request.left node.fingerprint).sum := by
    refine List.sum_le_sum fun node _ => continues.left_le (fun other looked => ?_) node.fingerprint
    exact left_le_two looked
  simp only [remaining, open', ↓reduceIte, Bool.false_eq_true]
  omega

/-! ### What is recorded at the end -/

/-- A failure is one of all that depends on it, through whatever is in between. -/
theorem Books.failed_of_uses (books : request.Books []) {dependent : Fingerprint} {error : BuildError}
    (failed : request.report.Failed fingerprint error)
    (path : Relation.TransGen request.graph.Uses dependent fingerprint) : ∃ cause, request.report.Failed dependent cause := by
  induction path using Relation.TransGen.head_induction_on with
  | single uses => exact books.spread _ _ failed _ (books.graph.mem_dependents.mpr uses)
  | head uses _ ih =>
    obtain ⟨cause, failed⟩ := ih
    exact books.spread _ _ failed _ (books.graph.mem_dependents.mpr uses)

/-- At its end, a request lists one record for each of its derivations. -/
theorem Books.keys_perm (books : request.Books []) (ascends : request.report.records.Ascending)
    (ended : request.closed = true) :
    (Dict.keys request.report.records).Perm (request.graph.nodes.map fun node => node.fingerprint.text) := by
  have once : (request.graph.nodes.map fun node => node.fingerprint.text).Nodup := by
    have texts : Function.Injective Fingerprint.text := by
      rintro ⟨text⟩ ⟨text'⟩ same
      exact congrArg Fingerprint.mk same
    simpa [List.map_map, Function.comp_def] using books.graph.distinct.map texts
  refine (List.perm_ext_iff_of_nodup ascends.nodup once).mpr fun text => ?_
  rw [Dict.mem_keys, List.mem_map]
  constructor
  · intro recorded
    obtain ⟨record, known⟩ : ∃ record, request.report.get? ⟨text⟩ = some record := Option.isSome_iff_exists.mp recorded
    obtain ⟨node, found, _⟩ := books.named _ _ known
    obtain ⟨member, same⟩ := find?_some found
    exact ⟨node, member, by rw [same]⟩
  · rintro ⟨node, member, rfl⟩
    exact (books.ended ended).2 node.fingerprint (found_iff.mpr ⟨node, member, rfl⟩)

/-! ### What others do to a request -/

/-- A derivation has no job that is still at work. -/
def Over (request : Request) (fingerprint : Fingerprint) : Prop :=
  ∀ job ∈ request.jobs, job.fingerprint = fingerprint → ∃ result, job.place = .finished result

/-- A request has done nothing itself; some of its jobs may have moved. -/
structure Rests (request next : Request) : Prop where
  graph : next.graph = request.graph
  report : next.report = request.report
  ready : next.ready = request.ready
  looking : next.looking = request.looking
  closed : next.closed = request.closed
  jobs : next.jobs.map Job.fingerprint = request.jobs.map Job.fingerprint
  isOver : ∀ fingerprint, request.Over fingerprint → next.Over fingerprint

namespace Rests

theorem refl (request : Request) : request.Rests request := ⟨rfl, rfl, rfl, rfl, rfl, rfl, fun _ => id⟩

theorem trans {last : Request} (first : request.Rests next) (second : next.Rests last) : request.Rests last where
  graph := second.graph.trans first.graph
  report := second.report.trans first.report
  ready := second.ready.trans first.ready
  looking := second.looking.trans first.looking
  closed := second.closed.trans first.closed
  jobs := second.jobs.trans first.jobs
  isOver := fun fingerprint isOver => second.isOver fingerprint (first.isOver fingerprint isOver)

theorem remaining (rests : request.Rests next) : next.remaining = request.remaining := by
  simp only [Request.remaining, left, rests.graph, rests.report, rests.looking, rests.closed, rests.jobs]

/-- A job moves that stays as it is once it is over. -/
theorem updateJob {job moved : Job} (member : job ∈ request.jobs) (derivation : moved.derivation = job.derivation)
    (stays : ∀ result, job.place = .finished result → moved = job) (cancelled : Bool) :
    request.Rests ({ request with cancelled }.updateJob job.fingerprint fun _ => moved) where
  graph := rfl
  report := rfl
  ready := rfl
  looking := rfl
  closed := rfl
  jobs := fingerprints_updateJob { request with cancelled } derivation
  isOver := by
    intro fingerprint isOver other present same
    obtain ⟨before, within, shape⟩ := List.mem_map.mp present
    by_cases here : before.fingerprint = job.fingerprint
    · simp only [here, ↓reduceIte] at shape
      subst shape
      have same' : job.fingerprint = fingerprint := by rw [← same, Job.fingerprint, Job.fingerprint, derivation]
      obtain ⟨result, ended⟩ := isOver job member same'
      exact ⟨result, by rw [stays result ended, ended]⟩
    · simp only [here, ↓reduceIte] at shape
      subst shape
      exact isOver before within same

end Rests

/-- What can be taken from what is ready is taken. -/
theorem visit_isSome (looking : request.looking = none) (ready : request.ready ≠ []) : request.visit.isSome = true := by
  obtain ⟨first, rest, ready⟩ := List.exists_cons_of_ne_nil ready
  simp only [Request.visit, looking, ready]
  split
  · rfl
  · split
    · rfl
    · split <;> rfl

/-- A job that is over is collected when there is nothing else to do. -/
theorem join_isSome (config : BuildConfig) (looking : request.looking = none) (ready : request.ready = [])
    (member : fingerprint ∈ request.jobs.map Job.fingerprint) (isOver : request.Over fingerprint) :
    (request.join config fingerprint).isSome = true := by
  obtain ⟨job, present, same⟩ := List.mem_map.mp member
  obtain ⟨found, known⟩ : ∃ found, request.jobs.find? (·.fingerprint = fingerprint) = some found := by
    apply Option.isSome_iff_exists.mp
    rw [List.find?_isSome]
    exact ⟨job, present, by simpa using same⟩
  obtain ⟨result, place⟩ := isOver found (List.mem_of_find?_eq_some known) (by simpa using List.find?_some known)
  simp [Request.join, looking, ready, known, place]

end Request

/-- Whether an event is something that a request does itself. -/
def Event.drives (id : RequestId) : Event → Bool
  | .visit other | .look other | .join other _ | .close other => other = id
  | _ => false

namespace Workshop
variable {workshop next : Workshop} {event : Event} {id : RequestId} {request : Request}

private theorem getElem?_set_of_some {requests : List Request} (at' : requests[id]? = some request) (after : Request) :
    (requests.set id after)[id]? = some after := by
  obtain ⟨inside, _⟩ := List.getElem?_eq_some_iff.mp at'
  simp [inside]

/-- Everything that a request does leaves less for it to do. -/
theorem Serves.remaining_lt (serves : workshop.Serves event next)
    (books : ∀ request ∈ workshop.requests, request.Books []) (drives : event.drives id = true) :
    ∃ request request', workshop.requests[id]? = some request ∧ next.requests[id]? = some request' ∧
      request'.remaining < request.remaining := by
  have booksAt {request : Request} (at' : workshop.requests[id]? = some request) : request.Books [] :=
    books request (List.mem_of_getElem? at')
  cases serves with
  | visit at' visits =>
    obtain rfl := of_decide_eq_true drives
    exact ⟨_, _, at', getElem?_set_of_some at' _, (booksAt at').remaining_visit visits⟩
  | look at' looking =>
    obtain rfl := of_decide_eq_true drives
    exact ⟨_, _, at', getElem?_set_of_some at' _, (booksAt at').remaining_looked looking _⟩
  | join at' joins =>
    obtain rfl := of_decide_eq_true drives
    exact ⟨_, _, at', getElem?_set_of_some at' _, (booksAt at').remaining_join joins⟩
  | close at' closes =>
    obtain rfl := of_decide_eq_true drives
    exact ⟨_, _, at', getElem?_set_of_some at' _, (booksAt at').remaining_close closes⟩
  | _ => cases drives

theorem advance_of_finished (workshop : Workshop) (id : RequestId) (request : Request) {job : Job} {result : JobResult}
    (ended : job.place = .finished result) : workshop.advance id request job = (workshop, job) := by
  simp [advance, ended, JobPlace.heedsCancel]

/-- What a request does not do itself leaves it at rest. -/
theorem Undergoes.rests {request' : Request} (undergoes : workshop.Undergoes id request event request')
    (idle : event.drives id = false) : request.Rests request' := by
  cases undergoes with
  | visit visits => exact absurd rfl (of_decide_eq_false idle)
  | look looking => exact absurd rfl (of_decide_eq_false idle)
  | join joins => exact absurd rfl (of_decide_eq_false idle)
  | close closes => exact absurd rfl (of_decide_eq_false idle)
  | @advance job member =>
    refine .updateJob (List.mem_of_find?_eq_some member) (advance_frame workshop id request job).derivation
      (fun result ended => ?_) request.cancelled
    rw [advance_of_finished workshop id request ended]
  | @reply job outputs attempt rest reply cancels member running open' =>
    refine .updateJob (List.mem_of_find?_eq_some member)
      (replied_frame workshop.config job outputs attempt rest reply).1 (fun result ended => ?_) cancels
    rw [running] at ended
    cases ended
  | cancel => exact ⟨rfl, rfl, rfl, rfl, rfl, rfl, fun _ holds => holds⟩

theorem Serves.rests (serves : workshop.Serves event next) (idle : event.drives id = false)
    (at' : workshop.requests[id]? = some request) :
    ∃ request', next.requests[id]? = some request' ∧ request.Rests request' := by
  obtain ⟨request', atNow, rfl | undergoes⟩ := serves.undergoes at'
  · exact ⟨request', atNow, .refl request'⟩
  · exact ⟨request', atNow, undergoes.rests idle⟩

/-- No event lists a record twice. -/
theorem Turn.ascending {spawn : Option Spawn} (turn : workshop.Turn next spawn)
    (books : ∀ request ∈ workshop.requests, request.Books [])
    (ascends : ∀ request ∈ workshop.requests, request.report.records.Ascending) :
    ∀ request ∈ next.requests, request.report.records.Ascending := by
  have changes {id : RequestId} {before after : Request} {scheduled : Option (Derivation × List Outputs)}
      (at' : workshop.requests[id]? = some before) (moves : before.Moves workshop.config scheduled after) :
      ∀ request ∈ workshop.requests.set id after, request.report.records.Ascending := by
    intro request member
    rcases List.mem_or_eq_of_mem_set member with old | rfl
    · exact ascends request old
    · have before := List.mem_of_getElem? at'
      exact moves.ascending (books _ before) (ascends _ before)
  cases turn with
  | opens opens requests =>
    intro request member
    rw [requests] at member
    rcases List.mem_append.mp member with old | new
    · exact ascends request old
    · rw [List.mem_singleton.mp new, opens.fresh]
      exact List.Pairwise.nil
  | moves at' moves requests => exact requests ▸ changes at' moves
  | schedules at' looking moves requests => exact requests ▸ changes at' moves
  | idle requests => exact requests ▸ ascends

/-! ### Endless courses -/

/-- An endless course of events. Files may be written at any time, so what happens in a
    while may be followed by nothing else. -/
structure Course where
  workshops : Nat → Workshop
  events : Nat → Event
  steps : ∀ n, (workshops n).step (events n) = some (workshops (n + 1))

namespace Course
variable {course : Course} {n m : Nat}

/-- A request does something in the end if there is something for it to do for ever. -/
def Attends (course : Course) (id : RequestId) : Prop :=
  ∀ n, (∀ m ≥ n, ∃ event : Event, event.drives id = true ∧ ((course.workshops m).step event).isSome = true) →
    ∃ m ≥ n, (course.events m).drives id = true

/-- Every job of a request ends. -/
def JobsEnd (course : Course) (id : RequestId) : Prop :=
  ∀ n request, (course.workshops n).requests[id]? = some request → ∀ job ∈ request.jobs,
    ∃ m ≥ n, ∃ later, (course.workshops m).requests[id]? = some later ∧ later.Over job.fingerprint

/-- All requests have just started, at first. -/
def Opens (course : Course) : Prop := ∀ request ∈ (course.workshops 0).requests, ∃ roots, request.Opens roots

theorem Opens.books (opens : course.Opens) (n : Nat) : ∀ request ∈ (course.workshops n).requests, request.Books [] := by
  induction n with
  | zero =>
    intro request member
    obtain ⟨roots, opened⟩ := opens request member
    exact opened.books
  | succ n ih => exact ((step_serves (course.steps n)).turn.books ih).1

theorem Opens.ascending (opens : course.Opens) (n : Nat) :
    ∀ request ∈ (course.workshops n).requests, request.report.records.Ascending := by
  induction n with
  | zero =>
    intro request member
    obtain ⟨roots, opened⟩ := opens request member
    rw [opened.fresh]
    exact List.Pairwise.nil
  | succ n ih => exact (step_serves (course.steps n)).turn.ascending (opens.books n) ih

/-- A request goes on. -/
theorem Opens.continues (opens : course.Opens) (at' : (course.workshops n).requests[id]? = some request) (later : n ≤ m) :
    ∃ request', (course.workshops m).requests[id]? = some request' ∧ request.Continues request' := by
  induction m, later using Nat.le_induction with
  | base => exact ⟨request, at', .refl request⟩
  | succ m later ih =>
    obtain ⟨between, at'', before⟩ := ih
    obtain ⟨last, atLast, after⟩ := ((step_serves (course.steps m)).turn.books (opens.books m)).2 id between at''
    exact ⟨last, atLast, before.trans after⟩

/-- A request that does nothing itself for a while is at rest. -/
theorem rests (at' : (course.workshops n).requests[id]? = some request) (later : n ≤ m)
    (idle : ∀ k ≥ n, (course.events k).drives id = false) :
    ∃ request', (course.workshops m).requests[id]? = some request' ∧ request.Rests request' := by
  induction m, later using Nat.le_induction with
  | base => exact ⟨request, at', .refl request⟩
  | succ m later ih =>
    obtain ⟨between, at'', before⟩ := ih
    obtain ⟨last, atLast, after⟩ := (step_serves (course.steps m)).rests (idle m later) at''
    exact ⟨last, atLast, before.trans after⟩

/-- A request that has not ended does something in the end: otherwise it would be at rest,
    and there would be something for it to do once its jobs are over. -/
theorem exists_drives (attends : course.Attends id) (jobsEnd : course.JobsEnd id)
    (at' : (course.workshops n).requests[id]? = some request) (open' : request.closed = false) :
    ∃ m ≥ n, (course.events m).drives id = true := by
  by_contra nothing
  have idle : ∀ m ≥ n, (course.events m).drives id = false := by
    intro m later
    by_contra drives
    exact nothing ⟨m, later, by simpa using drives⟩
  have rest (m : Nat) (later : n ≤ m) := course.rests at' later idle
  cases looking : request.looking with
  | some derivation =>
    refine nothing (attends n fun m later => ⟨.look id, by simp [Event.drives], ?_⟩)
    obtain ⟨now, atNow, rests⟩ := rest m later
    simp [step, atNow, rests.looking, looking]
  | none =>
    by_cases ready : request.ready = []
    · cases jobs : request.jobs with
      | nil =>
        refine nothing (attends n fun m later => ⟨.close id, by simp [Event.drives], ?_⟩)
        obtain ⟨now, atNow, rests⟩ := rest m later
        have noJobs : now.jobs = [] := by simpa [jobs] using rests.jobs
        simp [step, atNow, Request.close, rests.looking, looking, rests.ready, ready, noJobs, rests.closed, open']
      | cons job others =>
        obtain ⟨first, since, between, atFirst, isOver⟩ := jobsEnd n request at' job (by simp [jobs])
        obtain ⟨m, later, drives⟩ := attends first fun m later => by
          obtain ⟨now, atNow, rests⟩ := rest m (since.le.trans later)
          obtain ⟨now', atNow', resting⟩ := course.rests atFirst later fun k after => idle k (since.le.trans after)
          obtain rfl : now = now' := Option.some.inj (atNow.symm.trans atNow')
          have present : job.fingerprint ∈ now.jobs.map Job.fingerprint := by simp [rests.jobs, jobs]
          obtain ⟨next, joins⟩ := Option.isSome_iff_exists.mp (Request.join_isSome (course.workshops m).config
            (rests.looking.trans looking) (rests.ready.trans ready) present (resting.isOver _ isOver))
          exact ⟨.join id job.fingerprint, by simp [Event.drives], by simp [step, atNow, joins]⟩
        exact nothing ⟨m, since.le.trans later, drives⟩
    · refine nothing (attends n fun m later => ⟨.visit id, by simp [Event.drives], ?_⟩)
      obtain ⟨now, atNow, rests⟩ := rest m later
      obtain ⟨next, visits⟩ := Option.isSome_iff_exists.mp
        (Request.visit_isSome (rests.looking.trans looking) (by rw [rests.ready]; exact ready))
      simp [step, atNow, visits]

/-- As time goes by, there is never more left to do. -/
theorem Opens.remaining_le (opens : course.Opens) (at' : (course.workshops n).requests[id]? = some request)
    (later : n ≤ m) :
    ∃ request', (course.workshops m).requests[id]? = some request' ∧ request'.remaining ≤ request.remaining := by
  induction m, later using Nat.le_induction with
  | base => exact ⟨request, at', le_refl _⟩
  | succ m later ih =>
    obtain ⟨between, atBetween, before⟩ := ih
    have serves := step_serves (course.steps m)
    cases drives : (course.events m).drives id with
    | true =>
      obtain ⟨between', last, atBetween', atLast, less⟩ := serves.remaining_lt (opens.books m) drives
      obtain rfl : between = between' := Option.some.inj (atBetween.symm.trans atBetween')
      exact ⟨last, atLast, less.le.trans before⟩
    | false =>
      obtain ⟨last, atLast, rests⟩ := serves.rests drives atBetween
      exact ⟨last, atLast, rests.remaining.le.trans before⟩

/-- A request that is attended to and whose jobs end has ended at some time. -/
theorem Opens.exists_closed (opens : course.Opens) (attends : course.Attends id) (jobsEnd : course.JobsEnd id)
    (at' : (course.workshops n).requests[id]? = some request) :
    ∃ m ≥ n, ∃ final, (course.workshops m).requests[id]? = some final ∧ final.closed = true := by
  generalize size : request.remaining = remaining
  induction remaining using Nat.strong_induction_on generalizing n request with
  | h remaining ih =>
    by_cases ended : request.closed = true
    · exact ⟨n, le_refl n, request, at', ended⟩
    · obtain ⟨m, later, drives⟩ := course.exists_drives attends jobsEnd at' (by simpa using ended)
      obtain ⟨before, after, atBefore, atAfter, less⟩ :=
        (step_serves (course.steps m)).remaining_lt (opens.books m) drives
      obtain ⟨before', atBefore', most⟩ := opens.remaining_le at' later
      obtain rfl : before = before' := Option.some.inj (atBefore.symm.trans atBefore')
      obtain ⟨last, since, final, atFinal, closed⟩ := ih after.remaining (by omega) atAfter rfl
      exact ⟨last, by omega, final, atFinal, closed⟩

/-- In every course of a workshop, with any outcomes of jobs, in any order, and requests
    called off at any time: a request whose jobs all end comes to its end if it is attended
    to. Then it has one record for each derivation of its graph and no other, which are those
    that its roots need. A record that is made is never replaced, and all that depends on a
    failed derivation, directly or not, has failed as well at every moment. -/
theorem concludes (course : Course) (opens : course.Opens) {start : Nat} {id : RequestId} {roots : List Derivation}
    {request : Request} (at' : (course.workshops start).requests[id]? = some request) (opened : request.Opens roots) :
    (course.Attends id → course.JobsEnd id →
      ∃ n ≥ start, ∃ final, (course.workshops n).requests[id]? = some final ∧ final.closed = true) ∧
    ∀ n ≥ start, ∃ now, (course.workshops n).requests[id]? = some now ∧
      (now.closed = true →
        (Dict.keys now.report.records).Perm ((ofRoots roots).nodes.map fun node => node.fingerprint.text) ∧
        (Coherent roots → ∀ fingerprint,
          now.report.has fingerprint = true ↔ ∃ node, Needed roots node ∧ node.fingerprint = fingerprint)) ∧
      (∀ m ≥ n, ∃ later, (course.workshops m).requests[id]? = some later ∧
        ∀ fingerprint record, now.report.get? fingerprint = some record →
          later.report.get? fingerprint = some record) ∧
      ∀ fingerprint error, now.report.Failed fingerprint error →
        ∀ dependent, Relation.TransGen (ofRoots roots).Uses dependent fingerprint →
          ∃ cause, now.report.Failed dependent cause := by
  refine ⟨fun attends jobsEnd => opens.exists_closed attends jobsEnd at', fun n since => ?_⟩
  obtain ⟨now, atNow, continues⟩ := opens.continues at' since
  have books := opens.books n now (List.mem_of_getElem? atNow)
  have nodes : now.graph.nodes.Perm (ofRoots roots).nodes := continues.graph ▸ opened.nodes
  have uses : now.graph.Uses = (ofRoots roots).Uses := by
    funext fingerprint input
    simp only [Uses, (closed_ofRoots roots).dependencies_perm nodes]
  refine ⟨now, atNow, fun ended => ⟨?_, fun coherent fingerprint => ?_⟩, fun m later => ?_, ?_⟩
  · exact (books.keys_perm (opens.ascending n now (List.mem_of_getElem? atNow)) ended).trans (nodes.map _)
  · rw [← contains_ofRoots_iff coherent]
    have within : now.graph.contains fingerprint = (ofRoots roots).contains fingerprint := by
      rw [Bool.eq_iff_iff, contains_iff, contains_iff, (closed_ofRoots roots).find?_perm nodes]
    constructor
    · intro recorded
      obtain ⟨record, known⟩ := has_iff.mp recorded
      obtain ⟨node, found, _⟩ := books.named _ _ known
      rw [← within]
      exact contains_iff.mpr ⟨node, found⟩
    · intro inside
      exact (books.ended ended).2 fingerprint (within.trans inside)
  · obtain ⟨last, atLast, after⟩ := opens.continues atNow later
    exact ⟨last, atLast, after.grows⟩
  · intro fingerprint error failed dependent path
    exact books.failed_of_uses failed (uses ▸ path)

/-! ### Courses that come to an end -/

/-- What happens in a while, and nothing else for ever. -/
def ofRun {workshop after : Workshop} {events : List Event} (ran : workshop.run events = some after) : Course where
  workshops n := (workshop.run (events.take n)).getD after
  events n := events[n]?.getD (.write after.disk)
  steps n := by
    by_cases inside : n < events.length
    · have split : events = events.take n ++ events[n] :: events.drop (n + 1) := by simp
      have parts := ran
      rw [split, run_append] at parts
      obtain ⟨between, before, onwards⟩ := Option.bind_eq_some_iff.mp parts
      obtain ⟨next, steps, _⟩ := run_cons onwards
      have through : workshop.run (events.take (n + 1)) = some next := by
        rw [List.take_add_one, run_append, before]
        simp [inside, run, steps]
      simp [before, through, inside, steps]
    · have isOver : events.length ≤ n := Nat.not_lt.mp inside
      rw [List.take_of_length_le isOver, List.take_of_length_le (isOver.trans n.le_succ), ran,
        List.getElem?_eq_none isOver]
      rfl

section
variable {workshop after : Workshop} {events : List Event} (ran : workshop.run events = some after)

theorem ofRun_zero : (ofRun ran).workshops 0 = workshop := rfl

theorem ofRun_over (isOver : events.length ≤ n) : (ofRun ran).workshops n = after := by
  simp [ofRun, List.take_of_length_le isOver, ran]

/-- A request that has ended does nothing more. -/
private theorem step_eq_none {request : Request} (books : request.Books []) (ended : request.closed = true)
    (at' : workshop.requests[id]? = some request) (drives : event.drives id = true) : workshop.step event = none := by
  have nothing := (books.ended ended).1
  simp only [Request.placed, List.nil_append, List.append_eq_nil_iff, List.map_eq_nil_iff] at nothing
  obtain ⟨ready, looking, jobs⟩ := nothing
  have looking : request.looking = none := by simpa using looking
  cases event with
  | visit other =>
    obtain rfl := of_decide_eq_true drives
    simp [step, at', Request.visit, looking, ready]
  | look other =>
    obtain rfl := of_decide_eq_true drives
    simp [step, at', looking]
  | join other fingerprint =>
    obtain rfl := of_decide_eq_true drives
    simp [step, at', Request.join, looking, ready, jobs]
  | close other =>
    obtain rfl := of_decide_eq_true drives
    simp [step, at', Request.close, looking, ready, jobs, ended]
  | _ => cases drives

/-- A request that ends in a run is attended to, and its jobs end. -/
theorem ofRun_fair (opens : (ofRun ran).Opens) (at' : after.requests[id]? = some request)
    (ended : request.closed = true) : (ofRun ran).Attends id ∧ (ofRun ran).JobsEnd id := by
  have isOver (n : Nat) : (ofRun ran).workshops (max n events.length) = after := ofRun_over ran (le_max_right _ _)
  have books : request.Books [] := by
    have all := opens.books (max 0 events.length)
    rw [isOver] at all
    exact all request (List.mem_of_getElem? at')
  constructor
  · intro n always
    obtain ⟨event, drives, possible⟩ := always (max n events.length) (le_max_left _ _)
    rw [isOver, step_eq_none books ended at' drives] at possible
    cases possible
  · intro n _ _ job _
    refine ⟨max n events.length, le_max_left _ _, request, by rw [isOver, at'], fun other present => ?_⟩
    have nothing := (books.ended ended).1
    simp only [Request.placed, List.nil_append, List.append_eq_nil_iff, List.map_eq_nil_iff] at nothing
    rw [nothing.2.2] at present
    cases present

end

open Errand in
private theorem failed_lib (error : BuildError) : ∃ cause, (Errand.closed error).report.Failed lib.fingerprint cause := by
  have flood := Request.failAll_flood (closed_ofRoots [app]) (midway none []).report [(lib.fingerprint, error)]
  obtain ⟨record, known⟩ := has_iff.mp (flood.stacked (lib.fingerprint, error) (by simp) rfl)
  obtain ⟨node, cause, _, rfl, _⟩ := flood.origin _ _ known rfl
  have closes : ((midway none []).fail lib error).close = some (Errand.closed error) := rfl
  obtain ⟨_, _, later, shape, kept⟩ := Request.Books.close_cases closes
  refine ⟨cause, node.name, ?_⟩
  have before : ((midway none []).fail lib error).report.get? lib.fingerprint = some ⟨node.name, .failed cause⟩ := known
  rw [shape, kept, before, Option.some_or]

open Errand in
/-- One input of an application cannot be made, so the application fails with it; all three
    derivations have their records when the request ends. -/
theorem concludes_errand : ∃ course : Course, course.workshops 0 = shop [tool] asked ∧
    (∃ n final, (course.workshops n).requests[0]? = some final ∧ final.closed = true) ∧
    ∃ n final, (course.workshops n).requests[0]? = some final ∧
      (Dict.keys final.report.records).Perm [app.fingerprint.text, lib.fingerprint.text, tool.fingerprint.text] ∧
      ∃ cause, final.report.Failed app.fingerprint cause := by
  obtain ⟨path, message, _, ran⟩ := runs_course
  let error : BuildError := .store path message
  have opens : (ofRun ran).Opens := by
    intro request member
    rw [ofRun_zero] at member
    rw [List.mem_singleton.mp member]
    exact ⟨[app], opens_asked⟩
  have atStart : ((ofRun ran).workshops 0).requests[0]? = some asked := rfl
  have atEnd : (shop [tool] (Errand.closed error)).requests[0]? = some (Errand.closed error) := rfl
  have ended : (Errand.closed error).closed = true := rfl
  obtain ⟨ends, moments⟩ := concludes (ofRun ran) opens atStart opens_asked
  obtain ⟨attends, jobsEnd⟩ := ofRun_fair ran opens atEnd ended
  obtain ⟨n, _, final, atFinal, isOver⟩ := ends attends jobsEnd
  obtain ⟨now, atNow, all, _, spread⟩ := moments Errand.course.length (Nat.zero_le _)
  rw [ofRun_over ran (le_refl _), atEnd, Option.some.injEq] at atNow
  subst atNow
  obtain ⟨error', failed⟩ := failed_lib error
  refine ⟨ofRun ran, rfl, ⟨n, final, atFinal, isOver⟩, Errand.course.length, Errand.closed error, ?_, (all ended).1, ?_⟩
  · rw [ofRun_over ran (le_refl _), atEnd]
  · have uses : lib.fingerprint ∈ (ofRoots [app]).dependencies app.fingerprint := by decide
    exact spread lib.fingerprint error' failed app.fingerprint (.single uses)

end Course
end Workshop
end Pkgset

import Pkgset.Proofs.Build.Planning

/-!
# Permits

A job is at work from when it gets its permit until it is over. A request hands out as many
permits as the configuration grants, one at least, so it never has more jobs at work. Each
request has permits of its own: requests that are served side by side have together as many
jobs at work as each of them may have, and not as many as one may have.
-/

namespace Pkgset
open BuildGraph

namespace Request
variable {request : Request} {job : Job}

/-- What a move of a job does to the number of permits in use. -/
theorem permitsUsed_updateJob (books : request.Books []) (member : job ∈ request.jobs)
    (moved : Job) :
    (request.updateJob job.fingerprint fun _ => moved).permitsUsed + (if job.place.holdsPermit then 1 else 0) =
      request.permitsUsed + if moved.place.holdsPermit then 1 else 0 := by
  have once := books.nodup_jobs
  obtain ⟨before, after, split⟩ := List.append_of_mem member
  -- only the job itself has its fingerprint
  rw [split, List.map_append, List.map_cons, List.nodup_append] at once
  obtain ⟨_, onceAfter, apart⟩ := once
  have others : ∀ other ∈ before ++ after, other.fingerprint ≠ job.fingerprint := by
    intro other among same
    rcases List.mem_append.mp among with early | late
    · exact apart _ (List.mem_map_of_mem early) _ List.mem_cons_self same
    · exact (List.nodup_cons.mp onceAfter).1 (same ▸ List.mem_map_of_mem late)
  have stays {jobs : List Job} (within : ∀ other ∈ jobs, other ∈ before ++ after) :
      (jobs.map fun other => if other.fingerprint = job.fingerprint then moved else other) = jobs := by
    conv_rhs => rw [← List.map_id jobs]
    exact List.map_congr_left fun other among => if_neg (others other (within other among))
  have shape : (request.updateJob job.fingerprint fun _ => moved).jobs = before ++ moved :: after := by
    simp only [updateJob, split, List.map_append, List.map_cons, ↓reduceIte]
    rw [stays fun other => List.mem_append_left _, stays fun other => List.mem_append_right _]
  rw [permitsUsed, permitsUsed, shape, split]
  simp only [List.countP_append, List.countP_cons]
  omega

theorem permitsUsed_updateJob_le (books : request.Books []) (member : job ∈ request.jobs) {moved : Job} {limit : Nat}
    (few : request.permitsUsed ≤ limit)
    (permit : moved.place.holdsPermit = true → job.place.holdsPermit = true ∨ request.permitsUsed < limit) :
    (request.updateJob job.fingerprint fun _ => moved).permitsUsed ≤ limit := by
  have moves := permitsUsed_updateJob books member moved
  split at moves <;> split at moves <;> rename_i had has
  · omega
  · omega
  · have free := (permit has).resolve_left had
    omega
  · omega

end Request

namespace Workshop
variable {workshop next after : Workshop} {event : Event} {id : RequestId} {request : Request} {job : Job}

/-- The number of jobs at work. -/
def jobsAtWork (workshop : Workshop) : Nat := (workshop.requests.map Request.permitsUsed).sum

/-- The number of requests that have not ended. -/
def underWay (workshop : Workshop) : Nat := workshop.requests.countP fun request => !request.closed

/-- A job gets a permit only while its request has one left. -/
theorem advance_permit (workshop : Workshop) (id : RequestId) (request : Request) (job : Job)
    (gets : (workshop.advance id request job).2.place.holdsPermit = true) :
    job.place.holdsPermit = true ∨ request.permitsUsed < workshop.permits := by
  revert gets
  fun_cases Workshop.advance workshop id request job with
  | case2 goesOn place free => exact fun _ => Or.inr free
  | _ => simp_all [JobPlace.holdsPermit, Job.goTo, Job.cancel, Job.finish]

/-- No request has more permits in use than there are. -/
def Rationed (workshop : Workshop) : Prop :=
  ∀ request ∈ workshop.requests, request.permitsUsed ≤ workshop.permits

theorem Undergoes.rationed {request' : Request} (undergoes : workshop.Undergoes id request event request')
    (books : request.Books []) (few : request.permitsUsed ≤ workshop.permits) :
    request'.permitsUsed ≤ workshop.permits := by
  cases undergoes with
  | visit visits =>
    obtain ⟨_, _, _, _, _, _, ⟨_, rfl⟩ | ⟨_, rfl⟩⟩ := Request.visit_cases books visits
    all_goals exact few
  | @look derivation looking =>
    cases (workshop.fetch derivation).2 with
    | some outputs =>
      obtain ⟨waiting, ready, shape⟩ :=
        Request.succeed_eq { request with looking := none } derivation ⟨outputs, true⟩
      rw [Request.looked, shape]
      exact few
    | none => simpa [Request.looked, Request.permitsUsed, Job.new, JobPlace.holdsPermit] using few
  | @advance job member =>
    exact Request.permitsUsed_updateJob_le books (List.mem_of_find?_eq_some member) few
      (advance_permit workshop id request job)
  | @reply job outputs attempt rest reply cancels member running open' =>
    exact Request.permitsUsed_updateJob_le books (List.mem_of_find?_eq_some member) few
      fun _ => Or.inl (by rw [running]; rfl)
  | join joins =>
    obtain ⟨job, result, _, _, _, _, _, rfl⟩ := Request.join_cases joins
    rw [Request.permitsUsed, jobs_conclude]
    exact (List.filter_sublist.countP_le).trans few
  | close closes =>
    obtain ⟨_, _, later, rfl, _⟩ := Request.Books.close_cases closes
    exact few
  | cancel => exact few

/-- Every event leaves a request with as many permits in use as there are, at most. -/
theorem Serves.rationed (serves : workshop.Serves event next) (books : ∀ request ∈ workshop.requests, request.Books [])
    (rationed : workshop.Rationed) : next.Rationed := by
  intro request member
  obtain ⟨id, at'⟩ := List.mem_iff_getElem?.mp member
  rw [permits, serves.config]
  rcases serves.origin at' with ⟨roots, opens⟩ | ⟨before, was, rfl | undergoes⟩
  · rw [opens.fresh]
    exact Nat.zero_le _
  · exact rationed request (List.mem_of_getElem? was)
  · have present := List.mem_of_getElem? was
    exact undergoes.rationed (books before present) (rationed before present)

theorem run_rationed {events : List Event} (guarded : workshop.Guarded) (rationed : workshop.Rationed)
    (ran : workshop.run events = some after) : after.Rationed ∧ after.config = workshop.config := by
  induction events generalizing workshop with
  | nil =>
    cases ran
    exact ⟨rationed, rfl⟩
  | cons event rest ih =>
    obtain ⟨between, steps, onwards⟩ := run_cons ran
    have serves := step_serves steps
    obtain ⟨still, config⟩ := ih (guarded.step serves) (serves.rationed guarded.books rationed) onwards
    exact ⟨still, config.trans serves.config⟩

/-- Where a request that has ended has no jobs, the jobs at work belong to the others. -/
theorem Rationed.jobsAtWork_le (rationed : workshop.Rationed) (books : ∀ request ∈ workshop.requests, request.Books []) :
    workshop.jobsAtWork ≤ workshop.underWay * workshop.permits := by
  have idle {request : Request} (member : request ∈ workshop.requests) (ended : request.closed = true) :
      request.permitsUsed = 0 := by
    have nothing := ((books request member).ended ended).1
    simp only [List.nil_append, Request.placed, List.append_eq_nil_iff, List.map_eq_nil_iff] at nothing
    simp [Request.permitsUsed, nothing]
  unfold jobsAtWork underWay
  revert rationed idle
  unfold Rationed
  generalize workshop.permits = permits
  generalize workshop.requests = requests
  intro rationed idle
  induction requests with
  | nil => simp
  | cons first rest ih =>
    have others := ih (fun request member => rationed request (List.mem_cons_of_mem _ member))
      fun member => idle (List.mem_cons_of_mem _ member)
    have few := rationed first List.mem_cons_self
    rw [List.map_cons, List.sum_cons, List.countP_cons, Nat.add_mul]
    cases ended : first.closed with
    | true => simpa [idle List.mem_cons_self ended] using others
    | false => simp only [Bool.not_false, ↓reduceIte, Nat.one_mul]; omega

/-- However requests and jobs move, with any replies of the runner, failures, requests called
    off and files changed: no request has more jobs at work than the configuration grants, or
    one if it grants none. So all requests together have no more of them than that for each
    request that has not ended. -/
theorem run_permits {events : List Event} (opens : ∀ request ∈ workshop.requests, ∃ roots, request.Opens roots)
    (ran : workshop.run events = some after) :
    (∀ request ∈ after.requests, request.permitsUsed ≤ max 1 workshop.config.maxJobs.toNat) ∧
      after.jobsAtWork ≤ after.underWay * max 1 workshop.config.maxJobs.toNat := by
  have guarded := Guarded.opens opens
  have first : workshop.Rationed := by
    intro request member
    obtain ⟨roots, opened⟩ := opens request member
    rw [opened.fresh]
    exact Nat.zero_le _
  obtain ⟨rationed, config⟩ := run_rationed guarded first ran
  have total := rationed.jobsAtWork_le (guarded.run ran).books
  rw [permits, config] at total
  refine ⟨fun request member => ?_, total⟩
  rw [← config]
  exact rationed request member

end Workshop

/-! ### Two requests with one permit each -/

namespace Errand

/-- A request for a derivation without inputs, at its start. -/
def wish (node : Derivation) : Request := .ofGraph (ofRoots [node]) [node.fingerprint] false

/-- The request while its derivation is in a job. -/
def granted (node : Derivation) (place : JobPlace) : Request := { wish node with ready := [], jobs := [⟨node, [], place⟩] }

/-- A workshop that grants one permit. -/
def bench (requests : List Request) : Workshop := ⟨⟨1, .always, 0, true, "/", none⟩, ground none, .empty, [], requests⟩

/-- What happens until both requests have a job at work. -/
def rivalry : List Event :=
  [.request [lib] false, .request [unnamed] false, .visit 0, .look 0, .visit 1, .look 1,
    .advance 0 lib.fingerprint, .advance 1 unnamed.fingerprint]

theorem new_wish {node : Derivation} (among : node = lib ∨ node = unnamed) : Request.new [node] false = .ok (wish node) := by
  have first : ready (ofRoots [node]).nodes = [node] := by rcases among with rfl | rfl <;> rfl
  have rest : layers 0 ((ofRoots [node]).nodes.filter fun other => !([node].map (·.fingerprint)).contains other.fingerprint) =
      .ok [] := by rcases among with rfl | rfl <;> rfl
  have size : (ofRoots [node]).size = 0 + 1 := by rcases among with rfl | rfl <;> rfl
  have waves := layers_of_sorted first (by simp) (by simp) rest
  have order : (ofRoots [node]).topological = .ok [node.fingerprint] := by
    rw [topological, BuildGraph.waves, size, waves]
    rfl
  simp only [Request.new, fromRoots, order, bind, Except.bind]
  rfl

theorem missed_bench {requests : List Request} {node : Derivation} (among : node = lib ∨ node = unnamed) :
    (bench requests).offers node = false := by
  rw [Workshop.offers_eq]
  change (false || (Store.lookup ⟨"/"⟩ (ground none) node).isSome) = false
  rcases among with rfl | rfl
  · rw [lookup_ground]
    rfl
  · rw [missed_unnamed]
    rfl

theorem run_rivalry : (bench []).run rivalry = some (bench [granted lib .admitted, granted unnamed .admitted]) := by
  have opens {requests : List Request} {node : Derivation} (among : node = lib ∨ node = unnamed) :
      (bench requests).step (.request [node] false) = some (bench (requests ++ [wish node])) := by
    simp only [Workshop.step, new_wish among]
    rfl
  let looks (node : Derivation) : Request := { wish node with ready := [], looking := some node }
  have at0 : (bench [looks lib, wish unnamed]).requests[0]? = some (looks lib) := rfl
  have first : (bench [looks lib, wish unnamed]).step (.look 0) = some (bench [granted lib .queued, wish unnamed]) :=
    Workshop.step_look_of_missed at0 rfl (missed_bench (Or.inl rfl))
  have at1 : (bench [granted lib .queued, looks unnamed]).requests[1]? = some (looks unnamed) := rfl
  have second : (bench [granted lib .queued, looks unnamed]).step (.look 1) =
      some (bench [granted lib .queued, granted unnamed .queued]) :=
    Workshop.step_look_of_missed at1 rfl (missed_bench (Or.inr rfl))
  have takes : (bench [granted lib .queued, granted unnamed .queued]).run
      [.advance 0 lib.fingerprint, .advance 1 unnamed.fingerprint] =
        some (bench [granted lib .admitted, granted unnamed .admitted]) := rfl
  exact Workshop.run_step (opens (Or.inl rfl)) (Workshop.run_step (opens (Or.inr rfl))
    (Workshop.run_step rfl (Workshop.run_step first (Workshop.run_step rfl (Workshop.run_step second takes)))))

end Errand

open Errand in
/-- Two requests with one permit each have a job at work each, and no more. -/
theorem Workshop.run_permits_errand : (bench []).run rivalry = some (bench [granted lib .admitted, granted unnamed .admitted]) ∧
    (granted lib .admitted).permitsUsed ≤ 1 ∧
    (bench [granted lib .admitted, granted unnamed .admitted]).jobsAtWork ≤ 2 := by
  obtain ⟨each, all⟩ := Workshop.run_permits (by simp [bench]) run_rivalry
  exact ⟨run_rivalry, each _ (by simp [bench]), all⟩

open Errand in
/-- A configuration grants one permit, and two derivations are at work, each in a request of
    its own. -/
theorem Workshop.permits_exceeded : ∃ after, (Workshop.new (bench []).config (bench []).disk).run rivalry = some after ∧
    max 1 (bench []).config.maxJobs.toNat = 1 ∧ after.jobsAtWork = 2 :=
  ⟨_, run_rivalry, rfl, rfl⟩

end Pkgset

import Pkgset.Proofs.Build.Attempts
import Pkgset.Proofs.Build.Cancellation
import Pkgset.Proofs.Build.Conservation

/-!
# The calls of a request

A request calls the runner for a derivation only through the one job that it has for it.
So the calls for a derivation and their replies, in whatever other things they happen
among, are those of a job that goes through the phases.
-/

namespace Pkgset
open BuildReport BuildGraph

namespace Workshop
variable {workshop next : Workshop} {event : Event} {id : RequestId} {fingerprint : Fingerprint} {request : Request}

/-! ### Calls and replies of a run -/

/-- The calls of a request for a derivation, the earliest first. -/
def attemptsOf (workshop : Workshop) (id : RequestId) (fingerprint : Fingerprint) : List Attempt :=
  (((workshop.callsOf id).filter (·.derivation.fingerprint = fingerprint)).map (·.attempt)).reverse

end Workshop

/-- The reply that an event brings a request for a derivation. -/
def Event.reply? (id : RequestId) (fingerprint : Fingerprint) : Event → Option Reply
  | .reply other its given _ => if other = id ∧ its = fingerprint then some given else none
  | _ => none

/-- Whether the job for a derivation moves or takes a reply, as a job of a request. -/
def Event.works (id : RequestId) (fingerprint : Fingerprint) : Event → Bool
  | .advance other its | .reply other its _ _ => other = id ∧ its = fingerprint
  | _ => false

/-- The replies that events bring a request for a derivation, in their order. -/
def repliesTo (id : RequestId) (fingerprint : Fingerprint) (events : List Event) : List Reply :=
  events.filterMap (Event.reply? id fingerprint)

theorem repliesTo_concat (id : RequestId) (fingerprint : Fingerprint) (seen : List Event) (event : Event) :
    repliesTo id fingerprint (seen ++ [event]) =
      repliesTo id fingerprint seen ++ (event.reply? id fingerprint).toList := by
  cases given : event.reply? id fingerprint <;> simp [repliesTo, given]

namespace Request
variable {request next : Request} {fingerprint : Fingerprint}

/-- The job for a fingerprint is one for the node of its graph. -/
theorem Books.derivation_eq (books : request.Books []) {job : Job} {node : Derivation} (member : job ∈ request.jobs)
    (same : job.fingerprint = fingerprint) (known : request.graph.find? fingerprint = some node) : job.derivation = node := by
  have found := (books.jobs job member).1
  rw [same, known] at found
  exact (Option.some.inj found).symm

/-- What happens to the job of a derivation while it neither moves nor takes a reply. -/
inductive Goes (fingerprint : Fingerprint) (request next : Request) : Prop
  | keeps (jobs : ∀ job : Job, job.fingerprint = fingerprint → (job ∈ next.jobs ↔ job ∈ request.jobs))
  | begins {derivation : Derivation} {inputs : List Outputs} (absent : ∀ job ∈ request.jobs, job.fingerprint ≠ fingerprint)
      (same : derivation.fingerprint = fingerprint) (member : Job.new derivation inputs ∈ next.jobs)
  | ends {job : Job} {result : JobResult} (member : job ∈ request.jobs) (same : job.fingerprint = fingerprint)
      (finished : job.place = .finished result) (recorded : next.report.has fingerprint = true)

theorem Goes.refl (request : Request) : request.Goes fingerprint request := .keeps fun _ _ => Iff.rfl

/-- Another job that moves is not in the way. -/
theorem goes_updateJob {job moved : Job} (derivation : moved.derivation = job.derivation)
    (apart : job.fingerprint ≠ fingerprint) (cancelled : Bool) :
    request.Goes fingerprint ({ request with cancelled }.updateJob job.fingerprint fun _ => moved) := by
  refine .keeps fun other same => ?_
  have differs : other.fingerprint ≠ job.fingerprint := by
    rw [same]
    exact apart.symm
  constructor
  · intro member
    obtain ⟨before, within, shape⟩ := List.mem_map.mp member
    split at shape
    next here =>
      rw [← shape, Job.fingerprint, derivation] at differs
      exact absurd rfl differs
    next there => exact shape ▸ within
  · intro member
    exact List.mem_map.mpr ⟨other, member, by simp [differs]⟩

theorem goes_looked {derivation : Derivation} (books : request.Books []) (looking : request.looking = some derivation)
    (found : Option Outputs) : request.Goes fingerprint (request.looked derivation found) := by
  cases found with
  | some outputs =>
    obtain ⟨waiting, ready, shape⟩ := succeed_eq { request with looking := none } derivation ⟨outputs, true⟩
    rw [looked, shape]
    exact .keeps fun _ _ => Iff.rfl
  | none =>
    by_cases same : derivation.fingerprint = fingerprint
    · refine .begins ?_ same (List.mem_append_right _ (List.mem_singleton_self _))
      -- what is looked for has no job yet
      intro job member alike
      have once := (List.nodup_append.mp (List.nodup_append.mp books.once).2.1).2.1
      rw [looking] at once
      exact (List.nodup_cons.mp once).1 (List.mem_map.mpr ⟨job, member, alike.trans same.symm⟩)
    · refine .keeps fun job itself => ⟨fun member => ?_, List.mem_append_left _⟩
      rcases List.mem_append.mp member with old | new
      · exact old
      · obtain rfl := List.mem_singleton.mp new
        exact absurd itself same

theorem goes_join {config : BuildConfig} {collected : Fingerprint} (books : request.Books [])
    (joins : request.join config collected = some next) : request.Goes fingerprint next := by
  obtain ⟨job, result, looking, ready, member, rfl, finished, rfl⟩ := join_cases joins
  by_cases same : job.fingerprint = fingerprint
  · refine .ends member same finished ?_
    subst same
    obtain ⟨_, continues⟩ := books.join joins
    rcases continues.jobs job.fingerprint (List.mem_map_of_mem member) with still | recorded
    · rw [Workshop.jobs_conclude] at still
      obtain ⟨other, within, alike⟩ := List.mem_map.mp still
      exact absurd alike (by simpa using (List.mem_filter.mp within).2)
    · exact recorded
  · refine .keeps fun other itself => ?_
    have differs : other.fingerprint ≠ job.fingerprint := by
      rw [itself]
      exact fun alike => same alike.symm
    rw [Workshop.jobs_conclude]
    simp [differs]

end Request

namespace Workshop
variable {workshop next : Workshop} {event : Event} {id : RequestId} {fingerprint : Fingerprint} {request : Request}

theorem Undergoes.goes {request' : Request} (undergoes : workshop.Undergoes id request event request')
    (books : request.Books []) (aside : event.works id fingerprint = false) : request.Goes fingerprint request' := by
  cases undergoes with
  | visit visits =>
    obtain ⟨_, _, _, _, _, _, ⟨_, rfl⟩ | ⟨_, rfl⟩⟩ := Request.visit_cases books visits
    all_goals exact .keeps fun _ _ => Iff.rfl
  | look looking => exact Request.goes_looked books looking _
  | @advance job member =>
    have frame := advance_frame workshop id request job
    exact Request.goes_updateJob frame.derivation (by simpa [Event.works] using aside) request.cancelled
  | @reply job outputs attempt rest reply cancels member running open' =>
    have frame := replied_frame workshop.config job outputs attempt rest reply
    exact Request.goes_updateJob frame.1 (by simpa [Event.works] using aside) cancels
  | join joins => exact Request.goes_join books joins
  | close closes =>
    obtain ⟨_, _, later, rfl, _⟩ := Request.Books.close_cases closes
    exact .keeps fun _ _ => Iff.rfl
  | cancel => exact .keeps fun _ _ => Iff.rfl

theorem Serves.goes (serves : workshop.Serves event next) (books : ∀ request ∈ workshop.requests, request.Books [])
    (at' : workshop.requests[id]? = some request) (aside : event.works id fingerprint = false) :
    ∃ request', next.requests[id]? = some request' ∧ request.Goes fingerprint request' := by
  obtain ⟨request', atNow, rfl | undergoes⟩ := serves.undergoes at'
  · exact ⟨request', atNow, .refl request'⟩
  · exact ⟨request', atNow, undergoes.goes (books request (List.mem_of_getElem? at')) aside⟩

theorem attemptsOf_call {call : Call} (called : next.calls = call :: workshop.calls) :
    next.attemptsOf call.request call.derivation.fingerprint =
      workshop.attemptsOf call.request call.derivation.fingerprint ++ [call.attempt] := by
  simp [attemptsOf, callsOf, called]

theorem attemptsOf_of_elsewhere {call : Call} (called : next.calls = call :: workshop.calls)
    (elsewhere : ¬ (call.request = id ∧ call.derivation.fingerprint = fingerprint)) :
    next.attemptsOf id fingerprint = workshop.attemptsOf id fingerprint := by
  unfold attemptsOf callsOf
  rw [called]
  by_cases mine : call.request = id
  · have other : call.derivation.fingerprint ≠ fingerprint := fun its => elsewhere ⟨mine, its⟩
    simp [mine, other]
  · simp [mine]

/-- Where the job neither moves nor takes a reply, no call is made for it. -/
theorem Serves.attemptsOf_eq (serves : workshop.Serves event next) (aside : event.works id fingerprint = false) :
    next.attemptsOf id fingerprint = workshop.attemptsOf id fingerprint := by
  cases serves with
  | @advance other owner job owns member =>
    rcases (advance_frame workshop other owner job).calls with same | ⟨attempt, outputs, called⟩
    · simp only [attemptsOf, callsOf, setRequest, same]
    · have elsewhere : ¬ (other = id ∧ job.fingerprint = fingerprint) := of_decide_eq_false aside
      exact attemptsOf_of_elsewhere called elsewhere
  | _ => rfl

/-- Where the job neither moves nor takes a reply, no reply is given. -/
theorem reply?_of_aside (aside : event.works id fingerprint = false) : event.reply? id fingerprint = none := by
  cases event with
  | reply other its given cancels => exact if_neg (of_decide_eq_false aside)
  | _ => rfl

/-! ### A run and its calls -/

/-- How far a request has come with a derivation: it has no job of it yet, a job that stands
    where it has come with its calls, or a record. -/
inductive Follows (workshop : Workshop) (begun : Bool) (id : RequestId) (fingerprint : Fingerprint) :
    List Exchange → Option Attempt → Prop
  | ahead (unbegun : begun = false)
      (absent : ∀ request, workshop.requests[id]? = some request → ∀ job ∈ request.jobs, job.fingerprint ≠ fingerprint) :
      Follows workshop begun id fingerprint [] none
  | job {request : Request} {job : Job} {log : List Exchange} {pending : Option Attempt}
      (at' : workshop.requests[id]? = some request) (member : job ∈ request.jobs) (same : job.fingerprint = fingerprint)
      (stands : Job.Stands workshop.config job.derivation begun job.place log pending) :
      Follows workshop begun id fingerprint log pending
  | settled {request : Request} {node : Derivation} {log : List Exchange} (at' : workshop.requests[id]? = some request)
      (found : request.graph.find? fingerprint = some node) (recorded : request.report.has fingerprint = true)
      (ended : begun = true → ∃ ending, Job.Performs workshop.config node node.phases log ending) :
      Follows workshop begun id fingerprint log none

/-- A request has made these calls for a derivation and got these replies, and it waits for
    the reply to one more call or for none. -/
structure Tracks (workshop : Workshop) (seen : List Event) (begun : Bool) (id : RequestId) (fingerprint : Fingerprint)
    (log : List Exchange) (pending : Option Attempt) : Prop where
  calls : workshop.attemptsOf id fingerprint = log.map Prod.fst ++ pending.toList
  replies : repliesTo id fingerprint seen = log.map Prod.snd
  follows : workshop.Follows begun id fingerprint log pending

section
variable {seen : List Event} {begun : Bool} {log : List Exchange} {pending : Option Attempt} {job : Job}

/-- A job of a fingerprint is the only one in its request, and there is no record then. -/
theorem Follows.stands (follows : workshop.Follows begun id job.fingerprint log pending) (books : request.Books [])
    (at' : workshop.requests[id]? = some request) (member : job ∈ request.jobs) :
    Job.Stands workshop.config job.derivation begun job.place log pending := by
  cases follows with
  | ahead unbegun absent => exact absurd rfl (absent request at' job member)
  | @job owner other _ _ owns within same stands =>
    obtain rfl : request = owner := Option.some.inj (at'.symm.trans owns)
    obtain rfl : other = job := books.job_eq within member same
    exact stands
  | @settled owner node _ owns found recorded ended =>
    obtain rfl : request = owner := Option.some.inj (at'.symm.trans owns)
    have placed : job.fingerprint ∈ [] ++ request.placed := by simp [Request.placed, List.mem_map_of_mem member]
    exact absurd recorded (by simp [books.unrecorded job.fingerprint placed])

/-- What happens to others, and what a request does beside, leaves the calls for a
    derivation and their place as they are. -/
theorem Follows.aside (follows : workshop.Follows begun id fingerprint log pending) (serves : workshop.Serves event next)
    (books : ∀ request ∈ workshop.requests, request.Books []) (aside : event.works id fingerprint = false) :
    next.Follows begun id fingerprint log pending := by
  have goes {request : Request} (at' : workshop.requests[id]? = some request) := serves.goes books at' aside
  cases follows with
  | ahead unbegun absent =>
    cases before : workshop.requests[id]? with
    | none =>
      refine .ahead unbegun fun request at' job member => ?_
      obtain ⟨roots, opens⟩ := serves.opens before at'
      rw [opens.fresh] at member
      cases member
    | some request =>
      obtain ⟨later, atLater, goes⟩ := goes before
      cases goes with
      | keeps jobs =>
        refine .ahead unbegun fun request' at' job member same => ?_
        obtain rfl : later = request' := Option.some.inj (atLater.symm.trans at')
        exact absent request before job ((jobs job same).mp member) same
      | begins without same member => exact .job atLater member same (.idle unbegun (Or.inl rfl))
      | ends member same isOver recorded => exact absurd same (absent request before _ member)
  | job at' member same stands =>
    obtain ⟨later, atLater, goes⟩ := goes at'
    cases goes with
    | keeps jobs => exact .job atLater ((jobs _ same).mpr member) same (serves.config ▸ stands)
    | begins without same' member' => exact absurd same (without _ member)
    | @ends other result member' same' isOver recorded =>
      subst same'
      rename_i request job
      have own := books request (List.mem_of_getElem? at')
      have stands := (Follows.job at' member same stands).stands own at' member'
      rw [isOver] at stands
      obtain ⟨rfl, ended⟩ := stands.ended
      obtain ⟨later', atLater', continues⟩ := (serves.turn.books books).2 id request at'
      obtain rfl : later = later' := Option.some.inj (atLater.symm.trans atLater')
      exact .settled atLater (continues.graph ▸ (own.jobs other member').1) recorded (serves.config ▸ ended)
  | settled at' found recorded ended =>
    obtain ⟨later, atLater, continues⟩ := (serves.turn.books books).2 id _ at'
    exact .settled atLater (continues.graph ▸ found) (continues.grows.has recorded) (serves.config ▸ ended)

theorem Tracks.aside (tracks : workshop.Tracks seen begun id fingerprint log pending) (serves : workshop.Serves event next)
    (books : ∀ request ∈ workshop.requests, request.Books []) (aside : event.works id fingerprint = false) :
    next.Tracks (seen ++ [event]) begun id fingerprint log pending := by
  refine ⟨(serves.attemptsOf_eq aside).trans tracks.calls, ?_, tracks.follows.aside serves books aside⟩
  rw [repliesTo_concat, tracks.replies, reply?_of_aside aside]
  exact List.append_nil _

/-- The job in its request after it was changed. -/
theorem at_updateJob {after : Workshop} {moved : Job} {cancelled : Bool} (at' : workshop.requests[id]? = some request)
    (member : request.jobs.find? (·.fingerprint = job.fingerprint) = some job)
    (requests : after.requests = workshop.requests) :
    (after.setRequest id ({ request with cancelled }.updateJob job.fingerprint fun _ => moved)).requests[id]? =
        some ({ request with cancelled }.updateJob job.fingerprint fun _ => moved) ∧
      moved ∈ ({ request with cancelled }.updateJob job.fingerprint fun _ => moved).jobs := by
  have inside := (List.getElem?_eq_some_iff.mp at').1
  exact ⟨by simp [setRequest, requests, inside],
    List.mem_map.mpr ⟨job, List.mem_of_find?_eq_some member, by simp⟩⟩

/-- The job moves: perhaps it makes the call that it was about to make. -/
theorem Tracks.advance {after : Workshop} {moved : Job}
    (tracks : workshop.Tracks seen begun id job.fingerprint log pending) (books : request.Books [])
    (at' : workshop.requests[id]? = some request) (open' : request.cancelled = false)
    (member : request.jobs.find? (·.fingerprint = job.fingerprint) = some job)
    (moves : workshop.advance id request job = (after, moved)) :
    ∃ pending', (after.setRequest id (request.updateJob job.fingerprint fun _ => moved)).Tracks
      (seen ++ [.advance id job.fingerprint]) begun id job.fingerprint log pending' := by
  have frame := advance_frame workshop id request job
  have stands := advance_stands id (tracks.follows.stands books at' (List.mem_of_find?_eq_some member)) open'
  rw [moves] at frame stands
  have derivation : moved.derivation = job.derivation := frame.derivation
  have config : after.config = workshop.config := frame.config
  have replies : repliesTo id job.fingerprint (seen ++ [.advance id job.fingerprint]) = log.map Prod.snd := by
    rw [repliesTo_concat, tracks.replies]
    exact List.append_nil _
  have follows {pending' : Option Attempt}
      (stands : Job.Stands workshop.config job.derivation begun moved.place log pending') :
      (after.setRequest id (request.updateJob job.fingerprint fun _ => moved)).Follows begun id job.fingerprint log
        pending' := by
    obtain ⟨atLater, present⟩ := at_updateJob at' member frame.requests
    refine .job atLater present (by rw [Job.fingerprint, derivation, Job.fingerprint]) ?_
    rw [derivation]
    exact config ▸ stands
  rcases stands with ⟨silent, stands⟩ | ⟨attempt, outputs, called, rfl, stands⟩
  · have silent : after.calls = workshop.calls := silent
    refine ⟨pending, ?_, replies, follows stands⟩
    rw [← tracks.calls]
    simp only [attemptsOf, callsOf, setRequest, silent]
  · refine ⟨some attempt, ?_, replies, follows stands⟩
    have calls := attemptsOf_call called
    rw [← Job.fingerprint, tracks.calls, Option.toList_none, List.append_nil] at calls
    exact calls

/-- The job takes a reply, which is one to the call that it waits for. -/
theorem Tracks.reply {outputs : Outputs} {attempt : Attempt} {rest : List Phase}
    (tracks : workshop.Tracks seen begun id job.fingerprint log pending) (books : request.Books [])
    (bound : workshop.config.retryAttempts.toNat < UInt32.size - 1) (at' : workshop.requests[id]? = some request)
    (member : request.jobs.find? (·.fingerprint = job.fingerprint) = some job)
    (running : job.place = .running outputs attempt rest) (reply : Reply) (cancels : Bool) :
    pending = some attempt ∧
      (workshop.setRequest id ({ request with cancelled := cancels }.updateJob job.fingerprint fun _ =>
        replied workshop.config job outputs attempt rest reply)).Tracks
      (seen ++ [.reply id job.fingerprint reply cancels]) begun id job.fingerprint (log ++ [(attempt, reply)]) none := by
  have frame := replied_frame workshop.config job outputs attempt rest reply
  have stands := tracks.follows.stands books at' (List.mem_of_find?_eq_some member)
  rw [running] at stands
  obtain ⟨rfl, stands, _⟩ := stands.replied bound reply
  refine ⟨rfl, ?_, ?_, ?_⟩
  · have calls := tracks.calls
    simpa [attemptsOf, callsOf, setRequest] using calls
  · rw [repliesTo_concat, tracks.replies]
    simp [Event.reply?]
  · obtain ⟨atLater, present⟩ := at_updateJob at' member rfl
    refine .job atLater present (by rw [Job.fingerprint, frame.1, Job.fingerprint]) ?_
    rw [frame.1]
    exact stands

theorem Tracks.step (tracks : workshop.Tracks seen begun id fingerprint log pending) (serves : workshop.Serves event next)
    (books : ∀ request ∈ workshop.requests, request.Books [])
    (bound : workshop.config.retryAttempts.toNat < UInt32.size - 1)
    (open' : ∀ request, workshop.requests[id]? = some request → request.cancelled = false) :
    ∃ log' pending', next.Tracks (seen ++ [event]) begun id fingerprint log' pending' := by
  cases aside : event.works id fingerprint with
  | false => exact ⟨log, pending, tracks.aside serves books aside⟩
  | true =>
    cases serves with
    | @advance other request job at' member =>
      obtain ⟨rfl, rfl⟩ : other = id ∧ job.fingerprint = fingerprint := of_decide_eq_true aside
      obtain ⟨pending', tracks⟩ :=
        tracks.advance (books _ (List.mem_of_getElem? at')) at' (open' request at') member rfl
      exact ⟨log, pending', tracks⟩
    | @reply other request job outputs attempt rest reply cancels at' member running open' =>
      obtain ⟨rfl, rfl⟩ : other = id ∧ job.fingerprint = fingerprint := of_decide_eq_true aside
      have tracks := (tracks.reply (books _ (List.mem_of_getElem? at')) bound at' member running reply cancels).2
      exact ⟨_, none, tracks⟩
    | _ => cases aside

/-- A request that is not called off after a run was not called off before. -/
theorem uncancelled_of_run {after : Workshop} {events : List Event} (guarded : workshop.Guarded)
    (at' : workshop.requests[id]? = some request) (ran : workshop.run events = some after)
    (open' : ∀ later, after.requests[id]? = some later → later.cancelled = false) : request.cancelled = false := by
  by_contra called
  have cancelled : request.cancelled = true := by simpa using called
  obtain ⟨later, atLater, reaches, _⟩ := run_lapses guarded at' cancelled ran
  have still := (Request.Lapses.induct (motive := fun _ => True) (fun _ _ _ _ => trivial)
    (guarded.books request (List.mem_of_getElem? at')) cancelled trivial reaches).2.1
  rw [open' later atLater] at still
  cases still

theorem Tracks.run {after : Workshop} {events : List Event} (tracks : workshop.Tracks seen begun id fingerprint log pending)
    (guarded : workshop.Guarded) (bound : workshop.config.retryAttempts.toNat < UInt32.size - 1)
    (ran : workshop.run events = some after)
    (open' : ∀ later, after.requests[id]? = some later → later.cancelled = false) :
    ∃ log' pending', after.Tracks (seen ++ events) begun id fingerprint log' pending' := by
  induction events generalizing workshop seen log pending with
  | nil =>
    cases ran
    exact ⟨log, pending, by rwa [List.append_nil]⟩
  | cons event rest ih =>
    obtain ⟨next, steps, onwards⟩ := run_cons ran
    have serves := step_serves steps
    have uncancelled (request : Request) (at' : workshop.requests[id]? = some request) : request.cancelled = false :=
      uncancelled_of_run guarded at' ran open'
    obtain ⟨log', pending', tracks⟩ := tracks.step serves guarded.books bound uncancelled
    have further := ih tracks (guarded.step serves) (serves.config ▸ bound) onwards
    rwa [List.append_assoc, List.singleton_append] at further

theorem Tracks.start (opens : ∀ request ∈ workshop.requests, ∃ roots, request.Opens roots) (uncalled : workshop.calls = []) :
    workshop.Tracks [] false id fingerprint [] none := by
  refine ⟨by simp [attemptsOf, callsOf, uncalled], rfl, .ahead rfl fun request at' job member => ?_⟩
  obtain ⟨roots, opens⟩ := opens request (List.mem_of_getElem? at')
  rw [opens.fresh] at member
  cases member

/-- A job that is about to go through all its phases has made no call. -/
theorem Tracks.begins {outputs : Outputs} (tracks : workshop.Tracks seen begun id job.fingerprint log pending)
    (books : request.Books []) (at' : workshop.requests[id]? = some request) (member : job ∈ request.jobs)
    (prepared : job.place = .between outputs job.derivation.phases) :
    workshop.Tracks [] true id job.fingerprint [] none := by
  have stands := tracks.follows.stands books at' member
  rw [prepared] at stands
  obtain ⟨rfl, before, split, performs⟩ := stands.of_between
  obtain rfl := List.self_eq_append_left.mp split
  cases performs
  exact ⟨tracks.calls, rfl, .job at' member rfl (prepared ▸ .between rfl .done)⟩

theorem run_config {after : Workshop} {events : List Event} (ran : workshop.run events = some after) :
    after.config = workshop.config := by
  induction events generalizing workshop with
  | nil =>
    cases ran
    rfl
  | cons event rest ih =>
    obtain ⟨next, steps, onwards⟩ := run_cons ran
    exact (ih onwards).trans (step_serves steps).config

theorem run_continues {after : Workshop} {events : List Event} (books : ∀ request ∈ workshop.requests, request.Books [])
    (at' : workshop.requests[id]? = some request) (ran : workshop.run events = some after) :
    ∃ later, after.requests[id]? = some later ∧ request.Continues later := by
  induction events generalizing workshop request with
  | nil =>
    cases ran
    exact ⟨request, at', .refl request⟩
  | cons event rest ih =>
    obtain ⟨next, steps, onwards⟩ := run_cons ran
    obtain ⟨booksNext, continues⟩ := (step_serves steps).turn.books books
    obtain ⟨now, atNow, first⟩ := continues id request at'
    obtain ⟨later, atLater, second⟩ := ih booksNext atNow onwards
    exact ⟨later, atLater, first.trans second⟩

/-- A job was for a derivation of the graph, which is so afterwards too. -/
theorem find?_of_run {after : Workshop} {events : List Event} {job : Job} {later : Request}
    (books : ∀ request ∈ workshop.requests, request.Books []) (at' : workshop.requests[id]? = some request)
    (member : job ∈ request.jobs) (ran : workshop.run events = some after) (atLater : after.requests[id]? = some later) :
    later.graph.find? job.fingerprint = some job.derivation := by
  obtain ⟨later', atLater', continues⟩ := run_continues books at' ran
  obtain rfl : later = later' := Option.some.inj (atLater.symm.trans atLater')
  rw [continues.graph]
  exact ((books request (List.mem_of_getElem? at')).jobs job member).1

/-- The calls that were made stay, and others come after them. -/
theorem attemptsOf_run {after : Workshop} {events : List Event} (ran : workshop.run events = some after) :
    workshop.attemptsOf id fingerprint <+: after.attemptsOf id fingerprint := by
  induction events generalizing workshop with
  | nil =>
    cases ran
    exact List.prefix_rfl
  | cons event rest ih =>
    obtain ⟨next, steps, onwards⟩ := run_cons ran
    refine List.IsPrefix.trans ?_ (ih onwards)
    rcases (step_serves steps).calls with same | ⟨owner, _, job, attempt, outputs, _, _, called⟩
    · simp only [attemptsOf, callsOf, same, List.prefix_rfl]
    · by_cases mine : owner = id ∧ job.derivation.fingerprint = fingerprint
      · obtain ⟨rfl, rfl⟩ := mine
        exact ⟨_, (attemptsOf_call called).symm⟩
      · exact ⟨[], (List.append_nil _).trans (attemptsOf_of_elsewhere called mine).symm⟩

/-! ### A job goes on to its end -/

/-- Where a job that was not called off comes to with the calls for its phases: to the
    completion of its entry, or to its end with an error. -/
inductive IsEnd : Option BuildError → JobPlace → Prop
  | passed (outputs : Outputs) : IsEnd none (.committing outputs)
  | failed (error : BuildError) : IsEnd (some error) (.finished (.error error))

/-- A job of a request that is not called off, with its calls so far, which a runner
    answered. -/
structure Proceeds (workshop : Workshop) (answer : List Exchange → Attempt → Reply) (seen : List Event) (id : RequestId)
    (job : Job) (log : List Exchange) (pending : Option Attempt) : Prop where
  guarded : workshop.Guarded
  bound : workshop.config.retryAttempts.toNat < UInt32.size - 1
  answered : Answered answer log
  tracks : workshop.Tracks seen true id job.fingerprint log pending
  owned : ∃ request, workshop.requests[id]? = some request ∧ request.cancelled = false ∧ job ∈ request.jobs

variable {answer : List Exchange → Attempt → Reply}

theorem Proceeds.stands (proceeds : workshop.Proceeds answer seen id job log pending) :
    Job.Stands workshop.config job.derivation true job.place log pending := by
  obtain ⟨request, at', _, member⟩ := proceeds.owned
  exact proceeds.tracks.follows.stands (proceeds.guarded.books _ (List.mem_of_getElem? at')) at' member

/-- The job moves, and its request is not called off meanwhile. -/
theorem Proceeds.advance {request : Request} {after : Workshop} {moved : Job}
    (proceeds : workshop.Proceeds answer seen id job log pending) (at' : workshop.requests[id]? = some request)
    (open' : request.cancelled = false) (member : request.jobs.find? (·.fingerprint = job.fingerprint) = some job)
    (moves : workshop.advance id request job = (after, moved)) :
    ∃ next pending', workshop.step (.advance id job.fingerprint) = some next ∧ moved.derivation = job.derivation ∧
      next.Proceeds answer (seen ++ [.advance id job.fingerprint]) id moved log pending' := by
  have frame := advance_frame workshop id request job
  rw [moves] at frame
  have steps := step_advance at' member moves
  have books := proceeds.guarded.books _ (List.mem_of_getElem? at')
  obtain ⟨atLater, present⟩ := at_updateJob at' member frame.requests
  obtain ⟨pending', tracks⟩ := proceeds.tracks.advance books at' open' member moves
  have same : moved.fingerprint = job.fingerprint := by rw [Job.fingerprint, frame.derivation, Job.fingerprint]
  refine ⟨_, pending', steps, frame.derivation, proceeds.guarded.step (step_serves steps), ?_, proceeds.answered, ?_,
    _, atLater, open', present⟩
  · rw [(step_serves steps).config]
    exact proceeds.bound
  · rw [same]
    exact tracks

/-- The runner answers the call that the job waits for. -/
theorem Proceeds.reply {request : Request} {outputs : Outputs} {attempt : Attempt} {rest : List Phase}
    (proceeds : workshop.Proceeds answer seen id job log pending) (at' : workshop.requests[id]? = some request)
    (open' : request.cancelled = false) (member : request.jobs.find? (·.fingerprint = job.fingerprint) = some job)
    (running : job.place = .running outputs attempt rest) :
    ∃ next, workshop.step (.reply id job.fingerprint (answer log attempt) false) = some next ∧
      next.Proceeds answer (seen ++ [.reply id job.fingerprint (answer log attempt) false]) id
        (replied workshop.config job outputs attempt rest (answer log attempt)) (log ++ [(attempt, answer log attempt)])
        none := by
  have frame := replied_frame workshop.config job outputs attempt rest (answer log attempt)
  have books := proceeds.guarded.books _ (List.mem_of_getElem? at')
  have steps : workshop.step (.reply id job.fingerprint (answer log attempt) false) =
      some (workshop.setRequest id ({ request with cancelled := false }.updateJob job.fingerprint fun _ =>
        replied workshop.config job outputs attempt rest (answer log attempt))) := by
    simp [step, at', member, running, open']
  obtain ⟨atLater, present⟩ := at_updateJob at' member rfl
  have same : (replied workshop.config job outputs attempt rest (answer log attempt)).fingerprint = job.fingerprint := by
    rw [Job.fingerprint, frame.1, Job.fingerprint]
  refine ⟨_, steps, proceeds.guarded.step (step_serves steps), proceeds.bound, proceeds.answered.concat attempt, ?_, _,
    atLater, rfl, present⟩
  rw [same]
  exact (proceeds.tracks.reply books proceeds.bound at' member running (answer log attempt) false).2

/-- A job at its phases goes on there, nearer to its end, or it comes to its end, by moves of
    its own and answers of the runner. -/
theorem Proceeds.exists_next (proceeds : workshop.Proceeds answer seen id job log pending)
    (here : job.place.isAtPhases = true) :
    ∃ event next moved log' pending', event.works id job.fingerprint = true ∧ workshop.step event = some next ∧
      moved.derivation = job.derivation ∧ next.Proceeds answer (seen ++ [event]) id moved log' pending' ∧
      (moved.place.isAtPhases = true ∧ Job.toGo workshop.config moved.place < Job.toGo workshop.config job.place ∨
        ∃ ending, pending' = none ∧ IsEnd ending moved.place ∧
          Job.Performs workshop.config job.derivation job.derivation.phases log' ending) := by
  obtain ⟨request, at', open', present⟩ := proceeds.owned
  have member := (proceeds.guarded.books _ (List.mem_of_getElem? at')).find?_job present
  cases place : job.place with
  | between outputs rest =>
    have moves : workshop.advance id request job = (workshop, job.proceed workshop.config outputs rest) := by
      simp [Workshop.advance, open', place]
    obtain ⟨next, pending', steps, derivation, further⟩ := proceeds.advance at' open' member moves
    refine ⟨_, next, _, log, pending', by simp [Event.works], steps, derivation, further, ?_⟩
    rcases Job.proceed_nearer workshop.config job outputs rest with through | nearer
    · have stands := further.stands
      rw [through] at stands
      obtain ⟨rfl, performs⟩ := stands.through (Or.inl ⟨outputs, rfl⟩)
      refine Or.inr ⟨none, rfl, through ▸ .passed outputs, ?_⟩
      rwa [(step_serves steps).config, derivation] at performs
    · exact Or.inl nearer
  | calling outputs attempt rest =>
    have moves : workshop.advance id request job = workshop.call id job outputs attempt rest := by
      simp [Workshop.advance, open', place]
    obtain ⟨next, pending', steps, derivation, further⟩ := proceeds.advance at' open' member moves
    refine ⟨_, next, _, log, pending', by simp [Event.works], steps, derivation, further, Or.inl ⟨rfl, ?_⟩⟩
    simp [Job.toGo, Job.goTo]
  | running outputs attempt rest =>
    obtain ⟨next, steps, further⟩ := proceeds.reply at' open' member place
    have frame := replied_frame workshop.config job outputs attempt rest (answer log attempt)
    refine ⟨_, next, _, _, none, by simp [Event.works], steps, frame.1, further, ?_⟩
    rcases Job.replied_nearer proceeds.bound job outputs attempt rest (answer log attempt) with ⟨error, failed⟩ | nearer
    · have stands := proceeds.stands
      rw [place] at stands
      exact Or.inr ⟨some error, rfl, failed ▸ .failed error, (stands.replied proceeds.bound _).2.2 error failed⟩
    · exact Or.inl nearer
  | _ => simp [place, JobPlace.isAtPhases] at here

/-- A job at its phases comes to its end by moves of its own and answers of the runner. -/
theorem Proceeds.exists_end (proceeds : workshop.Proceeds answer seen id job log pending)
    (here : job.place.isAtPhases = true) :
    ∃ moves last ended full ending, (∀ event ∈ moves, event.works id job.fingerprint = true) ∧
      workshop.run moves = some last ∧ ended.derivation = job.derivation ∧
      last.Proceeds answer (seen ++ moves) id ended full none ∧ IsEnd ending ended.place ∧
      Job.Performs workshop.config job.derivation job.derivation.phases full ending := by
  induction far : Job.toGo workshop.config job.place using Nat.strong_induction_on
    generalizing workshop seen job log pending with
  | h distance ih =>
    subst far
    obtain ⟨event, next, moved, log', pending', works, steps, derivation, further, nearer | ⟨ending, rfl, atEnd, performs⟩⟩ :=
      proceeds.exists_next here
    · have config := (step_serves steps).config
      obtain ⟨moves, last, ended, full, ending, own, ran, derivation', final, atEnd, performs⟩ :=
        ih _ (by simpa only [config] using nearer.2) further nearer.1 rfl
      have same : moved.fingerprint = job.fingerprint := congrArg Derivation.fingerprint derivation
      rw [config, derivation] at performs
      rw [List.append_assoc, List.singleton_append] at final
      refine ⟨event :: moves, last, ended, full, ending, ?_, run_step steps ran, derivation'.trans derivation, final, atEnd,
        performs⟩
      intro other member
      rcases List.mem_cons.mp member with rfl | later
      · exact works
      · exact same ▸ own other later
    · refine ⟨[event], next, moved, log', ending, by simpa using works, run_step steps rfl, derivation, further, atEnd,
        performs⟩

/-! ### All the calls for a derivation -/

variable {node : Derivation}

/-- The job for a fingerprint stands where its request has come with the calls. -/
theorem Tracks.stands (tracks : workshop.Tracks seen begun id fingerprint log pending) (books : request.Books [])
    (at' : workshop.requests[id]? = some request) (known : request.graph.find? fingerprint = some node)
    (member : job ∈ request.jobs) (same : job.fingerprint = fingerprint) :
    Job.Stands workshop.config node begun job.place log pending := by
  obtain rfl := books.derivation_eq member same known
  subst same
  exact tracks.follows.stands books at' member

/-- Where a job that began with its phases was collected, all its calls were made. -/
theorem Tracks.collected (tracks : workshop.Tracks seen true id fingerprint log pending)
    (at' : workshop.requests[id]? = some request) (known : request.graph.find? fingerprint = some node)
    (without : ∀ job ∈ request.jobs, job.fingerprint ≠ fingerprint) :
    pending = none ∧ ∃ ending, Job.Performs workshop.config node node.phases log ending := by
  cases tracks.follows with
  | ahead unbegun absent => cases unbegun
  | job owns within same _ =>
    obtain rfl := Option.some.inj (at'.symm.trans owns)
    exact absurd same (without _ within)
  | settled owns found recorded ended =>
    obtain rfl := Option.some.inj (at'.symm.trans owns)
    obtain rfl := Option.some.inj (found.symm.trans known)
    exact ⟨rfl, ended rfl⟩

/-- A derivation with whose phases a job began has a list of all the calls for it, and a job
    that is still at its phases gets by its own moves to where it has made them. -/
theorem Tracks.finishes (tracks : workshop.Tracks seen true id fingerprint log pending) (guarded : workshop.Guarded)
    (bound : workshop.config.retryAttempts.toNat < UInt32.size - 1) (at' : workshop.requests[id]? = some request)
    (open' : request.cancelled = false) (known : request.graph.find? fingerprint = some node)
    (answered : Answered answer log) :
    ∃ full ending, Job.Performs workshop.config node node.phases full ending ∧ Answered answer full ∧
      workshop.attemptsOf id fingerprint <+: full.map Prod.fst ∧
      ∀ job ∈ request.jobs, job.fingerprint = fingerprint → job.place.isAtPhases = true →
        ∃ moves last final ended, (∀ event ∈ moves, event.works id fingerprint = true) ∧
          workshop.run moves = some last ∧ last.requests[id]? = some final ∧ ended ∈ final.jobs ∧
          ended.fingerprint = fingerprint ∧ last.attemptsOf id fingerprint = full.map Prod.fst ∧
          repliesTo id fingerprint (seen ++ moves) = full.map Prod.snd ∧ IsEnd ending ended.place := by
  have books := guarded.books request (List.mem_of_getElem? at')
  by_cases going : ∃ job ∈ request.jobs, job.fingerprint = fingerprint ∧ job.place.isAtPhases = true
  · obtain ⟨job, within, same, atPhases⟩ := going
    obtain rfl := books.derivation_eq within same known
    subst same
    have proceeds : workshop.Proceeds answer seen id job log pending :=
      ⟨guarded, bound, answered, tracks, request, at', open', within⟩
    obtain ⟨moves, last, ended, full, ending, own, onwards, itself, final, atEnd, performs⟩ := proceeds.exists_end atPhases
    have twin : ended.fingerprint = job.fingerprint := by rw [Job.fingerprint, itself, Job.fingerprint]
    have calls := final.tracks.calls
    rw [twin, Option.toList_none, List.append_nil] at calls
    obtain ⟨later, atLast, _, present⟩ := final.owned
    refine ⟨full, ending, performs, final.answered, calls ▸ attemptsOf_run onwards, fun _ _ _ _ => ?_⟩
    exact ⟨moves, last, later, ended, own, onwards, atLast, present, twin, calls, twin ▸ final.tracks.replies, atEnd⟩
  · -- a job that is over or completes its entry has made all its calls, as a collected one has
    have done : pending = none ∧ ∃ ending, Job.Performs workshop.config node node.phases log ending := by
      by_cases any : ∃ job ∈ request.jobs, job.fingerprint = fingerprint
      · obtain ⟨job, within, same⟩ := any
        refine (tracks.stands books at' known within same).complete ?_
        by_contra atPhases
        exact going ⟨job, within, same, by simpa using atPhases⟩
      · exact tracks.collected at' known fun job within same => any ⟨job, within, same⟩
    obtain ⟨rfl, ending, performs⟩ := done
    have calls := tracks.calls
    rw [Option.toList_none, List.append_nil] at calls
    refine ⟨log, ending, performs, answered, calls ▸ List.prefix_rfl, ?_⟩
    exact fun job within same atPhases => absurd ⟨job, within, same, atPhases⟩ going

end

/-- Whatever requests and jobs did before, and whatever happens afterwards, take a job that has
    made its entry and is about to go through its phases, and a later moment at which its
    request has not been called off. Its derivation's phases are those of the draft that it was
    built from, by standard phase, slot and declaration. The job had called the runner for
    nothing before. The calls since then and the replies to them are those of the place where
    the job stands: it has passed the phases before, each with its tries, and a job that is
    collected has made all its calls. For every runner that answers by the calls so far and
    gave these replies, one list of calls goes through the phases, with one ending; the calls
    so far are its first ones, and a job still at its phases gets by its own moves to where it
    has made exactly these. There it completes its entry if every phase that is not left out
    succeeded, and else it is over with the error of the first that did not. -/
theorem run_attempts {start mid after : Workshop} {earlier later : List Event} {id : RequestId} {request now : Request}
    {job : Job} {outputs : Outputs} (opens : ∀ request ∈ start.requests, ∃ roots, request.Opens roots)
    (uncalled : start.calls = []) (bound : start.config.retryAttempts.toNat < UInt32.size - 1)
    (came : start.run earlier = some mid) (at' : mid.requests[id]? = some request) (member : job ∈ request.jobs)
    (prepared : job.place = .between outputs job.derivation.phases) (ran : mid.run later = some after)
    (atNow : after.requests[id]? = some now) (uncancelled : now.cancelled = false) :
    (∀ draft : Draft, draft.build = job.derivation → Phase.InOrder draft.phases job.derivation.phases) ∧
    mid.attemptsOf id job.fingerprint = [] ∧
    ∃ log pending,
      after.attemptsOf id job.fingerprint = log.map Prod.fst ++ pending.toList ∧
      repliesTo id job.fingerprint later = log.map Prod.snd ∧
      (∀ moved ∈ now.jobs, moved.fingerprint = job.fingerprint →
        Job.Stands start.config job.derivation true moved.place log pending) ∧
      ((∀ moved ∈ now.jobs, moved.fingerprint ≠ job.fingerprint) →
        pending = none ∧ ∃ ending, Job.Performs start.config job.derivation job.derivation.phases log ending) ∧
      ∀ answer, Answered answer log →
        ∃ full ending, Job.Performs start.config job.derivation job.derivation.phases full ending ∧
          Answered answer full ∧
          (∀ other end', Job.Performs start.config job.derivation job.derivation.phases other end' →
            Answered answer other → other = full ∧ end' = ending) ∧
          after.attemptsOf id job.fingerprint <+: full.map Prod.fst ∧
          ∀ moved ∈ now.jobs, moved.fingerprint = job.fingerprint → moved.place.isAtPhases = true →
            ∃ moves last final ended, (∀ event ∈ moves, event.works id job.fingerprint = true) ∧
              after.run moves = some last ∧ last.requests[id]? = some final ∧ ended ∈ final.jobs ∧
              ended.fingerprint = job.fingerprint ∧ last.attemptsOf id job.fingerprint = full.map Prod.fst ∧
              repliesTo id job.fingerprint (later ++ moves) = full.map Prod.snd ∧ IsEnd ending ended.place := by
  have guardedMid : mid.Guarded := (Guarded.opens opens).run came
  have guarded : after.Guarded := guardedMid.run ran
  have configMid : mid.config = start.config := run_config came
  have config : after.config = start.config := (run_config ran).trans configMid
  have openNow (found : Request) (atFound : after.requests[id]? = some found) : found.cancelled = false := by
    obtain rfl : now = found := Option.some.inj (atNow.symm.trans atFound)
    exact uncancelled
  have openMid (found : Request) (atFound : mid.requests[id]? = some found) : found.cancelled = false :=
    uncancelled_of_run guardedMid atFound ran openNow
  obtain ⟨log₀, pending₀, tracksMid⟩ := (Tracks.start opens uncalled).run (Guarded.opens opens) bound came openMid
  have books := guardedMid.books request (List.mem_of_getElem? at')
  have begins := tracksMid.begins books at' member prepared
  obtain ⟨log, pending, tracks⟩ := begins.run guardedMid (configMid ▸ bound) ran openNow
  have known := find?_of_run guardedMid.books at' member ran atNow
  have stands (moved : Job) (within : moved ∈ now.jobs) (same : moved.fingerprint = job.fingerprint) :
      Job.Stands start.config job.derivation true moved.place log pending :=
    config ▸ tracks.stands (guarded.books now (List.mem_of_getElem? atNow)) atNow known within same
  have collected (without : ∀ moved ∈ now.jobs, moved.fingerprint ≠ job.fingerprint) :
      pending = none ∧ ∃ ending, Job.Performs start.config job.derivation job.derivation.phases log ending :=
    config ▸ tracks.collected atNow known without
  refine ⟨fun draft same => same ▸ draft.inOrder, by simpa using begins.calls, log, pending, tracks.calls, tracks.replies,
    stands, collected, fun answer answered => ?_⟩
  obtain ⟨full, ending, performs, answeredFull, so, finishes⟩ :=
    tracks.finishes guarded (config ▸ bound) atNow uncancelled known answered
  rw [config] at performs
  exact ⟨full, ending, performs, answeredFull,
    fun other end' performs' answered' => performs'.unique performs (answered'.agree answeredFull), so, finishes⟩

end Workshop

/-! ### A phase that is tried again, and one that is not -/

namespace Errand

/-- A phase that may be tried again. -/
def crafting : Phase := ⟨⟨.build, .main⟩, .plain "make", true⟩

/-- A hook of the check. -/
def probing : Phase := ⟨⟨.check, .pre⟩, .plain "make check", false⟩

/-- A phase that is tried once. -/
def placing : Phase := ⟨⟨.install, .main⟩, .plain "make install", false⟩

/-- A derivation with phases, in the place of `lib`. -/
def phased : Derivation := .mk "lib" none [] [crafting, probing, placing] ["out"] ⟨"a1"⟩

/-- The request for it, at its start. -/
def desired : Request := .ofGraph (BuildGraph.ofRoots [phased]) [phased.fingerprint] false

/-- A workshop that runs no checks and tries phases again once, with its job. -/
def smithy (disk : Disk) (calls : List Call) (request : Request) : Workshop :=
  ⟨⟨2, .never, 1, true, "/", none⟩, disk, .empty, calls, [request]⟩

/-- The request while its job is somewhere. -/
def occupied (place : JobPlace) : Request := { desired with ready := [], jobs := [⟨phased, [], place⟩] }

/-- What happens until the entry is made. -/
def outset : List Event := [.visit 0, .look 0, work, work, work, work, work]

/-- The first phase fails once and succeeds then, and the last one fails. -/
def efforts : List Event :=
  [work, work, .reply 0 phased.fingerprint (.exit (.ofCode 2)) false, work,
    .reply 0 phased.fingerprint (.exit .success) false, work, work, work, work,
    .reply 0 phased.fingerprint (.exit (.ofCode 3)) false]

/-- The disk with the entry of `lib`. -/
def begunDisk : Disk := ground (some [(".build", .empty), (".tmp", .empty), ("out", .empty)])

/-- The calls of the efforts, the latest first. -/
def effortCalls : List Call :=
  [⟨0, phased, ⟨placing, 1⟩, place, []⟩, ⟨0, phased, ⟨crafting, 2⟩, place, []⟩, ⟨0, phased, ⟨crafting, 1⟩, place, []⟩]

theorem opens_desired : desired.Opens [phased] := by
  refine ⟨List.Perm.refl _, rfl, ?_, rfl⟩
  exact (BuildGraph.closed_ofRoots [phased]).inputsFirst_of_perm (by decide) (by decide)

private theorem step_smithy {disk disk' : Disk} {here there : JobPlace}
    (moves : (smithy disk [] (occupied here)).advance 0 (occupied here) ⟨phased, [], here⟩ =
      (smithy disk' [] (occupied here), ⟨phased, [], there⟩)) :
    (smithy disk [] (occupied here)).step work = some (smithy disk' [] (occupied there)) := by
  have at' : (smithy disk [] (occupied here)).requests[0]? = some (occupied here) := rfl
  have member : (occupied here).jobs.find? (·.fingerprint = (⟨phased, [], here⟩ : Job).fingerprint) =
      some ⟨phased, [], here⟩ := rfl
  exact Workshop.step_advance at' member moves

theorem runs_outset : (smithy (ground none) [] desired).run outset =
    some (smithy begunDisk [] (occupied (.between place phased.phases))) := by
  have fresh (request : Request) : (smithy (ground none) [] request).offers phased = false := by
    rw [Workshop.offers_eq]
    change (false || (Store.lookup ⟨"/"⟩ (ground none) phased).isSome) = false
    have absent : Store.lookup ⟨"/"⟩ (ground none) phased = none := lookup_ground
    rw [absent]
    rfl
  have at' : (smithy (ground none) [] { occupied .queued with jobs := [], looking := some phased }).requests[0]? =
      some { occupied .queued with jobs := [], looking := some phased } := rfl
  have looked : (smithy (ground none) [] { occupied .queued with jobs := [], looking := some phased }).step (.look 0) =
      some (smithy (ground none) [] (occupied .queued)) := Workshop.step_look_of_missed at' rfl (fresh _)
  have missed : (smithy (ground none) [] (occupied .looking)).step work =
      some (smithy (ground none) [] (occupied .preparing)) :=
    step_smithy (Workshop.advance_of_missed rfl rfl (fresh _))
  have prepared : (smithy (ground none) [] (occupied .preparing)).step work =
      some (smithy begunDisk [] (occupied (.between place phased.phases))) := by
    refine step_smithy ?_
    have prepare : (smithy (ground none) [] (occupied .preparing)).store.prepare
        (smithy (ground none) [] (occupied .preparing)).disk phased = (begunDisk, .ok place) := prepare_ground
    change Workshop.prepare _ _ = _
    simp only [Workshop.prepare, prepare]
    rfl
  refine Workshop.run_step
    (rfl : _ = some (smithy (ground none) [] { occupied .queued with jobs := [], looking := some phased })) ?_
  refine Workshop.run_step looked ?_
  refine Workshop.run_step (rfl : _ = some (smithy (ground none) [] (occupied .admitted))) ?_
  refine Workshop.run_step (rfl : _ = some (smithy (ground none) [] (occupied .claimed))) ?_
  refine Workshop.run_step (rfl : _ = some (smithy (ground none) [] (occupied .looking))) ?_
  exact Workshop.run_step missed (Workshop.run_step prepared rfl)

theorem run_efforts : (smithy begunDisk [] (occupied (.between place phased.phases))).run efforts =
    some (smithy begunDisk effortCalls (occupied (.finished (.error (.phaseFailure "lib" placing.name (some 3)))))) := rfl

end Errand

open Errand in
/-- The phase that may be tried again is called twice, the hook of the check is left out, and
    the failure of the last phase ends the job. -/
theorem Workshop.run_attempts_errand : ∃ mid after log,
    (smithy (ground none) [] desired).run outset = some mid ∧ mid.run efforts = some after ∧
      log.map Prod.fst = [⟨crafting, 1⟩, ⟨crafting, 2⟩, ⟨placing, 1⟩] ∧
      repliesTo 0 phased.fingerprint efforts = log.map Prod.snd ∧
      Job.Performs (smithy (ground none) [] desired).config phased phased.phases log
        (some (.phaseFailure phased.name placing.name (some 3))) := by
  have opens : ∀ request ∈ (smithy (ground none) [] desired).requests, ∃ roots, request.Opens roots := by
    intro request member
    obtain rfl := List.mem_singleton.mp member
    exact ⟨[phased], opens_desired⟩
  have at' : (smithy begunDisk [] (occupied (.between place phased.phases))).requests[0]? =
      some (occupied (.between place phased.phases)) := rfl
  have atNow : (smithy begunDisk effortCalls
      (occupied (.finished (.error (.phaseFailure "lib" placing.name (some 3)))))).requests[0]? =
      some (occupied (.finished (.error (.phaseFailure "lib" placing.name (some 3))))) := rfl
  obtain ⟨_, _, log, pending, calls, replies, stands, _⟩ := Workshop.run_attempts opens rfl (by decide) runs_outset at'
    (List.mem_singleton_self _) rfl run_efforts atNow rfl
  have stands := stands _ (List.mem_singleton_self _) rfl
  cases stands with
  | idle unbegun idle => cases unbegun
  | passed through performs => cases through
  | failed performs =>
    rw [Option.toList_none, List.append_nil] at calls
    exact ⟨_, _, log, runs_outset, run_efforts, calls.symm, replies, performs⟩

end Pkgset

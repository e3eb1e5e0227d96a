import Pkgset.Build.Workshop
import Pkgset.Proofs.Build.Moves
import Pkgset.Proofs.Files.Ways

/-!
# A workshop at its requests

An event concerns one request at most, and what it does to that request is a move. A
job reaches the runner only through a call of its own. So what the moves of a request
preserve holds for every request of a workshop, whatever happens to the others.
-/

namespace Pkgset

/-- A request for some roots as it starts: whatever the orders in which tables list
    its derivations are, an order with the inputs first is gone through. -/
structure Request.Opens (roots : List Derivation) (request : Request) : Prop where
  nodes : request.graph.nodes.Perm (BuildGraph.ofRoots roots).nodes
  roots : request.graph.roots = (BuildGraph.ofRoots roots).roots
  order : request.graph.InputsFirst request.order
  fresh : request = .ofGraph request.graph request.order request.cancelled

theorem Request.opens_new {roots : List Derivation} {cancelled : Bool} {request : Request}
    (made : Request.new roots cancelled = .ok request) : request.Opens roots ∧ request.cancelled = cancelled := by
  unfold Request.new BuildGraph.fromRoots at made
  cases sorted : (BuildGraph.ofRoots roots).topological with
  | error error => simp [sorted, bind, Except.bind] at made
  | ok order =>
    simp only [sorted, bind, Except.bind, Except.ok.injEq] at made
    subst made
    exact ⟨⟨List.Perm.refl _, rfl, (BuildGraph.closed_ofRoots roots).inputsFirst_topological sorted, rfl⟩, rfl⟩

theorem Request.Opens.books {roots : List Derivation} {request : Request} (opens : request.Opens roots) :
    request.Books [] := by
  rw [opens.fresh]
  exact Request.Books.start ((BuildGraph.closed_ofRoots roots).perm opens.nodes) opens.order _

/-- A job as it is scheduled: the request, the derivation, the inputs that the job gets,
    and the records of the request at that moment. -/
structure Spawn where
  request : RequestId
  derivation : Derivation
  inputs : List Outputs
  report : BuildReport

namespace Workshop

/-- What an event does to a workshop. -/
inductive Serves (workshop : Workshop) : Event → Workshop → Prop where
  | request {roots : List Derivation} {cancelled : Bool} {request : Request}
      (made : Request.new roots cancelled = .ok request) :
      Serves workshop (.request roots cancelled) { workshop with requests := workshop.requests ++ [request] }
  | visit {id : RequestId} {request next : Request} (at' : workshop.requests[id]? = some request)
      (visits : request.visit = some next) : Serves workshop (.visit id) (workshop.setRequest id next)
  | look {id : RequestId} {request : Request} {derivation : Derivation} (at' : workshop.requests[id]? = some request)
      (looking : request.looking = some derivation) :
      Serves workshop (.look id)
        ((workshop.fetch derivation).1.setRequest id (request.looked derivation (workshop.fetch derivation).2))
  | advance {id : RequestId} {request : Request} {job : Job} (at' : workshop.requests[id]? = some request)
      (member : request.jobs.find? (·.fingerprint = job.fingerprint) = some job) :
      Serves workshop (.advance id job.fingerprint)
        ((workshop.advance id request job).1.setRequest id
          (request.updateJob job.fingerprint fun _ => (workshop.advance id request job).2))
  | reply {id : RequestId} {request : Request} {job : Job} {outputs : Outputs} {attempt : Attempt} {rest : List Phase}
      {reply : Reply} {cancels : Bool} (at' : workshop.requests[id]? = some request)
      (member : request.jobs.find? (·.fingerprint = job.fingerprint) = some job)
      (running : job.place = .running outputs attempt rest) (open' : request.cancelled = false) :
      Serves workshop (.reply id job.fingerprint reply cancels)
        (workshop.setRequest id ({ request with cancelled := cancels }.updateJob job.fingerprint fun _ =>
          replied workshop.config job outputs attempt rest reply))
  | join {id : RequestId} {request next : Request} {fingerprint : Fingerprint}
      (at' : workshop.requests[id]? = some request) (joins : request.join workshop.config fingerprint = some next) :
      Serves workshop (.join id fingerprint) (workshop.setRequest id next)
  | close {id : RequestId} {request next : Request} (at' : workshop.requests[id]? = some request)
      (closes : request.close = some next) : Serves workshop (.close id) (workshop.setRequest id next)
  | cancel {id : RequestId} {request : Request} (at' : workshop.requests[id]? = some request) :
      Serves workshop (.cancel id) (workshop.setRequest id { request with cancelled := true })
  | write (disk : Disk) : Serves workshop (.write disk) { workshop with disk }

theorem step_serves {workshop next : Workshop} {event : Event} (steps : workshop.step event = some next) :
    workshop.Serves event next := by
  cases event with
  | request roots cancelled =>
    obtain ⟨request, made, shape⟩ := Option.bind_eq_some_iff.mp steps
    cases shape
    cases found : Request.new roots cancelled with
    | error error => simp [found, Except.toOption] at made
    | ok request' =>
      simp only [found, Except.toOption, Option.some.injEq] at made
      exact made ▸ .request found
  | visit id =>
    obtain ⟨request, at', steps⟩ := Option.bind_eq_some_iff.mp steps
    obtain ⟨after, visits, shape⟩ := Option.bind_eq_some_iff.mp steps
    cases shape
    exact .visit at' visits
  | look id =>
    obtain ⟨request, at', steps⟩ := Option.bind_eq_some_iff.mp steps
    obtain ⟨derivation, looking, shape⟩ := Option.bind_eq_some_iff.mp steps
    cases shape
    exact .look at' looking
  | advance id fingerprint =>
    obtain ⟨request, at', steps⟩ := Option.bind_eq_some_iff.mp steps
    obtain ⟨job, member, shape⟩ := Option.bind_eq_some_iff.mp steps
    have same : job.fingerprint = fingerprint := by simpa using List.find?_some member
    subst same
    cases shape
    exact .advance at' member
  | reply id fingerprint reply cancels =>
    obtain ⟨request, at', steps⟩ := Option.bind_eq_some_iff.mp steps
    obtain ⟨job, member, shape⟩ := Option.bind_eq_some_iff.mp steps
    have same : job.fingerprint = fingerprint := by simpa using List.find?_some member
    subst same
    split at shape
    next outputs attempt rest running open' =>
      cases shape
      exact .reply at' member running open'
    next => cases shape
  | join id fingerprint =>
    obtain ⟨request, at', steps⟩ := Option.bind_eq_some_iff.mp steps
    obtain ⟨after, joins, shape⟩ := Option.bind_eq_some_iff.mp steps
    cases shape
    exact .join at' joins
  | close id =>
    obtain ⟨request, at', steps⟩ := Option.bind_eq_some_iff.mp steps
    obtain ⟨after, closes, shape⟩ := Option.bind_eq_some_iff.mp steps
    cases shape
    exact .close at' closes
  | cancel id =>
    obtain ⟨request, at', shape⟩ := Option.bind_eq_some_iff.mp steps
    cases shape
    exact .cancel at'
  | write disk =>
    cases steps
    exact .write disk

/-! ### What is there -/

/-- Whether outputs of a derivation are remembered or found in the store. -/
def offers (workshop : Workshop) (derivation : Derivation) : Bool := (workshop.fetch derivation).2.isSome

theorem found_eq (workshop : Workshop) (node : Derivation) :
    (workshop.fetch node).2 =
      (workshop.cache.get? node.fingerprint).or (workshop.store.lookup workshop.disk node) := by
  unfold fetch BuildCache.fetch
  cases remembered : workshop.cache.get? node.fingerprint with
  | some outputs => rfl
  | none =>
    cases found : workshop.store.lookup workshop.disk node with
    | none => rfl
    | some outputs => simp [BuildCache.insert, remembered]

theorem offers_eq (workshop : Workshop) (node : Derivation) :
    workshop.offers node =
      ((workshop.cache.get? node.fingerprint).isSome || (workshop.store.lookup workshop.disk node).isSome) := by
  rw [offers, found_eq, Option.isSome_or]

theorem get?_remember_of_ne (cache : BuildCache) {fingerprint other : Fingerprint} (differs : other ≠ fingerprint)
    (outputs : Outputs) : (cache.insert fingerprint outputs).1.get? other = cache.get? other := by
  have texts : other.text ≠ fingerprint.text := by
    intro same
    cases other
    cases fingerprint
    exact differs (congrArg Fingerprint.mk same)
  unfold BuildCache.insert
  split
  · rfl
  · simp [BuildCache.get?, Dict.get?_insert, texts]

/-- Looking for the outputs of a derivation changes what is remembered for it alone. -/
theorem get?_fetch_of_ne (workshop : Workshop) {derivation : Derivation} {fingerprint : Fingerprint}
    (differs : fingerprint ≠ derivation.fingerprint) :
    (workshop.fetch derivation).1.cache.get? fingerprint = workshop.cache.get? fingerprint := by
  change (workshop.cache.fetch workshop.store workshop.disk derivation).1.get? fingerprint = _
  unfold BuildCache.fetch
  split
  · rfl
  · split
    · rfl
    · exact get?_remember_of_ne _ differs _

theorem offers_fetch_of_ne (workshop : Workshop) {derivation node : Derivation}
    (differs : node.fingerprint ≠ derivation.fingerprint) :
    (workshop.fetch derivation).1.offers node = workshop.offers node := by
  rw [offers_eq, offers_eq, get?_fetch_of_ne workshop differs]
  rfl

/-- What is remembered is found and leaves the cache as it is. -/
theorem fetch_of_remembered {workshop : Workshop} {node : Derivation} {outputs : Outputs}
    (known : workshop.cache.get? node.fingerprint = some outputs) : workshop.fetch node = (workshop, some outputs) := by
  simp [fetch, BuildCache.fetch, known]

/-- What was not found leaves the cache as it is. -/
theorem fetch_of_missed {workshop : Workshop} {derivation : Derivation} (missed : workshop.offers derivation = false) :
    workshop.fetch derivation = (workshop, none) := by
  rw [offers_eq, Bool.or_eq_false_iff] at missed
  obtain ⟨forgotten, absent⟩ := missed
  have forgotten : workshop.cache.get? derivation.fingerprint = none := by simpa using forgotten
  have absent : workshop.store.lookup workshop.disk derivation = none := by simpa using absent
  simp only [fetch, BuildCache.fetch, forgotten, absent]

theorem step_look_of_missed {workshop : Workshop} {id : RequestId} {request : Request} {derivation : Derivation}
    (at' : workshop.requests[id]? = some request) (looking : request.looking = some derivation)
    (missed : workshop.offers derivation = false) :
    workshop.step (.look id) = some (workshop.setRequest id (request.looked derivation none)) := by
  simp [step, at', looking, fetch_of_missed missed]

theorem advance_of_missed {workshop : Workshop} {id : RequestId} {request : Request} {job : Job}
    (open' : request.cancelled = false) (place : job.place = .looking) (missed : workshop.offers job.derivation = false) :
    workshop.advance id request job = (workshop, job.goTo .preparing) := by
  simp [advance, open', place, fetch_of_missed missed]

theorem step_advance {workshop : Workshop} {id : RequestId} {request : Request} {job : Job}
    (at' : workshop.requests[id]? = some request)
    (member : request.jobs.find? (·.fingerprint = job.fingerprint) = some job) {after : Workshop} {moved : Job}
    (moves : workshop.advance id request job = (after, moved)) :
    workshop.step (.advance id job.fingerprint) =
      some (after.setRequest id (request.updateJob job.fingerprint fun _ => moved)) := by
  simp [step, at', member, moves]

/-! ### What an event schedules -/

/-- The job that an event schedules, if it does. -/
def spawn? (workshop : Workshop) : Event → Option Spawn
  | .look id => do
    let request ← workshop.requests[id]?
    let derivation ← request.looking
    if (workshop.fetch derivation).2.isSome then none
    else some ⟨id, derivation, request.inputsFor derivation, request.report⟩
  | _ => none

theorem spawn?_look_of_missed {workshop : Workshop} {id : RequestId} {request : Request} {derivation : Derivation}
    (at' : workshop.requests[id]? = some request) (looking : request.looking = some derivation)
    (missed : workshop.offers derivation = false) :
    workshop.spawn? (.look id) = some ⟨id, derivation, request.inputsFor derivation, request.report⟩ := by
  simp [spawn?, at', looking, fetch_of_missed missed]

/-! ### What an event leaves as it is -/

theorem replied_frame (config : BuildConfig) (job : Job) (outputs : Outputs) (attempt : Attempt) (rest : List Phase)
    (reply : Reply) :
    (replied config job outputs attempt rest reply).derivation = job.derivation ∧
      (replied config job outputs attempt rest reply).inputs = job.inputs := by
  cases reply with
  | exit status =>
    simp only [replied, Job.exited]
    split
    · exact ⟨rfl, rfl⟩
    · split <;> exact ⟨rfl, rfl⟩
  | error error => exact ⟨rfl, rfl⟩
  | crash => exact ⟨rfl, rfl⟩

/-- A job that moves changes files, the cache and the calls at most, and it keeps its
    derivation and inputs. A call of the runner is for the job. -/
structure AdvanceFrame (workshop : Workshop) (id : RequestId) (job : Job) (after : Workshop × Job) : Prop where
  requests : after.1.requests = workshop.requests
  config : after.1.config = workshop.config
  derivation : after.2.derivation = job.derivation
  inputs : after.2.inputs = job.inputs
  calls : after.1.calls = workshop.calls ∨ ∃ attempt outputs,
    after.1.calls = ⟨id, job.derivation, attempt, outputs, job.inputs⟩ :: workshop.calls

theorem advance_frame (workshop : Workshop) (id : RequestId) (request : Request) (job : Job) :
    AdvanceFrame workshop id job (workshop.advance id request job) := by
  fun_cases Workshop.advance workshop id request job with
  | case8 waits place after outputs fetched =>
    obtain rfl : (workshop.fetch job.derivation).1 = after := congrArg Prod.fst fetched
    exact ⟨rfl, rfl, rfl, rfl, Or.inl rfl⟩
  | case9 waits place after fetched =>
    obtain rfl : (workshop.fetch job.derivation).1 = after := congrArg Prod.fst fetched
    exact ⟨rfl, rfl, rfl, rfl, Or.inl rfl⟩
  | case10 waits place =>
    unfold Workshop.prepare
    split <;> exact ⟨rfl, rfl, rfl, rfl, Or.inl rfl⟩
  | case11 waits outputs rest place =>
    fun_cases Job.proceed workshop.config job outputs rest <;> exact ⟨rfl, rfl, rfl, rfl, Or.inl rfl⟩
  | case12 waits outputs attempt rest place => exact ⟨rfl, rfl, rfl, rfl, Or.inr ⟨attempt, outputs, rfl⟩⟩
  | case14 waits outputs place =>
    unfold Workshop.commit
    split <;> exact ⟨rfl, rfl, rfl, rfl, Or.inl rfl⟩
  | _ => exact ⟨rfl, rfl, rfl, rfl, Or.inl rfl⟩

/-! ### What an event does to a request -/

/-- What an event that concerns a request makes of it. -/
inductive Undergoes (workshop : Workshop) (id : RequestId) (request : Request) : Event → Request → Prop where
  | visit {next : Request} (visits : request.visit = some next) : Undergoes workshop id request (.visit id) next
  | look {derivation : Derivation} (looking : request.looking = some derivation) :
      Undergoes workshop id request (.look id) (request.looked derivation (workshop.fetch derivation).2)
  | advance {job : Job} (member : request.jobs.find? (·.fingerprint = job.fingerprint) = some job) :
      Undergoes workshop id request (.advance id job.fingerprint)
        (request.updateJob job.fingerprint fun _ => (workshop.advance id request job).2)
  | reply {job : Job} {outputs : Outputs} {attempt : Attempt} {rest : List Phase} {reply : Reply} {cancels : Bool}
      (member : request.jobs.find? (·.fingerprint = job.fingerprint) = some job)
      (running : job.place = .running outputs attempt rest) (open' : request.cancelled = false) :
      Undergoes workshop id request (.reply id job.fingerprint reply cancels)
        ({ request with cancelled := cancels }.updateJob job.fingerprint fun _ =>
          replied workshop.config job outputs attempt rest reply)
  | join {next : Request} {fingerprint : Fingerprint} (joins : request.join workshop.config fingerprint = some next) :
      Undergoes workshop id request (.join id fingerprint) next
  | close {next : Request} (closes : request.close = some next) : Undergoes workshop id request (.close id) next
  | cancel : Undergoes workshop id request (.cancel id) { request with cancelled := true }

/-- A request is put in the place of one: that one became it, and the others are as they were. -/
private theorem undergoes_set {workshop : Workshop} {event : Event} {id other : RequestId}
    {request owner changed : Request} (owns : workshop.requests[other]? = some owner)
    (changes : workshop.Undergoes other owner event changed) (at' : workshop.requests[id]? = some request) :
    ∃ request', (workshop.requests.set other changed)[id]? = some request' ∧
      (request' = request ∨ workshop.Undergoes id request event request') := by
  by_cases here : other = id
  · subst here
    obtain rfl : owner = request := Option.some.inj (owns.symm.trans at')
    obtain ⟨inside, _⟩ := List.getElem?_eq_some_iff.mp at'
    exact ⟨changed, by simp [inside], Or.inr changes⟩
  · exact ⟨request, by rw [List.getElem?_set_ne here, at'], Or.inl rfl⟩

/-- A request that is there stays there, and is left as it is by what does not concern it. -/
theorem Serves.undergoes {workshop next : Workshop} {event : Event} {id : RequestId} {request : Request}
    (serves : workshop.Serves event next) (at' : workshop.requests[id]? = some request) :
    ∃ request', next.requests[id]? = some request' ∧
      (request' = request ∨ workshop.Undergoes id request event request') := by
  cases serves with
  | request made =>
    obtain ⟨inside, _⟩ := List.getElem?_eq_some_iff.mp at'
    exact ⟨request, by rw [List.getElem?_append_left inside, at'], Or.inl rfl⟩
  | visit owns visits => exact undergoes_set owns (.visit visits) at'
  | look owns looking => exact undergoes_set owns (.look looking) at'
  | @advance other owner job owns member =>
    rw [setRequest, (advance_frame workshop other owner job).requests]
    exact undergoes_set owns (.advance member) at'
  | reply owns member running open' => exact undergoes_set owns (.reply member running open') at'
  | join owns joins => exact undergoes_set owns (.join joins) at'
  | close owns closes => exact undergoes_set owns (.close closes) at'
  | cancel owns => exact undergoes_set owns .cancel at'
  | write disk => exact ⟨request, at', Or.inl rfl⟩

/-! ### What an event does to the requests -/

/-- What an event comes to for the requests: one starts, one moves and perhaps schedules
    a job, or all stay as they are. -/
inductive Turn (workshop next : Workshop) : Option Spawn → Prop where
  | opens {roots : List Derivation} {request : Request} (opens : request.Opens roots)
      (requests : next.requests = workshop.requests ++ [request]) : Turn workshop next none
  | moves {id : RequestId} {request request' : Request} (at' : workshop.requests[id]? = some request)
      (moves : request.Moves workshop.config none request') (requests : next.requests = workshop.requests.set id request') :
      Turn workshop next none
  | schedules {id : RequestId} {request request' : Request} {derivation : Derivation}
      (at' : workshop.requests[id]? = some request) (looking : request.looking = some derivation)
      (moves : request.Moves workshop.config (some (derivation, request.inputsFor derivation)) request')
      (requests : next.requests = workshop.requests.set id request') :
      Turn workshop next (some ⟨id, derivation, request.inputsFor derivation, request.report⟩)
  | idle (requests : next.requests = workshop.requests) : Turn workshop next none

theorem Serves.turn {workshop next : Workshop} {event : Event} (serves : workshop.Serves event next) :
    workshop.Turn next (workshop.spawn? event) := by
  cases serves with
  | request made => exact .opens (Request.opens_new made).1 rfl
  | visit at' visits => exact .moves at' (.visit visits) rfl
  | @look id request derivation at' looking =>
    cases found : (workshop.fetch derivation).2 with
    | some outputs =>
      have nothing : workshop.spawn? (.look id) = none := by simp [spawn?, at', looking, found]
      rw [nothing]
      exact .moves at' (.look looking outputs) rfl
    | none =>
      have spawns : workshop.spawn? (.look id) =
          some ⟨id, derivation, request.inputsFor derivation, request.report⟩ := by
        simp [spawn?, at', looking, found]
      rw [spawns]
      exact .schedules at' looking (.schedule looking) rfl
  | @advance id request job at' member =>
    have frame := advance_frame workshop id request job
    refine .moves at' (.job member _ frame.derivation frame.inputs request.cancelled) ?_
    simp only [setRequest, frame.requests]
  | @reply id request job outputs attempt rest reply cancels at' member running open' =>
    obtain ⟨derivation, inputs⟩ := replied_frame workshop.config job outputs attempt rest reply
    exact .moves at' (.job member _ derivation inputs cancels) rfl
  | join at' joins => exact .moves at' (.join joins) rfl
  | close at' closes => exact .moves at' (.close closes) rfl
  | cancel at' => exact .moves at' .cancel rfl
  | write disk => exact .idle rfl

/-- A request that was not there before has just started. -/
theorem Serves.opens {workshop next : Workshop} {event : Event} {id : RequestId} {request : Request}
    (serves : workshop.Serves event next) (before : workshop.requests[id]? = none)
    (at' : next.requests[id]? = some request) : ∃ roots, request.Opens roots := by
  have beyond : workshop.requests.length ≤ id := List.getElem?_eq_none_iff.mp before
  have turn := serves.turn
  generalize workshop.spawn? event = spawn at turn
  have inside := (List.getElem?_eq_some_iff.mp at').1
  cases turn with
  | @opens roots made opens requests =>
    rw [requests, List.getElem?_append_right beyond] at at'
    exact ⟨roots, List.mem_singleton.mp (List.mem_of_getElem? at') ▸ opens⟩
  | moves owns moves requests =>
    rw [requests, List.length_set] at inside
    omega
  | schedules owns looking moves requests =>
    rw [requests, List.length_set] at inside
    omega
  | idle requests =>
    rw [requests] at inside
    omega

/-- A request that is there after an event has just started, or the event left it as it was,
    or made it of one that was there. -/
theorem Serves.origin {workshop next : Workshop} {event : Event} {id : RequestId} {request : Request}
    (serves : workshop.Serves event next) (at' : next.requests[id]? = some request) :
    (∃ roots, request.Opens roots) ∨ ∃ before, workshop.requests[id]? = some before ∧
      (request = before ∨ workshop.Undergoes id before event request) := by
  cases was : workshop.requests[id]? with
  | none => exact Or.inl (serves.opens was at')
  | some before =>
    obtain ⟨request', atNow, undergoes⟩ := serves.undergoes was
    obtain rfl : request' = request := Option.some.inj (atNow.symm.trans at')
    exact Or.inr ⟨before, rfl, undergoes⟩

/-- In a workshop that serves one request, nothing concerns another. -/
theorem eq_of_lone {workshop : Workshop} {id : RequestId} {request request' : Request} (lone : workshop.requests = [request])
    (at' : workshop.requests[id]? = some request') : id = 0 ∧ request = request' := by
  rw [lone] at at'
  obtain ⟨inside, rfl⟩ := List.getElem?_eq_some_iff.mp at'
  obtain rfl : id = 0 := by simpa using inside
  exact ⟨rfl, rfl⟩

theorem Serves.config {workshop next : Workshop} {event : Event} (serves : workshop.Serves event next) :
    next.config = workshop.config := by
  cases serves with
  | @advance id request job at' member => exact (advance_frame workshop id request job).config
  | _ => rfl

/-- The runner is called for jobs of requests only. -/
theorem Serves.calls {workshop next : Workshop} {event : Event} (serves : workshop.Serves event next) :
    next.calls = workshop.calls ∨ ∃ id request job attempt outputs, workshop.requests[id]? = some request ∧
      job ∈ request.jobs ∧ next.calls = ⟨id, job.derivation, attempt, outputs, job.inputs⟩ :: workshop.calls := by
  cases serves with
  | @advance id request job at' member =>
    rcases (advance_frame workshop id request job).calls with same | ⟨attempt, outputs, called⟩
    · exact Or.inl same
    · exact Or.inr ⟨id, request, job, attempt, outputs, at', List.mem_of_find?_eq_some member, called⟩
  | _ => exact Or.inl rfl

private theorem set_books {workshop next : Workshop} {id : RequestId} {request request' : Request}
    (books : ∀ request ∈ workshop.requests, request.Books []) (at' : workshop.requests[id]? = some request)
    (moved : request'.Books [] ∧ request.Continues request') (requests : next.requests = workshop.requests.set id request') :
    (∀ request ∈ next.requests, request.Books []) ∧
      ∀ (id : RequestId) request, workshop.requests[id]? = some request →
        ∃ request', next.requests[id]? = some request' ∧ request.Continues request' := by
  rw [requests]
  refine ⟨fun other member => ?_, fun id' other at'' => ?_⟩
  · rcases List.mem_or_eq_of_mem_set member with old | rfl
    · exact books other old
    · exact moved.1
  · obtain ⟨inside, _⟩ := List.getElem?_eq_some_iff.mp at''
    by_cases here : id = id'
    · subst here
      obtain rfl : request = other := Option.some.inj (at'.symm.trans at'')
      exact ⟨request', by simp [inside], moved.2⟩
    · exact ⟨other, by simpa [List.getElem?_set_ne here] using at'', .refl other⟩

/-- Every request has its books in agreement after an event, and goes on. -/
theorem Turn.books {workshop next : Workshop} {spawn : Option Spawn} (turn : workshop.Turn next spawn)
    (books : ∀ request ∈ workshop.requests, request.Books []) :
    (∀ request ∈ next.requests, request.Books []) ∧
      ∀ (id : RequestId) request, workshop.requests[id]? = some request →
        ∃ request', next.requests[id]? = some request' ∧ request.Continues request' := by
  cases turn with
  | @opens roots request opens requests =>
    rw [requests]
    refine ⟨fun other member => ?_, fun id other at' => ?_⟩
    · rcases List.mem_append.mp member with old | new
      · exact books other old
      · rw [List.mem_singleton.mp new]
        exact opens.books
    · obtain ⟨inside, _⟩ := List.getElem?_eq_some_iff.mp at'
      exact ⟨other, by rw [List.getElem?_append_left inside]; exact at', .refl other⟩
  | moves at' moves requests => exact set_books books at' ((books _ (List.mem_of_getElem? at')).moves moves) requests
  | schedules at' looking moves requests =>
    exact set_books books at' ((books _ (List.mem_of_getElem? at')).moves moves) requests
  | idle requests =>
    rw [requests]
    exact ⟨books, fun _ request at' => ⟨request, at', .refl request⟩⟩

theorem run_cons {workshop after : Workshop} {event : Event} {rest : List Event}
    (ran : workshop.run (event :: rest) = some after) :
    ∃ next, workshop.step event = some next ∧ next.run rest = some after := by
  simpa only [run, List.foldlM_cons, Option.bind_eq_some_iff, bind] using ran

theorem run_append (workshop : Workshop) (first second : List Event) :
    workshop.run (first ++ second) = (workshop.run first).bind fun between => between.run second :=
  List.foldlM_append

/-- What happens next is known, and what happens after it. -/
theorem run_step {workshop next after : Workshop} {event : Event} {rest : List Event}
    (steps : workshop.step event = some next) (onwards : next.run rest = some after) :
    workshop.run (event :: rest) = some after := by
  rw [run, List.foldlM_cons, steps]
  exact onwards

/-- One run after another. -/
theorem run_trans {workshop between after : Workshop} {first second : List Event}
    (ran : workshop.run first = some between) (onwards : between.run second = some after) :
    workshop.run (first ++ second) = some after := by
  rw [run_append, ran]
  exact onwards

end Workshop

/-! ### A store that nothing can be written to -/

namespace Errand

/-- An input that has to be made. -/
def lib : Derivation := .mk "lib" none [] [] ["out"] ⟨"a1"⟩

/-- Another input. -/
def tool : Derivation := .mk "tool" none [] [] ["out"] ⟨"b2"⟩

/-- What is asked for; it declares one of its inputs twice. -/
def app : Derivation := .mk "app" none [lib, tool, lib] [] ["out"] ⟨"c3"⟩

/-- Files of which one is where the store should be. -/
def disk : Disk := ⟨.folder [("s", .file [] .ordinary)]⟩

/-- The store that cannot be there. -/
def store : Store := ⟨"/s"⟩

/-- The request, at its start. -/
def asked : Request :=
  .ofGraph (BuildGraph.ofRoots [app]) [tool.fingerprint, lib.fingerprint, app.fingerprint] false

/-- A workshop that remembers outputs of some derivations, with the request somewhere
    on its way. -/
def shop (remembered : List Derivation) (request : Request) : Workshop where
  config := ⟨2, .always, 0, true, store.root, none⟩
  disk := disk
  cache := ⟨remembered.map fun node => (node.fingerprint.text, store.outputsFor node)⟩
  calls := []
  requests := [request]

/-- The record of a derivation that is remembered. -/
def recalled (node : Derivation) : String × BuildRecord :=
  (node.fingerprint.text, ⟨node.name, .succeeded (store.outputsFor node) true⟩)

theorem opens_asked : asked.Opens [app] := by
  refine ⟨List.Perm.refl _, rfl, ?_, rfl⟩
  exact (BuildGraph.closed_ofRoots [app]).inputsFirst_of_perm (by decide) (by decide)

section
variable {path name : String} {rest : List String}

theorem isEmpty_eq_false (steps : Disk.steps path = "s" :: name :: rest) : path.isEmpty = false := by
  by_contra empty
  obtain rfl : path = "" := by simpa using empty
  have pieces : (Path.pieces "").filter (· ≠ "") = [] := rfl
  rw [Disk.steps, pieces, List.nil_append] at steps
  split at steps
  · exact absurd (List.cons.inj steps).1 (by decide)
  · cases steps

/-- A path into the store leads nowhere. -/
theorem target_blocked (steps : Disk.steps path = "s" :: name :: rest) (follow : Bool) :
    ∃ error, disk.target follow path = .error error ∧ error ≠ .notFound := by
  have walk : Disk.walk disk.root follow Disk.linkLimit [] (Disk.steps path) = .error .notFolder := by
    have short : ¬ Disk.nameLimit < "s".utf8ByteSize := by decide
    rw [steps, Disk.walk]
    simp only [disk, Node.at?, Dict.get?, short, String.reduceEq, ↓reduceIte, List.nil_append]
    rw [Disk.walk]
    simp [Node.at?, Dict.get?]
  unfold Disk.target
  rw [walk, isEmpty_eq_false steps]
  split
  · exact ⟨_, rfl, by simp⟩
  · simp only [Bool.false_eq_true, ↓reduceIte]
    split
    · exact ⟨_, rfl, by simp⟩
    · exact ⟨_, rfl, by simp⟩

theorem leadsToNode_blocked (steps : Disk.steps path = "s" :: name :: rest) : disk.leadsToNode path = false := by
  obtain ⟨error, target, _⟩ := target_blocked steps true
  simp [Disk.leadsToNode, Disk.node, Disk.place, target, bind, Except.bind, Except.toBool]

theorem lookup_blocked {node : Derivation}
    (steps : Disk.steps (Path.join (store.entryPath node) StoreMarker.fileName) = "s" :: name :: rest) :
    store.lookup disk node = none := by
  have absent := leadsToNode_blocked steps
  simp [Store.lookup, Store.readMarker, Store.outputsFor, absent]

/-- No folder can be made in the store. -/
theorem makeFolders_blocked (steps : Disk.steps path = "s" :: name :: rest)
    (bare : String.ofList (path.toList.reverse.dropWhile (· = '/')).reverse = path) :
    ∃ error, disk.makeFolders path = (disk, .error error) := by
  obtain ⟨error, target, other⟩ := target_blocked steps false
  have made : disk.makeFolder path = .error error := by
    simp only [Disk.makeFolder, bare, Disk.create, target, bind, Except.bind]
  have noFolder : disk.isFolder path = false := by
    obtain ⟨error, target, _⟩ := target_blocked steps true
    simp [Disk.isFolder, Disk.node, Disk.place, target, bind, Except.bind]
  exact ⟨error, Disk.makeFoldersWithin_of_refused (isEmpty_eq_false steps) made other noFolder _⟩

end

/-- How paths into that store are spelled. -/
theorem spelled :
    Disk.steps (store.entryPath lib) = "s" :: "a1-lib" :: [] ∧
    Disk.steps (Path.join (store.entryPath lib) "out") = "s" :: "a1-lib" :: ["out"] ∧
    String.ofList ((Path.join (store.entryPath lib) "out").toList.reverse.dropWhile (· = '/')).reverse =
      Path.join (store.entryPath lib) "out" ∧
    Disk.steps (Path.join (store.entryPath lib) StoreMarker.fileName) = "s" :: "a1-lib" :: [StoreMarker.fileName] ∧
    Disk.steps (Path.join (store.entryPath app) StoreMarker.fileName) = "s" :: "c3-app" :: [StoreMarker.fileName] := by
  decide +kernel

theorem lookup_lib : store.lookup disk lib = none := lookup_blocked spelled.2.2.2.1

theorem lookup_app : store.lookup disk app = none := lookup_blocked spelled.2.2.2.2

/-- What is not remembered is not there. -/
theorem offers_of_forgotten {remembered : List Derivation} {now : Request} {node : Derivation}
    (forgotten : (shop remembered now).cache.get? node.fingerprint = none) (absent : store.lookup disk node = none) :
    (shop remembered now).offers node = false := by
  rw [Workshop.offers_eq, forgotten]
  change (false || (store.lookup disk node).isSome) = false
  rw [absent]
  rfl

end Errand
end Pkgset

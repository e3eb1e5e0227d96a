import Pkgset.Build.Request
import Pkgset.Store.Cache

/-!
# The workshop

A workshop serves build requests with one configuration, store and cache. Requests
and jobs move in small steps, in any order; an event says which one moves. Each
request has its own permits, while a fingerprint has one claim in the whole workshop.
The runner is outside: a job calls it, and its reply is an event.
-/

namespace Pkgset

/-- A request of a workshop, by its place. -/
abbrev RequestId := Nat

/-- A call of the runner. -/
structure Call where
  request : RequestId
  derivation : Derivation
  attempt : Attempt
  outputs : Outputs
  inputs : List Outputs

/-- What the runner replies to a call: an exit status or an error, or it crashes. -/
inductive Reply where
  | exit (status : PhaseExit)
  | error (error : BuildError)
  | crash
  deriving DecidableEq, Repr

/-- One configuration, its files and cache, the calls so far, the latest first, and
    the requests. -/
structure Workshop where
  config : BuildConfig
  disk : Disk
  cache : BuildCache
  calls : List Call
  requests : List Request

/-- What happens next. -/
inductive Event where
  /-- A request starts. -/
  | request (roots : List Derivation) (cancelled : Bool)
  /-- A request takes the next ready derivation. -/
  | visit (request : RequestId)
  /-- A request looks for the outputs of the derivation that it has taken. -/
  | look (request : RequestId)
  /-- A job moves. -/
  | advance (request : RequestId) (fingerprint : Fingerprint)
  /-- The runner replies to a job, and has perhaps called off the request meanwhile. -/
  | reply (request : RequestId) (fingerprint : Fingerprint) (reply : Reply) (cancels : Bool)
  /-- A request collects a job that is over. -/
  | join (request : RequestId) (fingerprint : Fingerprint)
  /-- A request ends. -/
  | close (request : RequestId)
  /-- A request is called off. -/
  | cancel (request : RequestId)
  /-- Somebody changes files. -/
  | write (disk : Disk)

namespace Workshop

/-- A workshop without requests. -/
def new (config : BuildConfig) (disk : Disk) : Workshop := ⟨config, disk, .empty, [], []⟩

/-- The store of the workshop. -/
def store (workshop : Workshop) : Store := ⟨workshop.config.storeRoot⟩

/-- The number of jobs that a request may have at work; one at least. -/
def permits (workshop : Workshop) : Nat := max 1 workshop.config.maxJobs.toNat

/-- The most permits that a request can hand out. -/
def permitLimit : Nat := Nat.pow 2 61 - 1

/-- The claims that jobs hold. -/
def claims (workshop : Workshop) : Claims :=
  ⟨workshop.requests.flatMap fun request =>
    (request.jobs.filter fun job => job.place.holdsClaim).map Job.fingerprint⟩

/-- The workshop with a request changed. -/
def setRequest (workshop : Workshop) (id : RequestId) (request : Request) : Workshop :=
  { workshop with requests := workshop.requests.set id request }

/-- The outputs of a derivation that are there, from memory or from the store. -/
def fetch (workshop : Workshop) (derivation : Derivation) : Workshop × Option Outputs :=
  let (cache, found) := workshop.cache.fetch workshop.store workshop.disk derivation
  ({ workshop with cache }, found)

/-- A job makes a fresh entry. -/
def prepare (workshop : Workshop) (job : Job) : Workshop × Job :=
  match workshop.store.prepare workshop.disk job.derivation with
  | (disk, .ok outputs) => ({ workshop with disk }, job.goTo (.between outputs job.derivation.phases))
  | (disk, .error error) => ({ workshop with disk }, job.finish (.error error))

/-- A job calls the runner. -/
def call (workshop : Workshop) (id : RequestId) (job : Job) (outputs : Outputs) (attempt : Attempt)
    (rest : List Phase) : Workshop × Job :=
  ({ workshop with calls := ⟨id, job.derivation, attempt, outputs, job.inputs⟩ :: workshop.calls },
    job.goTo (.running outputs attempt rest))

/-- A job completes its entry. -/
def commit (workshop : Workshop) (job : Job) (outputs : Outputs) : Workshop × Job :=
  match Store.commit workshop.disk job.derivation outputs with
  | (disk, .ok ()) => ({ workshop with disk }, job.goTo (.recording outputs))
  | (disk, .error error) => ({ workshop with disk }, job.finish (.error error))

/-- A job moves, as one of the jobs of a request. It is over when it notices that it
    was called off; it stays where it has to wait. -/
def advance (workshop : Workshop) (id : RequestId) (request : Request) (job : Job) : Workshop × Job :=
  if request.cancelled && job.place.heedsCancel then (workshop, job.cancel)
  else match job.place with
    | .queued =>
      if request.permitsUsed < workshop.permits then (workshop, job.goTo .admitted) else (workshop, job)
    | .admitted =>
      if workshop.claims.isHeld job.fingerprint then (workshop, job) else (workshop, job.goTo .claimed)
    | .claimed => if request.halted then (workshop, job.cancel) else (workshop, job.goTo .looking)
    | .looking =>
      match workshop.fetch job.derivation with
      | (workshop, some outputs) => (workshop, job.finish (.ok ⟨outputs, true⟩))
      | (workshop, none) => (workshop, job.goTo .preparing)
    | .preparing => workshop.prepare job
    | .between outputs rest => (workshop, job.proceed workshop.config outputs rest)
    | .calling outputs attempt rest => workshop.call id job outputs attempt rest
    | .running _ _ _ => (workshop, job)
    | .committing outputs => workshop.commit job outputs
    | .recording outputs =>
      let (cache, recorded) := workshop.cache.insert job.fingerprint outputs
      ({ workshop with cache }, job.finish (.ok ⟨recorded, false⟩))
    | .finished _ => (workshop, job)

/-- A job takes the reply of the runner. -/
def replied (config : BuildConfig) (job : Job) (outputs : Outputs) (attempt : Attempt) (rest : List Phase) :
    Reply → Job
  | .exit status => job.exited config outputs attempt rest status
  | .error error => job.finish (.error error)
  | .crash => job.finish (.error (.crashed job.derivation.name))

/-- The workshop after an event, if the event can happen. -/
def step (workshop : Workshop) : Event → Option Workshop
  | .request roots cancelled => do
    let request ← (Request.new roots cancelled).toOption
    some { workshop with requests := workshop.requests ++ [request] }
  | .visit id => do
    let request ← workshop.requests[id]?
    some (workshop.setRequest id (← request.visit))
  | .look id => do
    let request ← workshop.requests[id]?
    let derivation ← request.looking
    let (workshop, found) := workshop.fetch derivation
    some (workshop.setRequest id (request.looked derivation found))
  | .advance id fingerprint => do
    let request ← workshop.requests[id]?
    let job ← request.jobs.find? (·.fingerprint = fingerprint)
    let (workshop, moved) := workshop.advance id request job
    some (workshop.setRequest id (request.updateJob fingerprint fun _ => moved))
  | .reply id fingerprint reply cancels => do
    let request ← workshop.requests[id]?
    let job ← request.jobs.find? (·.fingerprint = fingerprint)
    match job.place, request.cancelled with
    | .running outputs attempt rest, false =>
      let request := { request with cancelled := cancels }
      some (workshop.setRequest id
        (request.updateJob fingerprint fun _ => replied workshop.config job outputs attempt rest reply))
    | _, _ => none
  | .join id fingerprint => do
    let request ← workshop.requests[id]?
    some (workshop.setRequest id (← request.join workshop.config fingerprint))
  | .close id => do
    let request ← workshop.requests[id]?
    some (workshop.setRequest id (← request.close))
  | .cancel id => do
    let request ← workshop.requests[id]?
    some (workshop.setRequest id { request with cancelled := true })
  | .write disk => some { workshop with disk }

/-- The workshop after several events, if they can happen in their order. -/
def run (workshop : Workshop) (events : List Event) : Option Workshop := events.foldlM step workshop

/-- One derivation of a plan, and whether its outputs are there. -/
structure Planned where
  name : String
  fingerprint : Fingerprint
  cached : Bool
  deriving DecidableEq, Repr

/-- The plan of one layer. -/
def planLayer (graph : BuildGraph) (workshop : Workshop) : List Fingerprint → Workshop × List Planned
  | [] => (workshop, [])
  | fingerprint :: rest =>
    match graph.find? fingerprint with
    | none => planLayer graph workshop rest
    | some derivation =>
      let (workshop, found) := workshop.fetch derivation
      let (workshop, others) := planLayer graph workshop rest
      (workshop, ⟨derivation.name, fingerprint, found.isSome⟩ :: others)

/-- The plans of layers. -/
def planLayers (graph : BuildGraph) (workshop : Workshop) :
    List (List Fingerprint) → Workshop × List (List Planned)
  | [] => (workshop, [])
  | layer :: rest =>
    let (workshop, first) := planLayer graph workshop layer
    let (workshop, others) := planLayers graph workshop rest
    (workshop, first :: others)

/-- What a request for some roots would do, without running anything: its layers, and
    what of them is there. -/
def plan (workshop : Workshop) (roots : List Derivation) : Except BuildError (Workshop × List (List Planned)) := do
  let graph ← BuildGraph.fromRoots roots
  let layers ← graph.waves
  .ok (planLayers graph workshop layers)

end Workshop
end Pkgset

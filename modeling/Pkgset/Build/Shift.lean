import Pkgset.Build.Workshop

/-!
# Shifts

A shift is a workshop at work with a runner. A runner answers a call at once, after
some time, once something has happened, or never. Jobs move in turns: a job that gets its
permit goes on to its look whether it was called off in the same turn, if it need not wait
for the claim, and takes one step in each turn after that. When none can move, time passes
until the next answer is due.
-/

namespace Pkgset

/-- How a runner with states `σ` answers a call. -/
inductive Response (σ : Type) where
  /-- At once, having perhaps called off the request. -/
  | now (reply : Reply) (cancels : Bool)
  /-- After some milliseconds. -/
  | later (delay : Nat) (reply : Reply)
  /-- Once its state passes a test. -/
  | once (test : σ → Bool) (reply : Reply)
  /-- Never, having called off the request. -/
  | never

/-- A runner: what it does to its state and the files for a call, and its answer. -/
structure Runner (σ : Type) where
  answer : σ → Disk → Call → σ × Disk × Response σ

/-- When a reply is due. -/
inductive Due (σ : Type) where
  | time (moment : Nat)
  | test (test : σ → Bool)

/-- A reply that is not given yet. -/
structure Pending (σ : Type) where
  request : RequestId
  fingerprint : Fingerprint
  due : Due σ
  reply : Reply

/-- A workshop, the state of its runner, the time, and the replies to come. -/
structure Shift (σ : Type) where
  workshop : Workshop
  state : σ
  time : Nat
  pending : List (Pending σ)

namespace Shift
variable {σ : Type}

/-- A shift at its start. -/
def new (workshop : Workshop) (state : σ) : Shift σ := ⟨workshop, state, 0, []⟩

/-- The shift after an event; one that cannot happen changes nothing. -/
def happen (shift : Shift σ) (event : Event) : Shift σ :=
  { shift with workshop := (shift.workshop.step event).getD shift.workshop }

/-- The runner answers a call. -/
def answer (runner : Runner σ) (shift : Shift σ) (call : Call) : Shift σ :=
  let (state, disk, response) := runner.answer shift.state shift.workshop.disk call
  let shift := { shift with state }.happen (.write disk)
  let fingerprint := call.derivation.fingerprint
  let await (due : Due σ) (reply : Reply) : Shift σ :=
    { shift with pending := shift.pending ++ [⟨call.request, fingerprint, due, reply⟩] }
  match response with
  | .now reply cancels => shift.happen (.reply call.request fingerprint reply cancels)
  | .later delay reply => await (.time (shift.time + delay)) reply
  | .once test reply => await (.test test) reply
  | .never => shift.happen (.cancel call.request)

/-- Whether a job can move. -/
def canMove (workshop : Workshop) (request : Request) (job : Job) : Bool :=
  request.cancelled && job.place.heedsCancel ||
    match job.place with
    | .queued => request.permitsUsed < workshop.permits
    | .admitted => !workshop.claims.isHeld job.fingerprint
    | .running _ _ _ | .finished _ => false
    | _ => true

/-- Whether a job there has yet to look whether it was called off. -/
def isEntering : JobPlace → Bool
  | .queued | .admitted | .claimed => true
  | _ => false

/-- A job that has yet to look whether it was called off goes on until it has to wait,
    within a number of steps. -/
def enter (id : RequestId) (fingerprint : Fingerprint) : Nat → Shift σ → Shift σ
  | 0, shift => shift
  | bound + 1, shift =>
    match shift.workshop.requests[id]? with
    | none => shift
    | some request =>
      match request.jobs.find? (·.fingerprint = fingerprint) with
      | none => shift
      | some job =>
        if isEntering job.place && canMove shift.workshop request job then
          enter id fingerprint bound (shift.happen (.advance id fingerprint))
        else shift

/-- The steps from waiting for a permit to the look whether a job was called off. -/
def entrySteps : Nat := 3

/-- A job moves if it can, and the runner answers if it was called. The flag says
    whether anything has moved. -/
def moveJob (runner : Runner σ) (id : RequestId) (turn : Shift σ × Bool) (fingerprint : Fingerprint) :
    Shift σ × Bool :=
  let (shift, _) := turn
  match shift.workshop.requests[id]? with
  | none => turn
  | some request =>
    match request.jobs.find? (·.fingerprint = fingerprint) with
    | none => turn
    | some job =>
      if canMove shift.workshop request job then
        let moved :=
          if isEntering job.place then enter id fingerprint entrySteps shift
          else shift.happen (.advance id fingerprint)
        match moved.workshop.calls with
        | call :: _ =>
          if shift.workshop.calls.length < moved.workshop.calls.length then (answer runner moved call, true)
          else (moved, true)
        | [] => (moved, true)
      else turn

/-- A request takes its ready derivations, within a number of moves. -/
def drain (id : RequestId) : Nat → Workshop × Bool → Workshop × Bool
  | 0, turn => turn
  | bound + 1, (workshop, moved) =>
    match (workshop.step (.look id)).or (workshop.step (.visit id)) with
    | some workshop => drain id bound (workshop, true)
    | none => (workshop, moved)

/-- The moves that a request may make to take its ready derivations. -/
def drainBound (request : Request) : Nat := 2 * request.graph.size + 2

/-- A request collects a job that is over, and takes what became ready. -/
def collect (id : RequestId) (bound : Nat) (turn : Workshop × Bool) (fingerprint : Fingerprint) : Workshop × Bool :=
  match turn.1.step (.join id fingerprint) with
  | some workshop => drain id bound (workshop, true)
  | none => turn

/-- The loop of a request: it takes what is ready, collects jobs, and ends. -/
def serve (turn : Workshop × Bool) (id : RequestId) : Workshop × Bool :=
  match turn.1.requests[id]? with
  | none => turn
  | some request =>
    let bound := drainBound request
    let (workshop, moved) := (request.jobs.map Job.fingerprint).foldl (collect id bound) (drain id bound turn)
    match workshop.step (.close id) with
    | some workshop => (workshop, true)
    | none => (workshop, moved)

/-- Gives the replies that are due. -/
def deliver (shift : Shift σ) : Shift σ × Bool :=
  let isDue (pending : Pending σ) : Bool :=
    match pending.due with
    | .time moment => moment ≤ shift.time
    | .test test => test shift.state
  let (due, rest) := shift.pending.partition isDue
  (due.foldl (fun shift pending => shift.happen (.reply pending.request pending.fingerprint pending.reply false))
    { shift with pending := rest }, !due.isEmpty)

/-- One round: replies that are due, then every request, then every job. -/
def round (runner : Runner σ) (shift : Shift σ) : Shift σ × Bool :=
  let (shift, delivered) := shift.deliver
  let ids := List.range shift.workshop.requests.length
  let (workshop, served) := ids.foldl serve (shift.workshop, delivered)
  ids.foldl (fun turn id =>
    match turn.1.workshop.requests[id]? with
    | some request => (request.jobs.map Job.fingerprint).foldl (moveJob runner id) turn
    | none => turn) ({ shift with workshop }, served)

/-- The next moment at which a reply is due. -/
def nextMoment? (shift : Shift σ) : Option Nat :=
  (shift.pending.filterMap fun pending =>
    match pending.due with
    | .time moment => some moment
    | .test _ => none).min?

/-- Rounds until nothing moves and nothing is due, within a number of rounds. -/
def work (runner : Runner σ) : Nat → Shift σ → Shift σ
  | 0, shift => shift
  | bound + 1, shift =>
    let (shift, moved) := shift.round runner
    if moved then work runner bound shift
    else match shift.nextMoment? with
      | some moment => work runner bound { shift with time := max shift.time moment }
      | none => shift

/-- The number of rounds granted to a shift. -/
def roundBound : Nat := 100000

/-- Serves requests side by side, each a list of roots and whether it is called off
    before it starts, and gives their reports. The workshop is without requests
    afterwards. There are no reports if requests crash, as they do with more permits
    than they can hand out, or if one of them does not end. -/
def serveAll (runner : Runner σ) (shift : Shift σ) (requests : List (List Derivation × Bool)) :
    Except BuildError (Shift σ × Option (List BuildReport)) := do
  let opened ← requests.mapM fun (roots, cancelled) => Request.new roots cancelled
  if Workshop.permitLimit < shift.workshop.permits then return (shift, none)
  let shift := work runner roundBound { shift with workshop := { shift.workshop with requests := opened, calls := [] } }
  let requests := shift.workshop.requests
  let reports := if requests.all (·.closed) then some (requests.map (·.report)) else none
  .ok ({ shift with workshop := { shift.workshop with requests := [], calls := [] }, pending := [] }, reports)

end Shift
end Pkgset

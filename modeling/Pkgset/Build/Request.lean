import Pkgset.Build.Graph
import Pkgset.Build.Job
import Pkgset.Build.Report

/-!
# Build requests

A request builds the graph of its roots. It counts, for each derivation, the inputs
that have not succeeded yet; a derivation becomes ready when the count reaches zero.
When one fails, everything that depends on it fails with it; what waits for something
called off is called off at the end.
-/

namespace Pkgset

/-- A request under way: its graph, the order in which leftovers are looked at, the
    records so far, the numbers of inputs that have not succeeded, by the texts of
    fingerprints, the derivations that are ready, the one whose outputs are looked for,
    and the jobs that are not collected yet. -/
structure Request where
  graph : BuildGraph
  order : List Fingerprint
  report : BuildReport
  waiting : Dict Nat
  ready : List Fingerprint
  looking : Option Derivation
  jobs : List Job
  cancelled : Bool
  halted : Bool
  closed : Bool

namespace Request

/-- The numbers of direct inputs of some fingerprints. -/
def inputCounts (graph : BuildGraph) (order : List Fingerprint) : Dict Nat :=
  order.foldl (fun counts fingerprint => Dict.insert counts fingerprint.text (graph.dependencies fingerprint).length) []

/-- A request for a graph with an order of its derivations. -/
def ofGraph (graph : BuildGraph) (order : List Fingerprint) (cancelled : Bool) : Request where
  graph := graph
  order := order
  report := .empty graph.roots
  waiting := inputCounts graph order
  ready := order.filter fun fingerprint => (graph.dependencies fingerprint).isEmpty
  looking := none
  jobs := []
  cancelled := cancelled
  halted := false
  closed := false

/-- A request for some roots. -/
def new (roots : List Derivation) (cancelled : Bool) : Except BuildError Request := do
  let graph ← BuildGraph.fromRoots roots
  let order ← graph.topological
  .ok (ofGraph graph order cancelled)

/-- Whether nothing new is to be started. -/
def isStopped (request : Request) : Bool := request.cancelled || request.halted

/-- Records how a derivation ended. -/
def record (request : Request) (derivation : Derivation) (status : BuildStatus) : Request :=
  { request with report := request.report.insert derivation.fingerprint ⟨derivation.name, status⟩ }

/-- Counts a success against one dependent, which becomes ready if nothing is left to
    count and it has no record. -/
def countDown (request : Request) (dependent : Fingerprint) : Request :=
  match Dict.get? request.waiting dependent.text with
  | none => request
  | some count =>
    let request := { request with waiting := Dict.insert request.waiting dependent.text (count - 1) }
    if count - 1 = 0 ∧ !request.report.has dependent then { request with ready := request.ready ++ [dependent] }
    else request

/-- Counts a success against every dependent. -/
def release (request : Request) (fingerprint : Fingerprint) : Request :=
  (request.graph.dependents fingerprint).foldl countDown request

/-- Records a success and queues what it makes ready. -/
def succeed (request : Request) (derivation : Derivation) (realized : Realized) : Request :=
  (request.record derivation (.succeeded realized.outputs realized.cached)).release derivation.fingerprint

/-- The failures that a failure causes in its direct dependents without a record. -/
def consequences (graph : BuildGraph) (report : BuildReport) (derivation : Derivation) (error : BuildError) :
    List (Fingerprint × BuildError) :=
  ((graph.dependents derivation.fingerprint).filter fun dependent => !report.has dependent).filterMap
    fun dependent => (graph.find? dependent).map fun node =>
      (dependent, .dependencyFailed node.name derivation.name error)

/-- The number of derivations without a record. -/
def unrecorded (graph : BuildGraph) (report : BuildReport) : Nat :=
  graph.nodes.countP fun node => !report.has node.fingerprint

/-- A record for a derivation that has none leaves fewer without one. -/
theorem unrecorded_insert {graph : BuildGraph} {report : BuildReport} {fingerprint : Fingerprint} {node : Derivation}
    (found : graph.find? fingerprint = some node) (fresh : report.has fingerprint = false) (record : BuildRecord) :
    unrecorded graph (report.insert fingerprint record) < unrecorded graph report := by
  have member : node ∈ graph.nodes := List.mem_of_find?_eq_some found
  have same : node.fingerprint = fingerprint := by simpa using List.find?_some found
  obtain ⟨before, after, split⟩ := List.append_of_mem member
  have fewer (nodes : List Derivation) :
      nodes.countP (fun node => !(report.insert fingerprint record).has node.fingerprint) ≤
        nodes.countP (fun node => !report.has node.fingerprint) := by
    apply List.countP_mono_left
    intro node _ without
    simp only [BuildReport.has_insert] at without
    simp_all
  have left := fewer before
  have right := fewer after
  have hit : (report.insert fingerprint record).has node.fingerprint = true := by simp [BuildReport.has_insert, same]
  have miss : report.has node.fingerprint = false := by rw [same, fresh]
  simp only [unrecorded, split, List.countP_append, List.countP_cons, hit, miss]
  simp only [Bool.not_true, Bool.false_eq_true, ↓reduceIte, Bool.not_false]
  omega

/-- Records failures and all that follow from them, the latest found first. A
    derivation keeps its first record. -/
def failAll (graph : BuildGraph) (report : BuildReport) : List (Fingerprint × BuildError) → BuildReport
  | [] => report
  | (fingerprint, error) :: rest =>
    if _recorded : report.has fingerprint then failAll graph report rest
    else match _found : graph.find? fingerprint with
      | none => failAll graph report rest
      | some derivation =>
        failAll graph (report.insert fingerprint ⟨derivation.name, .failed error⟩)
          ((consequences graph report derivation error).reverse ++ rest)
termination_by stack => (unrecorded graph report, stack.length)
decreasing_by
  · exact Prod.Lex.right _ (by simp)
  · exact Prod.Lex.right _ (by simp)
  · exact Prod.Lex.left _ _ (unrecorded_insert _found (by simpa using _recorded) _)

/-- Records a failure and that of every dependent. -/
def fail (request : Request) (derivation : Derivation) (error : BuildError) : Request :=
  { request with report := failAll request.graph request.report [(derivation.fingerprint, error)] }

/-- The outputs of the declared inputs of a derivation, as recorded. -/
def inputsFor (request : Request) (derivation : Derivation) : List Outputs :=
  derivation.inputs.filterMap fun input =>
    (request.report.get? input.fingerprint).bind fun record => record.status.outputs?

/-- Takes the first of the ready derivations: it has a record already, is called off,
    or its outputs are looked for. -/
def visit (request : Request) : Option Request :=
  match request.looking, request.ready with
  | none, fingerprint :: rest =>
    let request := { request with ready := rest }
    if request.report.has fingerprint then some request
    else match request.graph.find? fingerprint with
      | none => some request
      | some derivation =>
        if request.isStopped then some (request.record derivation .cancelled)
        else some { request with looking := some derivation }
  | _, _ => none

/-- Takes the outputs that were looked for, or schedules a job if there are none. -/
def looked (request : Request) (derivation : Derivation) (found : Option Outputs) : Request :=
  let request := { request with looking := none }
  match found with
  | some outputs => request.succeed derivation ⟨outputs, true⟩
  | none => { request with jobs := request.jobs ++ [.new derivation (request.inputsFor derivation)] }

/-- Records what a job came to. A failure stops a request that does not keep going. -/
def conclude (config : BuildConfig) (request : Request) (derivation : Derivation) : JobResult → Request
  | .ok realized => request.succeed derivation realized
  | .error (.cancelled _) => request.record derivation .cancelled
  | .error error =>
    let request := request.fail derivation error
    if config.keepGoing then request else { request with halted := true }

/-- Collects a job that is over, when nothing is ready. -/
def join (config : BuildConfig) (request : Request) (fingerprint : Fingerprint) : Option Request :=
  match request.looking, request.ready with
  | none, [] => do
    let job ← request.jobs.find? (·.fingerprint = fingerprint)
    match job.place with
    | .finished result =>
      let request := { request with jobs := request.jobs.filter (·.fingerprint ≠ fingerprint) }
      some (request.conclude config job.derivation result)
    | _ => none
  | _, _ => none

/-- Calls off what has no record. -/
def cancelLeftovers (request : Request) : Request :=
  request.order.foldl (fun request fingerprint =>
    if request.report.has fingerprint then request
    else match request.graph.find? fingerprint with
      | some derivation => request.record derivation .cancelled
      | none => request) request

/-- Ends a request of which nothing is under way. -/
def close (request : Request) : Option Request :=
  match request.looking, request.ready, request.jobs with
  | none, [], [] => if request.closed then none else some { request.cancelLeftovers with closed := true }
  | _, _, _ => none

/-- The number of permits in use. -/
def permitsUsed (request : Request) : Nat := request.jobs.countP fun job => job.place.holdsPermit

/-- The request with a job changed. -/
def updateJob (request : Request) (fingerprint : Fingerprint) (f : Job → Job) : Request :=
  { request with jobs := request.jobs.map fun job => if job.fingerprint = fingerprint then f job else job }

end Request
end Pkgset

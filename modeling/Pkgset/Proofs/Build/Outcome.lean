import Mathlib.Logic.Relation
import Pkgset.Proofs.Build.Foresight

/-!
# What a build comes to

A request that keeps going and is never called off comes to the same end however its
jobs are interleaved, if the surroundings of jobs are settled: a derivation succeeds
when all it needs is found in the store or made without an error, fails by itself when
only its own job fails, and fails by an input when one of its inputs fails.
-/

namespace Pkgset
open BuildReport BuildGraph

/-- The kinds of statuses. -/
inductive StatusKind where
  | succeeded | failed | dependencyFailed | cancelled
  deriving DecidableEq, Repr

/-- The kind of a status: to fail by an input is a kind of its own. -/
def BuildStatus.kind : BuildStatus → StatusKind
  | .succeeded _ _ => .succeeded
  | .failed (.dependencyFailed _ _ _) => .dependencyFailed
  | .failed _ => .failed
  | .cancelled => .cancelled

/-- A build of some roots in a workshop: a request, what happens until it ends, and the
    request as it is then. -/
structure Build (workshop : Workshop) (surroundings : Surroundings) (roots : List Derivation) where
  request : Request
  events : List Event
  after : Workshop
  final : Request
  opens : request.Opens roots
  uncancelled : request.cancelled = false
  foreseen : (workshop.serving request).Along (Workshop.Foreseen surroundings) events
  ran : (workshop.serving request).run events = some after
  place : after.requests = [final]
  ended : final.closed = true

/-! ### Reports of builds -/

/-- A derivation has another as a direct input. -/
def BuildGraph.Uses (graph : BuildGraph) (fingerprint input : Fingerprint) : Prop :=
  input ∈ graph.dependencies fingerprint

namespace Workshop

/-- Outputs of a derivation are there, or its job has no error. -/
def Obtains (start : Workshop) (surroundings : Surroundings) (node : Derivation) : Prop :=
  start.offers node = true ∨ surroundings.ownError? start.config node = none

/-- A report in which every derivation of a graph has the record that is foreseen. -/
structure Concluded (start : Workshop) (surroundings : Surroundings) (graph : BuildGraph) (report : BuildReport) :
    Prop where
  closed : graph.Closed
  ordered : ∃ order, graph.InputsFirst order
  settled : start.Settled surroundings graph report
  recorded : ∀ node ∈ graph.nodes, ∃ status, report.get? node.fingerprint = some ⟨node.name, status⟩
  spread : ∀ fingerprint error, report.Failed fingerprint error →
    ∀ dependent, graph.Uses dependent fingerprint → ∃ cause, report.Failed dependent cause

private theorem Obtains.free {start : Workshop} {surroundings : Surroundings} {node : Derivation} {error : BuildError}
    (obtains : start.Obtains surroundings node) (absent : start.offers node = false) :
    surroundings.ownError? start.config node ≠ some error := by
  intro fails
  rcases obtains with there | free
  · simp [absent] at there
  · simp [fails] at free

/-- What is foreseen for a derivation with its inputs is of one kind. -/
private theorem Own.kind_eq {start : Workshop} {surroundings : Surroundings} {node : Derivation} {status other : BuildStatus}
    (own : start.Own surroundings node status) (own' : start.Own surroundings node other) : status.kind = other.kind := by
  cases status with
  | succeeded outputs cached =>
    cases other with
    | succeeded outputs' cached' => rfl
    | failed error => exact absurd own'.2 (Obtains.free own own'.1)
    | cancelled => exact own'.elim
  | failed error =>
    cases other with
    | succeeded outputs cached => exact absurd own.2 (Obtains.free own' own.1)
    | failed error' =>
      obtain rfl : error = error' := Option.some.inj (own.2.symm.trans own'.2)
      rfl
    | cancelled => exact own'.elim
  | cancelled => exact own.elim

namespace Concluded
variable {start : Workshop} {surroundings : Surroundings} {graph : BuildGraph} {report : BuildReport} {node : Derivation}

/-- A derivation ends by itself with all its inputs, or fails by one that fails. -/
theorem cases (concluded : start.Concluded surroundings graph report) (member : node ∈ graph.nodes) :
    ∃ status, report.get? node.fingerprint = some ⟨node.name, status⟩ ∧
      ((∀ input, graph.Uses node.fingerprint input → report.succeeded input = true) ∧
          start.Own surroundings node status ∨
        (∃ input, graph.Uses node.fingerprint input ∧ ∃ error, report.Failed input error) ∧
          ∃ error, status = .failed error ∧ Request.HandedDown graph report node error) := by
  obtain ⟨status, known⟩ := concluded.recorded node member
  refine ⟨status, known, ?_⟩
  rcases concluded.settled node status (concluded.closed.find?_of_mem member) known with ⟨lacks, own⟩ | ⟨error, failed, handed⟩
  · exact Or.inl ⟨missing_eq_zero.mp lacks, own⟩
  · obtain ⟨input, cause, uses, _, _, inputFailed⟩ := id handed
    exact Or.inr ⟨⟨_, uses, cause, _, inputFailed⟩, error, failed, handed⟩

private theorem apart {input : Fingerprint} {error : BuildError} (failed : report.Failed input error)
    (all : ∀ input, graph.Uses node.fingerprint input → report.succeeded input = true) :
    ¬ graph.Uses node.fingerprint input := by
  intro uses
  simpa [failed.not_succeeded] using all input uses

/-- To succeed, a derivation needs its direct inputs and its own outputs. -/
theorem succeeded_iff_direct (concluded : start.Concluded surroundings graph report) (member : node ∈ graph.nodes) :
    report.succeeded node.fingerprint = true ↔
      (∀ input, graph.Uses node.fingerprint input → report.succeeded input = true) ∧ start.Obtains surroundings node := by
  obtain ⟨status, known, ⟨inputs, own⟩ | ⟨⟨input, uses, cause, inputFailed⟩, error, rfl, _⟩⟩ := concluded.cases member
  · simp only [BuildReport.succeeded, known, Option.any_some]
    cases status with
    | succeeded outputs cached => exact ⟨fun _ => ⟨inputs, own⟩, fun _ => rfl⟩
    | failed error =>
      refine ⟨fun absurd => (by cases absurd), ?_⟩
      rintro ⟨_, obtains⟩
      exact absurd own.2 (obtains.free own.1)
    | cancelled => exact own.elim
  · constructor
    · intro done
      simp [Failed.not_succeeded ⟨_, known⟩] at done
    · rintro ⟨inputs, _⟩
      exact absurd uses (apart inputFailed inputs)

/-- A derivation succeeds if it and all that it needs is there or made without an error. -/
theorem succeeded_iff_all (concluded : start.Concluded surroundings graph report) (member : node ∈ graph.nodes) :
    report.succeeded node.fingerprint = true ↔
      ∀ needed ∈ graph.nodes, Relation.ReflTransGen graph.Uses node.fingerprint needed.fingerprint →
        start.Obtains surroundings needed := by
  constructor
  · intro done needed within path
    -- Going down from inputs to inputs, every one has succeeded.
    have reached : report.succeeded needed.fingerprint = true := by
      generalize needed.fingerprint = fingerprint at path
      induction path with
      | refl => exact done
      | tail _ uses ih =>
        obtain ⟨node, found⟩ := contains_iff.mp (contains_of_mem_dependencies uses)
        obtain ⟨within, rfl⟩ := find?_some found
        exact ((concluded.succeeded_iff_direct within).mp ih).1 _ uses
    exact ((concluded.succeeded_iff_direct within).mp reached).2
  · obtain ⟨order, ordered⟩ := concluded.ordered
    have up := ordered.induction (P := fun fingerprint => ∀ node ∈ graph.nodes, node.fingerprint = fingerprint →
      (∀ needed ∈ graph.nodes, Relation.ReflTransGen graph.Uses fingerprint needed.fingerprint →
        start.Obtains surroundings needed) → report.succeeded fingerprint = true) ?_
    · exact up _ (contains_iff.mpr ⟨node, concluded.closed.find?_of_mem member⟩) node member rfl
    · rintro fingerprint _ inputs node within rfl all
      refine (concluded.succeeded_iff_direct within).mpr ⟨fun input uses => ?_, all node within .refl⟩
      obtain ⟨source, found⟩ := contains_iff.mp (concluded.closed.contains_dependency uses)
      obtain ⟨sourceWithin, rfl⟩ := find?_some found
      exact inputs _ uses source sourceWithin rfl fun needed neededWithin path =>
        all needed neededWithin (.head uses path)

/-- A derivation fails by itself if it has all inputs, but neither outputs nor a job
    without an error. -/
theorem failed_itself_iff (concluded : start.Concluded surroundings graph report) (member : node ∈ graph.nodes)
    (error : BuildError) :
    report.Failed node.fingerprint error ∧ ¬ Request.HandedDown graph report node error ↔
      (∀ input, graph.Uses node.fingerprint input → report.succeeded input = true) ∧ start.offers node = false ∧
        surroundings.ownError? start.config node = some error := by
  obtain ⟨status, known, ⟨inputs, own⟩ | ⟨⟨input, uses, cause, inputFailed⟩, cause', rfl, handed⟩⟩ := concluded.cases member
  · constructor
    · rintro ⟨⟨name, failed⟩, _⟩
      obtain ⟨_, rfl⟩ : node.name = name ∧ status = .failed error := by simpa [known] using failed
      exact ⟨inputs, own⟩
    · rintro ⟨_, absent, fails⟩
      cases status with
      | succeeded outputs cached => exact absurd fails (Obtains.free own absent)
      | failed error' =>
        obtain rfl : error' = error := Option.some.inj (own.2.symm.trans fails)
        refine ⟨⟨_, known⟩, ?_⟩
        rintro ⟨source, cause, uses, _, _, sourceFailed⟩
        exact apart ⟨_, sourceFailed⟩ inputs uses
      | cancelled => exact own.elim
  · constructor
    · rintro ⟨⟨name, failed⟩, itself⟩
      obtain ⟨_, rfl⟩ : node.name = name ∧ cause' = error := by simpa [known] using failed
      exact absurd handed itself
    · rintro ⟨inputs, _⟩
      exact absurd uses (apart inputFailed inputs)

/-- A derivation fails by an input if a direct input fails. -/
theorem failed_by_input_iff (concluded : start.Concluded surroundings graph report) (member : node ∈ graph.nodes) :
    (∃ error, report.Failed node.fingerprint error ∧ Request.HandedDown graph report node error) ↔
      ∃ input, graph.Uses node.fingerprint input ∧ ∃ error, report.Failed input error := by
  constructor
  · rintro ⟨error, _, input, cause, uses, _, _, inputFailed⟩
    exact ⟨_, uses, cause, _, inputFailed⟩
  · rintro ⟨input, uses, cause, inputFailed⟩
    obtain ⟨status, known, ⟨inputs, _⟩ | ⟨_, error, rfl, handed⟩⟩ := concluded.cases member
    · exact absurd uses (apart inputFailed inputs)
    · exact ⟨error, ⟨_, known⟩, handed⟩

theorem not_cancelled (concluded : start.Concluded surroundings graph report) (member : node ∈ graph.nodes)
    (name : String) : report.get? node.fingerprint ≠ some ⟨name, .cancelled⟩ := by
  intro cancelled
  obtain ⟨status, known, ⟨_, own⟩ | ⟨_, error, rfl, _⟩⟩ := concluded.cases member
  · obtain ⟨_, rfl⟩ : node.name = name ∧ status = .cancelled := by simpa [known] using cancelled
    exact own
  · simp [known] at cancelled

theorem succeeded_eq {other : BuildReport} (concluded : start.Concluded surroundings graph report)
    (concluded' : start.Concluded surroundings graph other) (member : node ∈ graph.nodes) :
    report.succeeded node.fingerprint = other.succeeded node.fingerprint := by
  rw [Bool.eq_iff_iff, concluded.succeeded_iff_all member, concluded'.succeeded_iff_all member]

/-- Two reports in which all is as foreseen have records of the same kinds. -/
theorem kind_eq {other : BuildReport} (concluded : start.Concluded surroundings graph report)
    (concluded' : start.Concluded surroundings graph other) (member : node ∈ graph.nodes) :
    (report.get? node.fingerprint).map (·.status.kind) = (other.get? node.fingerprint).map (·.status.kind) := by
  have same (input : Fingerprint) (uses : graph.Uses node.fingerprint input) :
      report.succeeded input = other.succeeded input := by
    obtain ⟨source, found⟩ := contains_iff.mp (concluded.closed.contains_dependency uses)
    obtain ⟨within, rfl⟩ := find?_some found
    exact concluded.succeeded_eq concluded' within
  obtain ⟨status, known, ending⟩ := concluded.cases member
  obtain ⟨status', known', ending'⟩ := concluded'.cases member
  rw [known, known']
  simp only [Option.map_some, Option.some.injEq]
  rcases ending with ⟨inputs, own⟩ | ⟨⟨input, uses, cause, inputFailed⟩, error, rfl, _, _, _, _, rfl, _⟩
  · rcases ending' with ⟨_, own'⟩ | ⟨⟨input, uses, cause, inputFailed⟩, _⟩
    · exact own.kind_eq own'
    · refine absurd uses (apart inputFailed fun input uses => ?_)
      rw [← same input uses]
      exact inputs input uses
  · rcases ending' with ⟨inputs, _⟩ | ⟨_, error, rfl, _, _, _, _, rfl, _⟩
    · refine absurd uses (apart inputFailed fun input uses => ?_)
      rw [same input uses]
      exact inputs input uses
    · rfl

end Concluded
end Workshop

/-! ### A build with a failure -/

namespace Errand

/-- Nothing can be made in the store, and the runner is never called. -/
def surroundings : Surroundings where
  answer _ _ := .crash
  preparing _ := Store.failure? (store.prepare disk lib).2
  completing _ := none

/-- The request when `tool` was found and `app` waits for `lib`. -/
def midway (looking : Option Derivation) (jobs : List Job) : Request :=
  { asked with
    report := ⟨[recalled tool], [app.fingerprint]⟩
    waiting := [("a1", 0), ("b2", 0), ("c3", 1)]
    ready := []
    looking := looking
    jobs := jobs }

/-- The workshop while `lib` is in its job. -/
def working (place : JobPlace) : Workshop := shop [tool] (midway none [⟨lib, [], place⟩])

/-- The workshop when that job has failed. -/
def broken (error : BuildError) : Workshop := shop [tool] ((midway none []).fail lib error)

/-- The request at its end. -/
def closed (error : BuildError) : Request :=
  { ((midway none []).fail lib error).cancelLeftovers with closed := true }

/-- The job makes a step. -/
def work : Event := .advance 0 lib.fingerprint

/-- What happens from the start to the end. -/
def course : List Event :=
  [.visit 0, .look 0, .visit 0, .look 0, work, work, work, work, work, .join 0 lib.fingerprint, .close 0]

theorem working_forgotten (now : Request) : (shop [tool] now).offers lib = false := offers_of_forgotten rfl lookup_lib

private theorem foreseen_work {place : JobPlace} (incomplete : ∀ outputs, place ≠ .committing outputs) {later : Request}
    (steps : (working place).step work = some (shop [tool] later)) :
    (working place).Foreseen surroundings work := by
  have single {id : RequestId} {request : Request} {job : Job} (at' : (working place).requests[id]? = some request)
      (member : job ∈ request.jobs) : job = ⟨lib, [], place⟩ := by
    obtain ⟨inside, rfl⟩ := List.getElem?_eq_some_iff.mp at'
    simpa [working, shop, midway] using member
  refine ⟨by simp [work], by simp [work], by simp [work], ?_, ?_, ?_⟩
  · intro id request at' job member _ _
    obtain rfl := single at' member
    rfl
  · intro id request at' job member _ outputs committing
    obtain rfl := single at' member
    exact absurd committing (incomplete outputs)
  · intro next steps' request _ node _ _
    obtain rfl : shop [tool] later = next := Option.some.inj (steps.symm.trans steps')
    rfl

private theorem step_work {place later : JobPlace}
    (moves : (working place).advance 0 (midway none [⟨lib, [], place⟩]) ⟨lib, [], place⟩ =
      (working place, ⟨lib, [], later⟩)) : (working place).step work = some (working later) := by
  have at' : (working place).requests[0]? = some (midway none [⟨lib, [], place⟩]) := rfl
  have member : (midway none [⟨lib, [], place⟩]).jobs.find? (·.fingerprint = (⟨lib, [], place⟩ : Job).fingerprint) =
      some ⟨lib, [], place⟩ := rfl
  exact Workshop.step_advance at' member moves

theorem prepare_lib : ∃ path message, store.prepare disk lib = (disk, .error (.store path message)) := by
  obtain ⟨entry, part, bare, _⟩ := spelled
  have absent := leadsToNode_blocked entry
  obtain ⟨error, blocked⟩ := makeFolders_blocked part bare
  have paths : Dict.values (store.outputsFor lib).paths = [Path.join (store.entryPath lib) "out"] := rfl
  have entry : (store.outputsFor lib).storePath = store.entryPath lib := rfl
  refine ⟨Path.join (store.entryPath lib) "out", error.message, ?_⟩
  unfold Store.prepare
  simp only [entry, absent, Bool.false_eq_true, ↓reduceIte, paths, List.singleton_append, Store.makeAll, blocked]
  rfl

theorem runs_course : ∃ path message, (shop [tool] asked).Along (Workshop.Foreseen surroundings) course ∧
    (shop [tool] asked).run course = some (shop [tool] (closed (.store path message))) := by
  obtain ⟨path, message, prepare⟩ := prepare_lib
  have made : (working .preparing).prepare ⟨lib, [], .preparing⟩ =
      (working .preparing, ⟨lib, [], .finished (.error (.store path message))⟩) := by
    have prepare : (working .preparing).store.prepare (working .preparing).disk lib = _ := prepare
    simp only [Workshop.prepare, prepare]
    rfl
  have at' : (shop [tool] (midway (some lib) [])).requests[0]? = some (midway (some lib) []) := rfl
  have looked : (shop [tool] (midway (some lib) [])).step (.look 0) = some (working .queued) :=
    Workshop.step_look_of_missed at' rfl (working_forgotten _)
  have admitted : (working .queued).step work = some (working .admitted) := rfl
  have claimed : (working .admitted).step work = some (working .claimed) := rfl
  have going : (working .claimed).step work = some (working .looking) := rfl
  have missed : (working .looking).step work = some (working .preparing) :=
    step_work (Workshop.advance_of_missed rfl rfl (working_forgotten _))
  have prepared : (working .preparing).step work = some (working (.finished (.error (.store path message)))) :=
    step_work made
  have moves {workshop : Workshop} {event : Event} (quiet : event.movesRequest = true) :
      workshop.Foreseen surroundings event := Workshop.foreseen_of_movesRequest quiet
  refine ⟨path, message, ?_⟩
  refine Workshop.Along.cons (moves rfl) rfl (Workshop.Along.cons (moves rfl) rfl ?_)
  refine Workshop.Along.cons (moves rfl) (rfl : _ = some (shop [tool] (midway (some lib) []))) ?_
  refine Workshop.Along.cons (moves rfl) looked ?_
  refine Workshop.Along.cons (foreseen_work (by simp) admitted) admitted ?_
  refine Workshop.Along.cons (foreseen_work (by simp) claimed) claimed ?_
  refine Workshop.Along.cons (foreseen_work (by simp) going) going ?_
  refine Workshop.Along.cons (foreseen_work (by simp) missed) missed ?_
  refine Workshop.Along.cons (foreseen_work (by simp) prepared) prepared ?_
  refine Workshop.Along.cons (moves rfl) (rfl : _ = some (broken (.store path message))) ?_
  exact Workshop.Along.cons (moves rfl) rfl ⟨trivial, rfl⟩

end Errand

namespace Build
variable {workshop : Workshop} {surroundings : Surroundings} {roots : List Derivation}

/-- A derivation is reported with an error that it has not from an input. -/
def FailsItself (build : Build workshop surroundings roots) (node : Derivation) (error : BuildError) : Prop :=
  build.final.report.Failed node.fingerprint error ∧
    ¬ Request.HandedDown (ofRoots roots) build.final.report node error

/-- A derivation is reported with an error that names an input and holds its error. -/
def FailsByInput (build : Build workshop surroundings roots) (node : Derivation) : Prop :=
  ∃ error, build.final.report.Failed node.fingerprint error ∧
    Request.HandedDown (ofRoots roots) build.final.report node error

/-- When a build has ended, all is reported as foreseen. -/
theorem concluded (build : Build workshop surroundings roots) (keepsGoing : workshop.config.keepGoing = true)
    (lawful : ∀ node ∈ (ofRoots roots).nodes, ∀ name,
      surroundings.ownError? workshop.config node ≠ some (.cancelled name)) :
    workshop.Concluded surroundings (ofRoots roots) build.final.report := by
  have closed := closed_ofRoots roots
  have perm := build.opens.nodes
  have track : workshop.OnTrack surroundings (workshop.serving build.request) build.request :=
    .serving build.opens build.uncancelled
  obtain ⟨final, track, graph⟩ := track.run keepsGoing (fun node member => lawful node (perm.mem_iff.mp member))
    build.foreseen build.ran
  obtain rfl : build.final = final := by simpa using build.place.symm.trans track.requests
  have nodes : build.final.graph.nodes.Perm (ofRoots roots).nodes := graph ▸ perm
  have find (fingerprint : Fingerprint) := closed.find?_perm nodes fingerprint
  have uses (fingerprint : Fingerprint) := closed.dependencies_perm nodes fingerprint
  have contains (fingerprint : Fingerprint) :
      build.final.graph.contains fingerprint = (ofRoots roots).contains fingerprint := by
    rw [Bool.eq_iff_iff, contains_iff, contains_iff, find]
  refine ⟨closed, ⟨build.final.order, ?_⟩, ?_, ?_, ?_⟩
  · obtain ⟨nodup, covers, first⟩ := track.books.order
    refine ⟨nodup, fun fingerprint => (covers fingerprint).trans (by rw [contains]), ?_⟩
    intro before fingerprint after split input member
    exact first before fingerprint after split input (by rw [uses]; exact member)
  · intro node status found known
    rcases track.settled node status ((find _).trans found) known with ⟨lacks, own⟩ | ⟨error, failed, handed⟩
    · refine Or.inl ⟨?_, own⟩
      simpa only [missing, uses] using lacks
    · refine Or.inr ⟨error, failed, ?_⟩
      simpa only [Request.HandedDown, uses, find] using handed
  · intro node member
    have found : build.final.graph.find? node.fingerprint = some node := (find _).trans (closed.find?_of_mem member)
    obtain ⟨⟨name, status⟩, known⟩ := has_iff.mp ((track.books.ended build.ended).2 _ (contains_iff.mpr ⟨node, found⟩))
    obtain ⟨twin, foundTwin, rfl⟩ := track.books.named _ _ known
    obtain rfl : node = twin := Option.some.inj (found.symm.trans foundTwin)
    exact ⟨status, known⟩
  · intro fingerprint error failed dependent member
    refine track.books.spread fingerprint error failed dependent (track.books.graph.mem_dependents.mpr ?_)
    rw [uses]
    exact member

/-- A build that keeps going and is not called off reports the same kinds of ends in
    whatever order its jobs move. A derivation succeeds if and only if it and all that
    it needs is there or made without an error; it fails by itself if and only if its
    inputs succeed and its own job fails; it fails by an input if and only if one of
    its direct inputs fails; and nothing is called off. -/
theorem reports (build other : Build workshop surroundings roots) (keepsGoing : workshop.config.keepGoing = true)
    (lawful : ∀ node ∈ (ofRoots roots).nodes, ∀ name,
      surroundings.ownError? workshop.config node ≠ some (.cancelled name))
    {node : Derivation} (member : node ∈ (ofRoots roots).nodes) :
    (build.final.report.succeeded node.fingerprint = true ↔
      ∀ needed ∈ (ofRoots roots).nodes,
        Relation.ReflTransGen (ofRoots roots).Uses node.fingerprint needed.fingerprint →
          workshop.offers needed = true ∨ surroundings.ownError? workshop.config needed = none) ∧
    (∀ error, build.FailsItself node error ↔
      (∀ input ∈ node.inputs, build.final.report.succeeded input.fingerprint = true) ∧
        workshop.offers node = false ∧ surroundings.ownError? workshop.config node = some error) ∧
    (build.FailsByInput node ↔ ∃ input ∈ node.inputs, ∃ error, build.final.report.Failed input.fingerprint error) ∧
    ((∀ name input cause, surroundings.ownError? workshop.config node ≠ some (.dependencyFailed name input cause)) →
      ((∃ name input cause, build.final.report.Failed node.fingerprint (.dependencyFailed name input cause)) ↔
        ∃ input ∈ node.inputs, ∃ error, build.final.report.Failed input.fingerprint error)) ∧
    (∀ name, build.final.report.get? node.fingerprint ≠ some ⟨name, .cancelled⟩) ∧
    ∃ kind, (build.final.report.get? node.fingerprint).map (·.status.kind) = some kind ∧
      (other.final.report.get? node.fingerprint).map (·.status.kind) = some kind := by
  have concluded := build.concluded keepsGoing lawful
  have concluded' := other.concluded keepsGoing lawful
  have found := concluded.closed.find?_of_mem member
  have inputs (P : Fingerprint → Prop) :
      (∀ input, (ofRoots roots).Uses node.fingerprint input → P input) ↔ ∀ input ∈ node.inputs, P input.fingerprint := by
    simp [Uses, mem_dependencies found]
  have some' (P : Fingerprint → Prop) :
      (∃ input, (ofRoots roots).Uses node.fingerprint input ∧ P input) ↔ ∃ input ∈ node.inputs, P input.fingerprint := by
    simp [Uses, mem_dependencies found]
  have itself (error : BuildError) := concluded.failed_itself_iff member error
  have byInput := concluded.failed_by_input_iff member
  refine ⟨concluded.succeeded_iff_all member, fun error => (itself error).trans (by rw [inputs]), byInput.trans (some' _),
    ?_, concluded.not_cancelled member, ?_⟩
  · intro own
    refine Iff.trans ?_ (byInput.trans (some' _))
    constructor
    · rintro ⟨name, input, cause, failed⟩
      refine ⟨_, failed, ?_⟩
      by_contra notHanded
      exact own name input cause ((itself _).mp ⟨failed, notHanded⟩).2.2
    · rintro ⟨error, failed, input, cause, _, _, rfl, _⟩
      exact ⟨_, _, _, failed⟩
  · obtain ⟨status, known⟩ := concluded.recorded node member
    exact ⟨status.kind, by simp [known], by rw [← concluded.kind_eq concluded' member]; simp [known]⟩

open Errand in
/-- One input of an application is remembered, the other cannot be made. -/
theorem reports_errand : ∃ build : Build (shop [tool] asked) Errand.surroundings [app],
    build.final.report.succeeded tool.fingerprint = true ∧ (∃ error, build.FailsItself lib error) ∧
      build.FailsByInput app := by
  obtain ⟨path, message, foreseen, ran⟩ := runs_course
  let build : Build (shop [tool] asked) Errand.surroundings [app] :=
    ⟨asked, course, _, closed (.store path message), opens_asked, rfl, foreseen, ran, rfl, rfl⟩
  obtain ⟨place, wording, prepare⟩ := prepare_lib
  have fails (node : Derivation) :
      Errand.surroundings.ownError? (shop [tool] asked).config node = some (.store place wording) := by
    simp [Surroundings.ownError?, Errand.surroundings, prepare, Store.failure?]
  have lawful : ∀ node ∈ (ofRoots [app]).nodes, ∀ name,
      Errand.surroundings.ownError? (shop [tool] asked).config node ≠ some (.cancelled name) := by
    intro node _ name
    simp [fails]
  have within : ∀ node ∈ [app, lib, tool], node ∈ (ofRoots [app]).nodes := fun _ member => member
  have ofTool := build.reports build rfl lawful (within tool (by simp))
  have ofLib := build.reports build rfl lawful (within lib (by simp))
  have ofApp := build.reports build rfl lawful (within app (by simp))
  have libFails : build.FailsItself lib (.store place wording) :=
    (ofLib.2.1 _).mpr ⟨fun input member => absurd member List.not_mem_nil, working_forgotten _, fails lib⟩
  refine ⟨build, ofTool.1.mpr ?_, ⟨_, libFails⟩, ofApp.2.2.1.mpr ⟨lib, by simp [app, Derivation.inputs], _, libFails.1⟩⟩
  intro needed member path
  have bare : (ofRoots [app]).dependencies tool.fingerprint = [] := by decide
  rcases path.cases_head with same | ⟨input, uses, _⟩
  · obtain rfl := List.inj_on_of_nodup_map (closed_ofRoots [app]).distinct (within tool (by simp)) member same
    exact Or.inl rfl
  · rw [Uses, bare] at uses
    cases uses

end Build
end Pkgset

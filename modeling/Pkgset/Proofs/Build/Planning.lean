import Pkgset.Proofs.Build.Cancellation
import Pkgset.Proofs.Build.Conservation

/-!
# Plans and what becomes of them

A plan looks for the outputs of every derivation that some roots need, and what is found
is remembered. So a build that follows finds these outputs too, whenever it comes to
look: it makes only what the plan says is not there. It may not come to look, since a
derivation waits for all its inputs, also for those that fail.
-/

namespace Pkgset
open BuildReport BuildGraph

namespace Workshop
variable {workshop later planned : Workshop} {graph : BuildGraph} {node looked : Derivation} {fingerprint : Fingerprint}
  {outputs : Outputs}

/-! ### What a plan finds -/

/-- Looking for one derivation does not change what is found for another. -/
theorem found_fetch (alike : node.fingerprint = looked.fingerprint → node = looked) :
    ((workshop.fetch looked).1.fetch node).2 = (workshop.fetch node).2 := by
  by_cases same : node.fingerprint = looked.fingerprint
  · obtain rfl := alike same
    cases found : (workshop.fetch node).2 with
    | some outputs => rw [fetch_of_remembered (get?_of_fetch found)]
    | none =>
      have missed : workshop.offers node = false := by simp [offers, found]
      simp only [fetch_of_missed missed]
  · rw [found_eq, found_eq, get?_fetch_of_ne workshop same]
    rfl

/-- What a plan says of a derivation. -/
def entry (workshop : Workshop) (node : Derivation) : Planned :=
  ⟨node.name, node.fingerprint, (workshop.fetch node).2.isSome⟩

/-- What looking for the derivations of some fingerprints leaves: what was found is remembered,
    and nothing else changes. -/
structure Surveys (workshop later : Workshop) (graph : BuildGraph) (fingerprints : List Fingerprint) : Prop where
  requests : later.requests = workshop.requests
  config : later.config = workshop.config
  calls : later.calls = workshop.calls
  remembers : workshop.Remembers later
  known : ∀ fingerprint ∈ fingerprints, ∀ node, graph.find? fingerprint = some node → ∀ outputs,
    (workshop.fetch node).2 = some outputs → later.cache.get? fingerprint = some outputs

theorem planLayer_surveys (graph : BuildGraph) (workshop : Workshop) (fingerprints : List Fingerprint) :
    workshop.Surveys (planLayer graph workshop fingerprints).1 graph fingerprints ∧
      (planLayer graph workshop fingerprints).2 = (fingerprints.filterMap graph.find?).map workshop.entry := by
  fun_induction planLayer graph workshop fingerprints with
  | case1 workshop => exact ⟨⟨rfl, rfl, rfl, .refl workshop, by simp⟩, rfl⟩
  | case2 workshop fingerprint rest missing ih =>
    obtain ⟨surveys, entries⟩ := ih
    refine ⟨⟨surveys.requests, surveys.config, surveys.calls, surveys.remembers, ?_⟩, by simp [missing, entries]⟩
    intro other member node found
    rcases List.mem_cons.mp member with rfl | later
    · rw [missing] at found
      cases found
    · exact surveys.known other later node found
  | case3 workshop fingerprint rest node found after answer fetched last others planned ih =>
    obtain ⟨rfl, rfl⟩ : (workshop.fetch node).1 = after ∧ (workshop.fetch node).2 = answer :=
      ⟨congrArg Prod.fst fetched, congrArg Prod.snd fetched⟩
    rw [planned] at ih
    obtain ⟨surveys, entries⟩ := ih
    -- a fingerprint has one derivation in the graph, so looking for this one changes no answer
    have same {twin : Fingerprint} {other : Derivation} (known : graph.find? twin = some other) :
        ((workshop.fetch node).1.fetch other).2 = (workshop.fetch other).2 := by
      refine found_fetch fun alike => ?_
      rw [(find?_some known).2, (find?_some found).2] at alike
      subst alike
      exact Option.some.inj (known.symm.trans found)
    refine ⟨⟨surveys.requests, surveys.config, surveys.calls,
      (remembers_fetch workshop node).trans surveys.remembers, ?_⟩, ?_⟩
    · intro other member twin known outputs answers
      rcases List.mem_cons.mp member with rfl | later
      · obtain rfl : twin = node := Option.some.inj (known.symm.trans found)
        rw [← (find?_some known).2]
        exact surveys.remembers _ _ (get?_of_fetch answers)
      · exact surveys.known other later twin known outputs ((same known).trans answers)
    · have rest' : others = (rest.filterMap graph.find?).map workshop.entry := by
        refine entries.trans (List.map_congr_left fun other member => ?_)
        obtain ⟨twin, _, known⟩ := List.mem_filterMap.mp member
        simp only [entry, same known]
      simp [found, entry, rest', (find?_some found).2]

theorem planLayer_append (graph : BuildGraph) (workshop : Workshop) (first second : List Fingerprint) :
    planLayer graph workshop (first ++ second) =
      ((planLayer graph (planLayer graph workshop first).1 second).1,
        (planLayer graph workshop first).2 ++ (planLayer graph (planLayer graph workshop first).1 second).2) := by
  fun_induction planLayer graph workshop first with
  | case1 workshop => rfl
  | case2 workshop fingerprint rest missing ih => rw [List.cons_append, planLayer, missing, ih]
  | case3 workshop fingerprint rest node found after answer fetched last others planned ih =>
    rw [planned] at ih
    rw [List.cons_append, planLayer, found]
    simp only [fetched, ih, List.cons_append]

/-- The plans of layers are the plan of all they have, one after another. -/
theorem planLayers_eq (graph : BuildGraph) (workshop : Workshop) (layers : List (List Fingerprint)) :
    (planLayers graph workshop layers).1 = (planLayer graph workshop layers.flatten).1 ∧
      (planLayers graph workshop layers).2.flatten = (planLayer graph workshop layers.flatten).2 := by
  fun_induction planLayers graph workshop layers with
  | case1 workshop => exact ⟨rfl, rfl⟩
  | case2 workshop layer rest after first planned last others plannedRest ih =>
    rw [plannedRest] at ih
    rw [List.flatten_cons, planLayer_append, planned]
    exact ⟨ih.1, by rw [List.flatten_cons, ih.2]⟩

/-- A plan lists the derivations that the roots need, each with whether it was found, and what
    was found is remembered. -/
structure Foresees (workshop planned : Workshop) (roots : List Derivation) (entries : List Planned) : Prop where
  requests : planned.requests = workshop.requests
  config : planned.config = workshop.config
  calls : planned.calls = workshop.calls
  remembers : workshop.Remembers planned
  listed : ∀ entry, entry ∈ entries ↔ ∃ node ∈ (ofRoots roots).nodes, workshop.entry node = entry
  known : ∀ node ∈ (ofRoots roots).nodes, ∀ outputs,
    (workshop.fetch node).2 = some outputs → planned.cache.get? node.fingerprint = some outputs

theorem plan_eq {roots : List Derivation} {found : List (List Fingerprint)} (waves : (ofRoots roots).waves = .ok found) :
    workshop.plan roots = .ok (planLayers (ofRoots roots) workshop found) := by
  simp [plan, fromRoots, topological, waves, Except.map, bind, Except.bind]

theorem plan_foresees {roots : List Derivation} {layers : List (List Planned)}
    (plans : workshop.plan roots = .ok (planned, layers)) : workshop.Foresees planned roots layers.flatten := by
  cases waves : (ofRoots roots).waves with
  | error error => simp [plan, fromRoots, topological, waves, Except.map, bind, Except.bind] at plans
  | ok found =>
    rw [plan_eq waves, Except.ok.injEq] at plans
    obtain ⟨rfl, rfl⟩ : (planLayers (ofRoots roots) workshop found).1 = planned ∧
        (planLayers (ofRoots roots) workshop found).2 = layers := ⟨congrArg Prod.fst plans, congrArg Prod.snd plans⟩
    have closed := closed_ofRoots roots
    have sorted : (ofRoots roots).topological = .ok found.flatten := by simp [topological, waves, Except.map]
    have order := closed.inputsFirst_topological sorted
    obtain ⟨surveys, entries⟩ := planLayer_surveys (ofRoots roots) workshop found.flatten
    obtain ⟨after, listed⟩ := planLayers_eq (ofRoots roots) workshop found
    rw [after, listed, entries]
    have within {node : Derivation} (member : node ∈ (ofRoots roots).nodes) : node.fingerprint ∈ found.flatten :=
      (order.covers _).mpr (found_iff.mpr ⟨node, member, rfl⟩)
    refine ⟨surveys.requests, surveys.config, surveys.calls, surveys.remembers, fun entry => ?_, ?_⟩
    · simp only [List.mem_map, List.mem_filterMap]
      constructor
      · rintro ⟨node, ⟨fingerprint, _, known⟩, rfl⟩
        exact ⟨node, (find?_some known).1, rfl⟩
      · rintro ⟨node, member, rfl⟩
        exact ⟨node, ⟨node.fingerprint, within member, closed.find?_of_mem member⟩, rfl⟩
    · intro node member outputs found'
      exact surveys.known _ (within member) node (closed.find?_of_mem member) outputs found'

/-- A plan that finds nothing but what is remembered changes nothing. -/
theorem planLayer_of_quiet {graph : BuildGraph} {fingerprints : List Fingerprint}
    (quiet : ∀ fingerprint node, graph.find? fingerprint = some node → (workshop.fetch node).1 = workshop) :
    (planLayer graph workshop fingerprints).1 = workshop := by
  induction fingerprints with
  | nil => rfl
  | cons fingerprint rest ih =>
    rw [planLayer]
    cases found : graph.find? fingerprint with
    | none => exact ih
    | some node =>
      simp only [quiet fingerprint node found]
      exact ih

theorem plan_of_quiet {roots : List Derivation} {found : List (List Fingerprint)} (waves : (ofRoots roots).waves = .ok found)
    (quiet : ∀ fingerprint node, (ofRoots roots).find? fingerprint = some node → (workshop.fetch node).1 = workshop) :
    ∃ layers, workshop.plan roots = .ok (workshop, layers) := by
  refine ⟨(planLayers (ofRoots roots) workshop found).2, ?_⟩
  have same : (planLayers (ofRoots roots) workshop found).1 = workshop :=
    (planLayers_eq _ _ _).1.trans (planLayer_of_quiet quiet)
  rw [plan_eq waves]
  exact congrArg Except.ok (Prod.ext same rfl)

/-- What is remembered is planned as being there. -/
theorem mem_plan_of_remembered {roots : List Derivation} {layers : List (List Planned)}
    (plans : workshop.plan roots = .ok (planned, layers)) (found : (ofRoots roots).find? node.fingerprint = some node)
    (known : workshop.cache.get? node.fingerprint = some outputs) :
    ⟨node.name, node.fingerprint, true⟩ ∈ layers.flatten := by
  refine ((plan_foresees plans).listed _).mpr ⟨node, (find?_some found).1, ?_⟩
  simp [entry, fetch_of_remembered known]

end Workshop

namespace Request
variable {config : BuildConfig} {request next : Request} {fingerprint : Fingerprint} {outputs : Outputs}

/-! ### A derivation whose outputs are remembered -/

/-- How a derivation is recorded whose outputs are remembered: it has them, or it failed because
    of an input, or it was called off since the request stopped or an input was missing at
    the end. -/
inductive Recalled (request : Request) (fingerprint : Fingerprint) (outputs : Outputs) : BuildStatus → Prop where
  | found : Recalled request fingerprint outputs (.succeeded outputs true)
  | failed {node : Derivation} {error : BuildError} (found : request.graph.find? fingerprint = some node)
      (handed : HandedDown request.graph request.report node error) : Recalled request fingerprint outputs (.failed error)
  | stopped (stopped : request.isStopped = true) : Recalled request fingerprint outputs .cancelled
  | lacking (ended : request.closed = true) (lacks : request.graph.missing request.report fingerprint ≠ 0) :
      Recalled request fingerprint outputs .cancelled

/-- A request that goes on and does not end twice keeps how a derivation is recorded. -/
theorem Recalled.keep {status : BuildStatus} (stands : request.Recalled fingerprint outputs status)
    (continues : request.Continues next) (stopped : request.isStopped = true → next.isStopped = true)
    (lasts : request.closed = true → next.closed = true ∧ next.report = request.report) :
    next.Recalled fingerprint outputs status := by
  cases stands with
  | found => exact .found
  | failed found handed =>
    refine .failed (by rw [continues.graph]; exact found) ?_
    rw [continues.graph]
    exact handed.mono continues.grows
  | stopped isStopped => exact .stopped (stopped isStopped)
  | lacking ended lacks =>
    obtain ⟨ended', same⟩ := lasts ended
    exact .lacking ended' (by rw [continues.graph, same]; exact lacks)

/-- What a request knows of a derivation whose outputs are remembered: it has no job for it,
    and it stops only for a failure. -/
structure Recalls (config : BuildConfig) (request : Request) (fingerprint : Fingerprint) (outputs : Outputs) :
    Prop where
  jobs : ∀ job ∈ request.jobs, job.fingerprint ≠ fingerprint
  recorded : ∀ record, request.report.get? fingerprint = some record →
    request.Recalled fingerprint outputs record.status
  halted : request.halted = true → config.keepGoing = false ∧ ∃ failed error, request.report.Failed failed error

/-- A request that starts has not come to any derivation. -/
theorem Opens.recalls {roots : List Derivation} (opened : request.Opens roots) (config : BuildConfig) :
    request.Recalls config fingerprint outputs := by
  rw [opened.fresh]
  exact ⟨by simp [ofGraph], fun record recorded => (by cases recorded), fun halted => (by cases halted)⟩

/-- While something is ready, looked for or in a job, a request has not ended. -/
theorem Books.open_of_placed (books : request.Books []) (member : fingerprint ∈ request.placed) :
    request.closed = false := by
  cases ended : request.closed with
  | false => rfl
  | true =>
    have nothing : request.placed = [] := by simpa using (books.ended ended).1
    rw [nothing] at member
    cases member

/-- What a request knows, it still knows after something that brings no job and no other
    record of the derivation. -/
theorem Recalls.keep (recalls : request.Recalls config fingerprint outputs) (continues : request.Continues next)
    (stopped : request.isStopped = true → next.isStopped = true)
    (lasts : request.closed = true → next.closed = true ∧ next.report = request.report)
    (jobs : ∀ job ∈ next.jobs, job.fingerprint ≠ fingerprint)
    (recorded : ∀ record, next.report.get? fingerprint = some record →
      request.report.get? fingerprint = some record ∨ next.Recalled fingerprint outputs record.status)
    (halted : next.halted = true →
      request.halted = true ∨ config.keepGoing = false ∧ ∃ failed error, next.report.Failed failed error) :
    next.Recalls config fingerprint outputs := by
  refine ⟨jobs, fun record known => ?_, fun isHalted => ?_⟩
  · rcases recorded record known with old | new
    · exact (recalls.recorded record old).keep continues stopped lasts
    · exact new
  · rcases halted isHalted with before | new
    · obtain ⟨stops, failed, error, known⟩ := recalls.halted before
      exact ⟨stops, failed, error, continues.grows.failed known⟩
    · exact new

theorem Recalls.visit (recalls : request.Recalls config fingerprint outputs) (books : request.Books [])
    (visits : request.visit = some next) : next.Recalls config fingerprint outputs := by
  have continues := (books.visit visits).2
  obtain ⟨first, rest, derivation, looking, ready, found, ends⟩ := visit_cases books visits
  have open' := books.open_of_placed (by simp [placed, ready] : first ∈ request.placed)
  rcases ends with ⟨stopped, rfl⟩ | ⟨going, rfl⟩
  · refine recalls.keep continues id (by simp [open']) recalls.jobs (fun record known => ?_) Or.inl
    by_cases same : fingerprint = derivation.fingerprint
    · simp only [Request.record, get?_insert, same, ↓reduceIte, Option.some.injEq] at known
      rw [← known]
      exact Or.inr (.stopped stopped)
    · exact Or.inl (by simpa [Request.record, get?_insert, same] using known)
  · exact recalls.keep continues id (by simp [open']) recalls.jobs (fun _ => Or.inl) Or.inl

/-- Where the derivation itself is looked for, its outputs are found. -/
theorem Recalls.looked (recalls : request.Recalls config fingerprint outputs) (books : request.Books [])
    {derivation : Derivation} (looking : request.looking = some derivation) {found : Option Outputs}
    (finds : derivation.fingerprint = fingerprint → found = some outputs) :
    (request.looked derivation found).Recalls config fingerprint outputs := by
  have continues := (books.looked looking found).2
  have open' := books.open_of_placed (by simp [placed, looking] : derivation.fingerprint ∈ request.placed)
  cases found with
  | some answer =>
    obtain ⟨waiting, ready, shape⟩ := succeed_eq { request with looking := none } derivation ⟨answer, true⟩
    have shape : request.looked derivation (some answer) = _ := shape
    rw [shape] at continues ⊢
    refine recalls.keep continues id (by simp [open']) recalls.jobs (fun record known => ?_) Or.inl
    by_cases same : fingerprint = derivation.fingerprint
    · simp only [Request.record, get?_insert, same, ↓reduceIte, Option.some.injEq] at known
      obtain rfl : answer = outputs := Option.some.inj (finds same.symm)
      rw [← known]
      exact Or.inr .found
    · exact Or.inl (by simpa [Request.record, get?_insert, same] using known)
  | none =>
    refine recalls.keep continues id (by simp [open']) (fun job member => ?_) (fun _ => Or.inl) Or.inl
    rcases List.mem_append.mp member with old | new
    · exact recalls.jobs job old
    · rw [List.mem_singleton.mp new]
      intro same
      cases finds same

theorem Recalls.updateJob (recalls : request.Recalls config fingerprint outputs) (books : request.Books [])
    {job moved : Job} (member : request.jobs.find? (·.fingerprint = job.fingerprint) = some job)
    (derivation : moved.derivation = job.derivation) (inputs : moved.inputs = job.inputs) {cancelled : Bool}
    (lasts : request.cancelled = true → cancelled = true) :
    ({ request with cancelled }.updateJob job.fingerprint fun _ => moved).Recalls config fingerprint outputs := by
  have continues := (books.updateJob member derivation inputs cancelled).2
  have same := fingerprints_updateJob { request with cancelled } derivation
  refine recalls.keep continues (fun stopped => ?_) (fun ended => ⟨ended, rfl⟩) (fun other present alike => ?_)
    (fun _ => Or.inl) Or.inl
  · rcases Bool.or_eq_true_iff.mp stopped with off | halted
    · exact Bool.or_eq_true_iff.mpr (Or.inl (lasts off))
    · exact Bool.or_eq_true_iff.mpr (Or.inr halted)
  · have listed : other.fingerprint ∈ request.jobs.map Job.fingerprint := by
      rw [← same]
      exact List.mem_map_of_mem present
    obtain ⟨before, within, equal⟩ := List.mem_map.mp listed
    exact recalls.jobs before within (equal.trans alike)

/-- A request is halted for a failure, if it does not keep going. -/
theorem halted_conclude (closed : request.graph.Closed) {derivation : Derivation}
    (fresh : request.report.has derivation.fingerprint = false)
    (found : request.graph.find? derivation.fingerprint = some derivation) {result : JobResult}
    (halted : (request.conclude config derivation result).halted = true) :
    request.halted = true ∨ config.keepGoing = false ∧
      ∃ failed error, (request.conclude config derivation result).report.Failed failed error := by
  revert halted
  fun_cases Request.conclude config request derivation result with
  | case1 realized =>
    intro halted
    exact Or.inl ((succeed_frame ..).2.2.symm.trans halted)
  | case2 name => exact Or.inl
  | case3 error other failed keepsGoing => exact Or.inl
  | case4 error other failed stops =>
    intro _
    have flood := failAll_flood closed request.report [(derivation.fingerprint, error)]
    obtain ⟨record, known⟩ := has_iff.mp
      (flood.stacked (derivation.fingerprint, error) (by simp) (contains_iff.mpr ⟨derivation, found⟩))
    obtain ⟨node, cause, _, rfl, _⟩ := flood.origin _ _ known fresh
    exact Or.inr ⟨by simpa using stops, derivation.fingerprint, cause, node.name, known⟩

theorem Recalls.join (recalls : request.Recalls config fingerprint outputs) (books : request.Books [])
    {joined : Fingerprint} (joins : request.join config joined = some next) :
    next.Recalls config fingerprint outputs := by
  have continues := (books.join joins).2
  obtain ⟨job, result, looking, ready, member, rfl, place, rfl⟩ := join_cases joins
  have present : job.fingerprint ∈ request.placed := by simpa [placed, looking, ready] using ⟨job, member, rfl⟩
  have open' := books.open_of_placed present
  have apart : fingerprint ≠ job.derivation.fingerprint := (recalls.jobs job member).symm
  refine recalls.keep continues (fun stopped => stopped_conclude stopped) (by simp [open']) ?_ ?_ ?_
  · intro other present
    rw [Workshop.jobs_conclude] at present
    exact recalls.jobs other (List.mem_of_mem_filter present)
  · intro record known
    rcases conclude_recorded (by exact books.graph) apart known with old | ⟨node, error, found, rfl, handed⟩
    · exact Or.inl old
    · refine Or.inr (.failed (by rw [continues.graph]; exact found) ?_)
      rw [continues.graph]
      exact handed
  · intro halted
    refine halted_conclude ?_ ?_ ?_ halted
    · exact books.graph
    · exact books.unrecorded _ present
    · exact (books.jobs job member).1

theorem Recalls.close (recalls : request.Recalls config fingerprint outputs) (books : request.Books [])
    (closes : request.close = some next) : next.Recalls config fingerprint outputs := by
  obtain ⟨booksNext, continues⟩ := books.close closes
  have recorded {record : BuildRecord} (known : next.report.get? fingerprint = some record) :=
    Books.recorded_of_close closes known
  obtain ⟨idle, open', later, rfl, _⟩ := Books.close_cases closes
  refine recalls.keep continues id (by simp [open']) recalls.jobs (fun record known => ?_) Or.inl
  cases old : request.report.get? fingerprint with
  | some before =>
    exact Or.inl ((continues.grows _ _ old).symm.trans known)
  | none =>
    rcases recorded known with before | ⟨node, found, rfl⟩
    · rw [old] at before
      cases before
    · refine Or.inr (.lacking rfl fun complete => ?_)
      -- all inputs would have succeeded before the end, and the derivation would have had its turn
      have lacks : request.graph.missing request.report fingerprint = 0 := by
        refine missing_eq_zero.mpr fun input uses => ?_
        obtain ⟨name, answer, cached, done⟩ := succeeded_iff.mp (missing_eq_zero.mp complete input uses)
        rcases Books.recorded_of_close closes done with before | ⟨_, _, absurd⟩
        · exact succeeded_iff.mpr ⟨name, answer, cached, before⟩
        · cases absurd
      have placed := books.complete fingerprint (contains_iff.mpr ⟨node, found⟩) lacks (get?_eq_none.mp old)
      rw [List.nil_append, idle] at placed
      cases placed

/-- At its end, a request that was not called off has the outputs of a derivation that are
    remembered, if all direct inputs succeeded and it was not halted. -/
theorem Recalls.succeeded (recalls : request.Recalls config fingerprint outputs) (books : request.Books [])
    (ended : request.closed = true) (uncancelled : request.cancelled = false) {node : Derivation}
    (found : request.graph.find? fingerprint = some node)
    (done : ∀ input ∈ request.graph.dependencies fingerprint, request.report.succeeded input = true)
    (going : config.keepGoing = true ∨ ∀ failed error, ¬ request.report.Failed failed error) :
    request.report.get? fingerprint = some ⟨node.name, .succeeded outputs true⟩ := by
  obtain ⟨⟨name, status⟩, known⟩ :=
    has_iff.mp ((books.ended ended).2 fingerprint (contains_iff.mpr ⟨node, found⟩))
  obtain ⟨twin, foundTwin, named⟩ := books.named fingerprint _ known
  obtain rfl : node = twin := Option.some.inj (found.symm.trans foundTwin)
  obtain rfl : name = node.name := named
  have stands : request.Recalled fingerprint outputs status := recalls.recorded _ known
  cases stands with
  | found => exact known
  | failed foundTwin handed =>
    obtain ⟨input, cause, uses, _, _, failed⟩ := handed
    rw [(find?_some foundTwin).2] at uses
    have succeeded := done _ uses
    rw [Failed.not_succeeded ⟨_, failed⟩] at succeeded
    cases succeeded
  | stopped stopped =>
    have halted : request.halted = true := by simpa [isStopped, uncancelled] using stopped
    obtain ⟨stops, failed, error, known⟩ := recalls.halted halted
    rcases going with keepsGoing | none
    · rw [stops] at keepsGoing
      cases keepsGoing
    · exact absurd known (none failed error)
  | lacking ended lacks => exact absurd (missing_eq_zero.mpr done) lacks

end Request

namespace Workshop
variable {workshop next planned after : Workshop} {event : Event} {id : RequestId} {request : Request}
  {node : Derivation} {fingerprint : Fingerprint} {outputs : Outputs}

/-! ### A build that follows a plan -/

theorem Undergoes.recalls {request' : Request} (undergoes : workshop.Undergoes id request event request')
    (books : request.Books []) (known : workshop.cache.get? fingerprint = some outputs)
    (recalls : request.Recalls workshop.config fingerprint outputs) :
    request'.Recalls workshop.config fingerprint outputs := by
  cases undergoes with
  | visit visits => exact recalls.visit books visits
  | look looking =>
    refine recalls.looked books looking fun alike => ?_
    rw [fetch_of_remembered (alike ▸ known)]
  | @advance job member =>
    have frame := advance_frame workshop id request job
    exact recalls.updateJob books member frame.derivation frame.inputs fun off => off
  | @reply job place attempt rest reply cancels member running open' =>
    have frame := replied_frame workshop.config job place attempt rest reply
    exact recalls.updateJob books member frame.1 frame.2 (by simp [open'])
  | join joins => exact recalls.join books joins
  | close closes => exact recalls.close books closes
  | cancel =>
    exact recalls.keep ⟨rfl, Extends.refl _, fun _ => Or.inl⟩ (fun _ => by simp [Request.isStopped])
      (fun ended => ⟨ended, rfl⟩) recalls.jobs (fun _ => Or.inl) Or.inl

/-- Whatever happens in a workshop that remembers the outputs of a derivation, a request knows
    of it what it knew. -/
theorem Serves.recalls (serves : workshop.Serves event next) (guarded : workshop.Guarded)
    (known : workshop.cache.get? fingerprint = some outputs) (at' : workshop.requests[id]? = some request)
    (recalls : request.Recalls workshop.config fingerprint outputs) :
    ∃ request', next.requests[id]? = some request' ∧ request'.Recalls workshop.config fingerprint outputs := by
  obtain ⟨request', atNow, rfl | undergoes⟩ := serves.undergoes at'
  · exact ⟨request', atNow, recalls⟩
  · exact ⟨request', atNow, undergoes.recalls (guarded.books request (List.mem_of_getElem? at')) known recalls⟩

theorem run_recalls {events : List Event} (guarded : workshop.Guarded)
    (known : workshop.cache.get? fingerprint = some outputs) (at' : workshop.requests[id]? = some request)
    (recalls : request.Recalls workshop.config fingerprint outputs) (ran : workshop.run events = some after) :
    ∃ later, after.requests[id]? = some later ∧ later.Recalls workshop.config fingerprint outputs := by
  induction events generalizing workshop request with
  | nil =>
    cases ran
    exact ⟨request, at', recalls⟩
  | cons event rest ih =>
    obtain ⟨between, steps, onwards⟩ := run_cons ran
    have serves := step_serves steps
    obtain ⟨now, atNow, still⟩ := serves.recalls guarded known at' recalls
    have remembered := (serves.works guarded.books).remembers _ _ known
    obtain ⟨later, atLater, recallsLater⟩ := ih (guarded.step serves) remembered atNow (serves.config ▸ still) onwards
    exact ⟨later, atLater, serves.config ▸ recallsLater⟩

/-- The calls that a request makes are for derivations of its graph, which it keeps. -/
theorem run_calls {events : List Event} (guarded : workshop.Guarded) (at' : workshop.requests[id]? = some request)
    (ran : workshop.run events = some after) :
    ∃ later fresh, after.requests[id]? = some later ∧ later.graph = request.graph ∧
      after.calls = fresh ++ workshop.calls ∧ ∀ call ∈ fresh, call.request = id →
        request.graph.find? call.derivation.fingerprint = some call.derivation := by
  induction events generalizing workshop request with
  | nil =>
    cases ran
    exact ⟨request, [], at', rfl, rfl, by simp⟩
  | cons event rest ih =>
    obtain ⟨between, steps, onwards⟩ := run_cons ran
    have serves := step_serves steps
    obtain ⟨now, atNow, continues⟩ := (serves.turn.books guarded.books).2 id request at'
    obtain ⟨later, fresh, atLater, graph, calls, within⟩ := ih (guarded.step serves) atNow onwards
    rw [continues.graph] at graph within
    rcases serves.calls with same | ⟨other, owner, job, attempt, place, owns, member, called⟩
    · exact ⟨later, fresh, atLater, graph, by rw [calls, same], within⟩
    · refine ⟨later, fresh ++ [⟨other, job.derivation, attempt, place, job.inputs⟩], atLater, graph, ?_, ?_⟩
      · rw [calls, called, List.append_assoc, List.singleton_append]
      · intro call present here
        rcases List.mem_append.mp present with new | last
        · exact within call new here
        · obtain rfl := List.mem_singleton.mp last
          obtain rfl : other = id := here
          obtain rfl : owner = request := Option.some.inj (owns.symm.trans at')
          exact ((guarded.books owner (List.mem_of_getElem? at')).jobs job member).1

/-- The workshop with one more request. -/
def receive (workshop : Workshop) (request : Request) : Workshop :=
  { workshop with requests := workshop.requests ++ [request] }

/-- Where all requests have ended and one more starts, nobody has a job. -/
private theorem has_receive {roots : List Derivation} (guarded : workshop.Guarded)
    (idle : ∀ request ∈ workshop.requests, request.closed = true) (requests : planned.requests = workshop.requests)
    (opened : request.Opens roots) {job : Job} : ¬ (planned.receive request).Has id job := by
  rintro ⟨owner, at', present⟩
  have member : owner ∈ workshop.requests ++ [request] := requests ▸ List.mem_of_getElem? at'
  rcases List.mem_append.mp member with old | new
  · have nothing := ((guarded.books owner old).ended (idle owner old)).1
    simp only [Request.placed, List.nil_append, List.append_eq_nil_iff, List.map_eq_nil_iff] at nothing
    rw [nothing.2.2] at present
    cases present
  · rw [List.mem_singleton.mp new, opened.fresh] at present
    cases present

theorem Guarded.receive {roots : List Derivation} (guarded : workshop.Guarded)
    (idle : ∀ request ∈ workshop.requests, request.closed = true) (requests : planned.requests = workshop.requests)
    (remembers : workshop.Remembers planned) (opened : request.Opens roots) : (planned.receive request).Guarded := by
  have nobody {id : RequestId} {job : Job} : ¬ (planned.receive request).Has id job :=
    has_receive guarded idle requests opened
  refine ⟨fun owner member => ?_, fun has => absurd has nobody, fun has => absurd has nobody,
    fun has => absurd has nobody, fun owner member fingerprint outputs reports => ?_⟩
  · have member : owner ∈ workshop.requests ++ [request] := requests ▸ member
    rcases List.mem_append.mp member with old | new
    · exact guarded.books owner old
    · exact List.mem_singleton.mp new ▸ opened.books
  · have member : owner ∈ workshop.requests ++ [request] := requests ▸ member
    rcases List.mem_append.mp member with old | new
    · exact remembers _ _ (guarded.reported owner old fingerprint outputs reports)
    · obtain ⟨name, cached, known⟩ := reports
      rw [List.mem_singleton.mp new, opened.fresh] at known
      cases known

/-- What a plan has found is there when a request comes to the workshop, and nobody makes it. -/
theorem Foresees.provided {roots : List Derivation} {entries : List Planned}
    (foresees : workshop.Foresees planned roots entries) (guarded : workshop.Guarded)
    (idle : ∀ request ∈ workshop.requests, request.closed = true) (opened : request.Opens roots)
    (member : node ∈ (ofRoots roots).nodes) (found : (workshop.fetch node).2 = some outputs) :
    (planned.receive request).Provided node.fingerprint := by
  have known : (planned.receive request).cache.get? node.fingerprint = some outputs :=
    foresees.known node member outputs found
  exact ⟨by simp [known], fun has => absurd has (has_receive guarded idle foresees.requests opened)⟩

/-- A request follows a plan for its roots, in a workshop whose earlier requests have all ended.
    Whatever happens then, other requests and changed files included: every call that it makes
    is for a derivation of which the plan says that it is not there. If the plan says that a
    derivation is there, the runner is not called for it; a success that is reported for it is
    with the outputs that were there, and a failure is that of a direct input. If the request
    ends without being called off, the success is reported whenever all direct inputs have
    succeeded and, if the request does not keep going, nothing has failed. -/
theorem build_follows_plan {first : Workshop} {earlier events : List Event} {roots : List Derivation}
    {layers : List (List Planned)} (opens : ∀ request ∈ first.requests, ∃ roots, request.Opens roots)
    (came : first.run earlier = some workshop) (idle : ∀ request ∈ workshop.requests, request.closed = true)
    (plans : workshop.plan roots = .ok (planned, layers)) (opened : request.Opens roots)
    (ran : (planned.receive request).run events = some after) :
    ∃ now fresh, after.requests[workshop.requests.length]? = some now ∧ after.calls = fresh ++ workshop.calls ∧
      (∀ call ∈ fresh, call.request = workshop.requests.length →
        ⟨call.derivation.name, call.derivation.fingerprint, false⟩ ∈ layers.flatten) ∧
      ∀ node ∈ (ofRoots roots).nodes, ⟨node.name, node.fingerprint, true⟩ ∈ layers.flatten →
        (∀ call ∈ fresh, call.derivation.fingerprint ≠ node.fingerprint) ∧
        ∃ outputs, (workshop.fetch node).2 = some outputs ∧
          (∀ name answer cached, now.report.get? node.fingerprint = some ⟨name, .succeeded answer cached⟩ →
            answer = outputs ∧ cached = true) ∧
          (∀ error, now.report.Failed node.fingerprint error →
            Request.HandedDown (ofRoots roots) now.report node error) ∧
          (now.closed = true → now.cancelled = false →
            (∀ input ∈ (ofRoots roots).dependencies node.fingerprint, now.report.succeeded input = true) →
            (workshop.config.keepGoing = true ∨ ∀ failed error, ¬ now.report.Failed failed error) →
              now.report.get? node.fingerprint = some ⟨node.name, .succeeded outputs true⟩) := by
  have guarded : workshop.Guarded := (Guarded.opens opens).run came
  have foresees := plan_foresees plans
  have closed := closed_ofRoots roots
  have start : (planned.receive request).Guarded := guarded.receive idle foresees.requests foresees.remembers opened
  have at' : (planned.receive request).requests[workshop.requests.length]? = some request := by
    simp [receive, foresees.requests]
  obtain ⟨now, fresh, atNow, graph, calls, within⟩ := run_calls start at' ran
  have calls : after.calls = fresh ++ workshop.calls := foresees.calls ▸ calls
  have books := (start.run ran).books now (List.mem_of_getElem? atNow)
  have find? (fingerprint : Fingerprint) : request.graph.find? fingerprint = (ofRoots roots).find? fingerprint :=
    closed.find?_perm opened.nodes fingerprint
  -- of what was found, the outputs are remembered from the start on, and nobody makes others
  have spared {node : Derivation} (member : node ∈ (ofRoots roots).nodes) {outputs : Outputs}
      (found : (workshop.fetch node).2 = some outputs) : ∀ call ∈ fresh, call.derivation.fingerprint ≠ node.fingerprint := by
    obtain ⟨_, _, fresh', calls', others⟩ := (foresees.provided guarded idle opened member found).run start ran
    have same : fresh' ++ workshop.calls = fresh ++ workshop.calls := by
      rw [← calls, calls']
      exact congrArg (fresh' ++ ·) foresees.calls.symm
    rwa [List.append_cancel_right same] at others
  refine ⟨now, fresh, atNow, calls, fun call made here => ?_, fun node member listed => ?_⟩
  · have known := within call made here
    rw [find?] at known
    have member := (find?_some known).1
    have listed := (foresees.listed _).mpr ⟨call.derivation, member, rfl⟩
    cases found : (workshop.fetch call.derivation).2 with
    | some outputs => exact absurd rfl (spared member found call made)
    | none => simpa [entry, found] using listed
  · obtain ⟨twin, member', same⟩ := (foresees.listed _).mp listed
    obtain rfl : twin = node := List.inj_on_of_nodup_map closed.distinct member' member (congrArg Planned.fingerprint same)
    obtain ⟨outputs, found⟩ := Option.isSome_iff_exists.mp (congrArg Planned.cached same)
    have known : (planned.receive request).cache.get? twin.fingerprint = some outputs := foresees.known twin member outputs found
    obtain ⟨later, atLater, recalls⟩ := run_recalls start known at' (opened.recalls _) ran
    obtain rfl : now = later := Option.some.inj (atNow.symm.trans atLater)
    have known' : now.graph.find? twin.fingerprint = some twin := by rw [graph, find?, closed.find?_of_mem member]
    have uses' : now.graph.dependencies twin.fingerprint = (ofRoots roots).dependencies twin.fingerprint := by
      rw [graph, closed.dependencies_perm opened.nodes]
    refine ⟨spared member found, outputs, found, ?_, ?_, ?_⟩
    · intro name answer cached reported
      have stands : now.Recalled twin.fingerprint outputs (.succeeded answer cached) := recalls.recorded _ reported
      cases stands with
      | found => exact ⟨rfl, rfl⟩
    · rintro error ⟨name, reported⟩
      have stands : now.Recalled twin.fingerprint outputs (.failed error) := recalls.recorded _ reported
      cases stands with
      | failed foundTwin handed =>
        obtain rfl := Option.some.inj (known'.symm.trans foundTwin)
        obtain ⟨input, cause, uses, foundInput, shape, failed⟩ := handed
        rw [graph, find?] at foundInput
        exact ⟨input, cause, uses' ▸ uses, foundInput, shape, failed⟩
    · intro ended uncancelled done going
      have going : (planned.receive request).config.keepGoing = true ∨ ∀ failed error, ¬ now.report.Failed failed error := by
        have same : (planned.receive request).config = workshop.config := foresees.config
        rwa [same]
      exact recalls.succeeded books ended uncancelled known' (uses' ▸ done) going

end Workshop

/-! ### A plan that is not kept -/

namespace Errand
open Disk

/-- A derivation whose name cannot be that of a file. -/
def unnamed : Derivation := .mk "\x00" none [] [] ["out"] ⟨"a0"⟩

/-- A derivation that needs what cannot be made. -/
def blocked : Derivation := .mk "blocked" none [unnamed] [] ["out"] ⟨"e5"⟩

/-- A derivation that needs what can be made. -/
def spare : Derivation := .mk "spare" none [lib] [] ["out"] ⟨"f6"⟩

/-- The request for both, at its start. -/
def both : Request := .ofGraph (ofRoots [blocked, spare]) [unnamed.fingerprint, lib.fingerprint, blocked.fingerprint, spare.fingerprint] false

/-- The request while its two jobs are under way. -/
def abreast (one other : JobPlace) : Request := { both with ready := [], jobs := [⟨unnamed, [], one⟩, ⟨lib, [], other⟩] }

/-- A workshop that stops for a failure, and remembers outputs of `blocked` and `spare`. -/
def house (disk : Disk) (more : Dict Outputs) (requests : List Request) : Workshop where
  config := ⟨2, .always, 0, false, "/", none⟩
  disk := disk
  cache := ⟨more ++ [("e5", Store.outputsFor ⟨"/"⟩ blocked), ("f6", Store.outputsFor ⟨"/"⟩ spare)]⟩
  calls := []
  requests := requests

theorem waves_app : (ofRoots [app]).waves = .ok [[lib.fingerprint, tool.fingerprint], [app.fingerprint]] := by
  have first : ready [app, lib, tool] = [lib, tool] := rfl
  have second : ready [app] = [app] := rfl
  have rest : layers 2 [app] = .ok [[app.fingerprint]] := layers_of_sorted second (by simp) (by decide) rfl
  exact layers_of_sorted first (by simp) (by decide) rest

theorem opens_both : both.Opens [blocked, spare] := by
  refine ⟨List.Perm.refl _, rfl, ?_, rfl⟩
  exact (BuildGraph.closed_ofRoots [blocked, spare]).inputsFirst_of_perm (by decide) (by decide)

theorem waves_both : (ofRoots [blocked, spare]).waves =
    .ok [[unnamed.fingerprint, lib.fingerprint], [blocked.fingerprint, spare.fingerprint]] := by
  have first : ready [blocked, unnamed, spare, lib] = [unnamed, lib] := rfl
  have second : ready [blocked, spare] = [blocked, spare] := rfl
  have rest : layers 3 [blocked, spare] = .ok [[blocked.fingerprint, spare.fingerprint]] :=
    layers_of_sorted second (by simp) (by decide) rfl
  exact layers_of_sorted first (by simp) (by decide) rest

section
variable {path : String}

theorem target_nul (nul : path.toList.any (· = '\x00') = true) (disk : Disk) (follow : Bool) :
    disk.target follow path = .error .hasNul := by
  have nul : path.any (· = '\x00') = true := by
    simp only [String.any, String.contains_prop_eq]
    simpa using nul
  simp [Disk.target, nul]

theorem leadsToNode_nul (nul : path.toList.any (· = '\x00') = true) (disk : Disk) : disk.leadsToNode path = false := by
  simp [Disk.leadsToNode, Disk.node, Disk.place, target_nul nul, bind, Except.bind, Except.toBool]

theorem makeFolders_nul (nul : path.toList.any (· = '\x00') = true) (filled : path.isEmpty = false)
    (bare : String.ofList (path.toList.reverse.dropWhile (· = '/')).reverse = path) (disk : Disk) :
    disk.makeFolders path = (disk, .error .hasNul) := by
  have made : disk.makeFolder path = .error .hasNul := by
    simp only [Disk.makeFolder, bare, Disk.create, target_nul nul, bind, Except.bind]
  have noFolder : disk.isFolder path = false := by
    simp [Disk.isFolder, Disk.node, Disk.place, target_nul nul, bind, Except.bind]
  exact Disk.makeFoldersWithin_of_refused filled made (by simp) noFolder _
end

/-- How the job of `unnamed` ends. -/
def refusal : BuildError := .store (Path.join (Store.entryPath ⟨"/"⟩ unnamed) "out") FileError.hasNul.message

/-- The zero of its name is in all paths of `unnamed`. -/
private theorem spelled_unnamed : let entry := Store.entryPath ⟨"/"⟩ unnamed
    entry.toList.any (· = '\x00') = true ∧ (Path.join entry StoreMarker.fileName).toList.any (· = '\x00') = true ∧
      (Path.join entry "out").toList.any (· = '\x00') = true ∧ (Path.join entry "out").isEmpty = false ∧
      String.ofList ((Path.join entry "out").toList.reverse.dropWhile (· = '/')).reverse = Path.join entry "out" := by
  decide +kernel

theorem prepare_unnamed (disk : Disk) : Store.prepare ⟨"/"⟩ disk unnamed =
    (disk, .error refusal) := by
  obtain ⟨nul, _, nulPart, filled, bare⟩ := spelled_unnamed
  have absent := leadsToNode_nul nul disk
  have fails := makeFolders_nul nulPart filled bare disk
  have paths : Dict.values (Store.outputsFor ⟨"/"⟩ unnamed).paths = [Path.join (Store.entryPath ⟨"/"⟩ unnamed) "out"] := rfl
  have entry : (Store.outputsFor ⟨"/"⟩ unnamed).storePath = Store.entryPath ⟨"/"⟩ unnamed := rfl
  unfold Store.prepare
  simp only [entry, absent, Bool.false_eq_true, ↓reduceIte, paths, List.singleton_append, Store.makeAll, fails]
  rfl

theorem missed_unnamed (disk : Disk) : Store.lookup ⟨"/"⟩ disk unnamed = none := by
  have absent := leadsToNode_nul spelled_unnamed.2.1 disk
  simp [Store.lookup, Store.readMarker, Store.outputsFor, absent]

/-- The records when that failure was collected. -/
def losses : BuildReport where
  records := [("a0", ⟨unnamed.name, .failed refusal⟩),
    ("e5", ⟨blocked.name, .failed (.dependencyFailed blocked.name unnamed.name refusal)⟩)]
  roots := [blocked.fingerprint, spare.fingerprint]

theorem failAll_unnamed :
    Request.failAll both.graph both.report [(unnamed.fingerprint, refusal)] = losses := by
  have first : both.graph.find? unnamed.fingerprint = some unnamed := rfl
  have second : both.graph.find? blocked.fingerprint = some blocked := rfl
  rw [Request.failAll_of_fresh rfl first]
  change Request.failAll _ _ [(blocked.fingerprint, .dependencyFailed blocked.name unnamed.name refusal)] = _
  rw [Request.failAll_of_fresh rfl second]
  change Request.failAll _ _ [] = _
  rw [Request.failAll]
  rfl

/-- What happens until both derivations without inputs have jobs. -/
def openings : List Event := [.visit 0, .look 0, .visit 0, .look 0]

/-- What happens while the first job is at work, and then the second one. -/
def labours : List Event := List.replicate 5 (.advance 0 unnamed.fingerprint) ++ List.replicate 8 work

/-- What happens when both jobs are over. -/
def closings : List Event := [.join 0 unnamed.fingerprint, .join 0 lib.fingerprint, .visit 0, .close 0]

theorem missed_house {requests : List Request} {node : Derivation} (among : node = unnamed ∨ node = lib) :
    (house (ground none) [] requests).offers node = false := by
  rw [Workshop.offers_eq]
  rcases among with rfl | rfl
  · change (false || (Store.lookup ⟨"/"⟩ (ground none) unnamed).isSome) = false
    rw [missed_unnamed]
    rfl
  · change (false || (Store.lookup ⟨"/"⟩ (ground none) lib).isSome) = false
    rw [lookup_ground]
    rfl

theorem runs_openings : (house (ground none) [] [both]).run openings =
    some (house (ground none) [] [abreast .queued .queued]) := by
  let first : Request := { both with ready := [lib.fingerprint], looking := some unnamed }
  let second : Request := { both with ready := [], looking := some lib, jobs := [⟨unnamed, [], .queued⟩] }
  have at1 : (house (ground none) [] [first]).requests[0]? = some first := rfl
  have at2 : (house (ground none) [] [second]).requests[0]? = some second := rfl
  have taken1 : (house (ground none) [] [both]).step (.visit 0) = some (house (ground none) [] [first]) := rfl
  have missed1 := Workshop.step_look_of_missed at1 rfl (missed_house (Or.inl rfl))
  have taken2 : ((house (ground none) [] [first]).setRequest 0 (first.looked unnamed none)).step (.visit 0) =
      some (house (ground none) [] [second]) := rfl
  have missed2 := Workshop.step_look_of_missed at2 rfl (missed_house (Or.inr rfl))
  exact Workshop.run_step taken1 (Workshop.run_step missed1 (Workshop.run_step taken2 (Workshop.run_step missed2 rfl)))

/-- The first job makes a step. -/
private theorem step_unnamed {disk disk' : Disk} {more more' : Dict Outputs} {place later other : JobPlace}
    (moves : (house disk more [abreast place other]).advance 0 (abreast place other) ⟨unnamed, [], place⟩ =
      (house disk' more' [abreast place other], ⟨unnamed, [], later⟩)) :
    (house disk more [abreast place other]).step (.advance 0 unnamed.fingerprint) =
      some (house disk' more' [abreast later other]) := by
  have at' : (house disk more [abreast place other]).requests[0]? = some (abreast place other) := rfl
  have member : (abreast place other).jobs.find? (·.fingerprint = (⟨unnamed, [], place⟩ : Job).fingerprint) =
      some ⟨unnamed, [], place⟩ := rfl
  exact Workshop.step_advance at' member moves

/-- The second job makes a step. -/
private theorem step_lib {disk disk' : Disk} {more more' : Dict Outputs} {place later other : JobPlace}
    (moves : (house disk more [abreast other place]).advance 0 (abreast other place) ⟨lib, [], place⟩ =
      (house disk' more' [abreast other place], ⟨lib, [], later⟩)) :
    (house disk more [abreast other place]).step (.advance 0 lib.fingerprint) =
      some (house disk' more' [abreast other later]) := by
  have at' : (house disk more [abreast other place]).requests[0]? = some (abreast other place) := rfl
  have member : (abreast other place).jobs.find? (·.fingerprint = (⟨lib, [], place⟩ : Job).fingerprint) =
      some ⟨lib, [], place⟩ := rfl
  exact Workshop.step_advance at' member moves

/-- The first job is over. -/
def refused : JobPlace := .finished (.error refusal)

/-- The workshop while its two jobs are under way. -/
def busy (disk : Disk) (one other : JobPlace) : Workshop := house disk [] [abreast one other]

theorem run_refused : (busy (ground none) .queued .queued).run (List.replicate 5 (.advance 0 unnamed.fingerprint)) =
    some (busy (ground none) refused .queued) := by
  have waits : (busy (ground none) .queued .queued).run (List.replicate 3 (.advance 0 unnamed.fingerprint)) =
      some (busy (ground none) .looking .queued) := rfl
  have misses : (busy (ground none) .looking .queued).step (.advance 0 unnamed.fingerprint) =
      some (busy (ground none) .preparing .queued) :=
    step_unnamed (Workshop.advance_of_missed rfl rfl (missed_house (Or.inl rfl)))
  have fails : (busy (ground none) .preparing .queued).step (.advance 0 unnamed.fingerprint) =
      some (busy (ground none) refused .queued) := by
    refine step_unnamed ?_
    change Workshop.prepare (busy (ground none) .preparing .queued) _ = _
    have prepare : (busy (ground none) .preparing .queued).store.prepare (busy (ground none) .preparing .queued).disk
        unnamed = _ := prepare_unnamed (ground none)
    simp only [Workshop.prepare, prepare]
    rfl
  exact Workshop.run_trans waits (Workshop.run_step misses (Workshop.run_step fails rfl))

theorem run_made : ∃ marked, (busy (ground none) refused .queued).run (List.replicate 8 work) =
    some (house marked [("a1", place)] [abreast refused (.finished (.ok ⟨place, false⟩))]) := by
  obtain ⟨marked, committed⟩ := commit_ground
  let parts : Dict Node := [(".build", .empty), (".tmp", .empty), ("out", .empty)]
  have waits : (busy (ground none) refused .queued).run (List.replicate 3 work) =
      some (busy (ground none) refused .looking) := rfl
  have misses : (busy (ground none) refused .looking).step work = some (busy (ground none) refused .preparing) :=
    step_lib (Workshop.advance_of_missed rfl rfl (missed_house (Or.inr rfl)))
  have prepares : (busy (ground none) refused .preparing).step work =
      some (busy (ground (some parts)) refused (.between place [])) := by
    refine step_lib ?_
    change Workshop.prepare (busy (ground none) refused .preparing) _ = _
    have prepare : (busy (ground none) refused .preparing).store.prepare (busy (ground none) refused .preparing).disk
        lib = _ := prepare_ground
    simp only [Workshop.prepare, prepare]
    rfl
  have commits : (busy (ground (some parts)) refused (.committing place)).step work =
      some (busy marked refused (.recording place)) := by
    refine step_lib ?_
    change Workshop.commit (busy (ground (some parts)) refused (.committing place)) _ _ = _
    have commit : Store.commit (busy (ground (some parts)) refused (.committing place)).disk lib place = _ := committed
    simp only [Workshop.commit, commit]
    rfl
  refine ⟨marked, Workshop.run_trans waits (Workshop.run_step misses (Workshop.run_step prepares ?_))⟩
  exact Workshop.run_step rfl (Workshop.run_step commits rfl)

/-- The request when both jobs are over. -/
def bothOver : Request := abreast refused (.finished (.ok ⟨place, false⟩))

/-- The request when the failure was collected. -/
def bothHalted : Request :=
  { bothOver with report := losses, jobs := [⟨lib, [], .finished (.ok ⟨place, false⟩)⟩], halted := true }

/-- The request at its end. -/
def bothClosed : Request where
  graph := both.graph
  order := both.order
  report := (losses.insert lib.fingerprint ⟨lib.name, .succeeded place false⟩).insert spare.fingerprint ⟨spare.name, .cancelled⟩
  waiting := [("a0", 0), ("a1", 0), ("e5", 1), ("f6", 0)]
  ready := []
  looking := none
  jobs := []
  cancelled := false
  halted := true
  closed := true

theorem runs_closings (disk : Disk) (more : Dict Outputs) :
    (house disk more [bothOver]).run closings = some (house disk more [bothClosed]) := by
  have joins : bothOver.join (house disk more [bothOver]).config unnamed.fingerprint = some bothHalted := by
    rw [bothHalted, ← failAll_unnamed]
    rfl
  have collects : (house disk more [bothOver]).step (.join 0 unnamed.fingerprint) = some (house disk more [bothHalted]) := by
    have at' : (house disk more [bothOver]).requests[0]? = some bothOver := rfl
    simp only [Workshop.step, at', Option.bind_eq_bind, Option.bind_some, joins]
    rfl
  exact Workshop.run_step collects rfl

theorem runs_both : ∃ marked, (house (ground none) [] [both]).run (openings ++ (labours ++ closings)) =
    some (house marked [("a1", place)] [bothClosed]) := by
  obtain ⟨marked, made⟩ := run_made
  exact ⟨marked, Workshop.run_trans runs_openings
    (Workshop.run_trans (Workshop.run_trans run_refused made) (runs_closings marked _))⟩

end Errand

open Errand in
/-- A plan says that both roots are there. Then one fails with its input, and the other is
    called off, since the request stops for the failure. -/
theorem Workshop.plan_misleads : ∃ layers after,
    (house (ground none) [] []).plan [blocked, spare] = .ok (house (ground none) [] [], layers) ∧
    ⟨blocked.name, blocked.fingerprint, true⟩ ∈ layers.flatten ∧
    ⟨spare.name, spare.fingerprint, true⟩ ∈ layers.flatten ∧
    both.Opens [blocked, spare] ∧ both.cancelled = false ∧
    ((house (ground none) [] []).receive both).run (openings ++ (labours ++ closings)) = some after ∧
    after.requests[0]? = some bothClosed ∧ bothClosed.closed = true ∧ bothClosed.cancelled = false ∧
    bothClosed.report.get? blocked.fingerprint =
      some ⟨blocked.name, .failed (.dependencyFailed blocked.name unnamed.name refusal)⟩ ∧
    bothClosed.report.get? spare.fingerprint = some ⟨spare.name, .cancelled⟩ := by
  have quiet : ∀ fingerprint node, (ofRoots [blocked, spare]).find? fingerprint = some node →
      ((house (ground none) [] []).fetch node).1 = house (ground none) [] [] := by
    intro fingerprint node found
    have among : node ∈ [blocked, unnamed, spare, lib] := (find?_some found).1
    simp only [List.mem_cons, List.not_mem_nil, or_false] at among
    rcases among with rfl | rfl | rfl | rfl
    · have known : (house (ground none) [] []).cache.get? blocked.fingerprint = some (Store.outputsFor ⟨"/"⟩ blocked) := rfl
      rw [fetch_of_remembered known]
    · rw [fetch_of_missed (missed_house (Or.inl rfl))]
    · have known : (house (ground none) [] []).cache.get? spare.fingerprint = some (Store.outputsFor ⟨"/"⟩ spare) := rfl
      rw [fetch_of_remembered known]
    · rw [fetch_of_missed (missed_house (Or.inr rfl))]
  obtain ⟨layers, plans⟩ := Workshop.plan_of_quiet waves_both quiet
  obtain ⟨marked, ran⟩ := runs_both
  exact ⟨layers, _, plans, mem_plan_of_remembered plans rfl rfl, mem_plan_of_remembered plans rfl rfl, opens_both, rfl, ran, rfl,
    rfl, rfl, rfl, rfl⟩

open Errand in
/-- What the plan finds of the request for `app` is reported, though `lib` fails. -/
theorem Workshop.build_follows_plan_errand : ∃ (start : Workshop) (layers : List (List Workshop.Planned)) (after : Workshop)
    (now : Request), start.plan [app] = .ok (start, layers) ∧ ⟨tool.name, tool.fingerprint, true⟩ ∈ layers.flatten ∧
      (start.receive asked).run Errand.course = some after ∧ after.requests[0]? = some now ∧
      now.report.get? tool.fingerprint = some ⟨tool.name, .succeeded (Errand.store.outputsFor tool) true⟩ := by
  let start : Workshop := { shop [tool] asked with requests := [] }
  have missed {node : Derivation} (absent : Errand.store.lookup Errand.disk node = none)
      (forgotten : start.cache.get? node.fingerprint = none) : start.offers node = false := by
    rw [Workshop.offers_eq, forgotten]
    change (false || (Errand.store.lookup Errand.disk node).isSome) = false
    rw [absent]
    rfl
  have known : start.cache.get? tool.fingerprint = some (Errand.store.outputsFor tool) := rfl
  have quiet : ∀ fingerprint node, (ofRoots [app]).find? fingerprint = some node → (start.fetch node).1 = start := by
    intro fingerprint node found
    have among : node ∈ [app, lib, tool] := (find?_some found).1
    simp only [List.mem_cons, List.not_mem_nil, or_false] at among
    rcases among with rfl | rfl | rfl
    · rw [Workshop.fetch_of_missed (missed lookup_app rfl)]
    · rw [Workshop.fetch_of_missed (missed lookup_lib rfl)]
    · rw [Workshop.fetch_of_remembered known]
  obtain ⟨layers, plans⟩ := Workshop.plan_of_quiet waves_app quiet
  obtain ⟨path, message, _, ran⟩ := runs_course
  have ran : (start.receive asked).run Errand.course = some (shop [tool] (Errand.closed (.store path message))) := ran
  have found : (ofRoots [app]).find? tool.fingerprint = some tool := rfl
  have listed := Workshop.mem_plan_of_remembered plans found known
  have idle : ∀ request ∈ start.requests, request.closed = true := by simp [start]
  have opens : ∀ request ∈ start.requests, ∃ roots, request.Opens roots := by simp [start]
  have came : start.run [] = some start := rfl
  obtain ⟨now, fresh, atNow, _, _, follows⟩ := Workshop.build_follows_plan opens came idle plans opens_asked ran
  obtain ⟨_, outputs, answers, _, _, succeeds⟩ := follows tool (find?_some found).1 listed
  obtain rfl : Errand.store.outputsFor tool = outputs :=
    Option.some.inj ((congrArg Prod.snd (Workshop.fetch_of_remembered known)).symm.trans answers)
  have atEnd : now = Errand.closed (.store path message) := (Option.some.inj atNow).symm
  have closes : ((midway none []).fail lib (.store path message)).close = some now := by rw [atEnd]; rfl
  have uncancelled : now.cancelled = false := by
    obtain ⟨_, _, later, rfl, _⟩ := Request.Books.close_cases closes
    rfl
  refine ⟨start, layers, _, now, plans, listed, ran, atNow, succeeds (by rw [atEnd]; rfl) uncancelled ?_ (Or.inl rfl)⟩
  intro input uses
  have nothing : (ofRoots [app]).dependencies tool.fingerprint = [] := rfl
  rw [nothing] at uses
  cases uses

end Pkgset

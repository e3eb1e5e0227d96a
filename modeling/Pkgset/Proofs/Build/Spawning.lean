import Pkgset.Proofs.Build.Service

/-!
# The jobs that requests schedule

A request schedules a job for each derivation once at most, when all its inputs have
succeeded, with the outputs that are recorded for them. The runner is called for such
jobs only, so no phase runs for a derivation of which an input failed or was called off.
-/

namespace Pkgset
open BuildReport

namespace Request

/-- The derivations of the jobs, with the inputs that they have. -/
def assigned (request : Request) : List (Derivation × List Outputs) :=
  request.jobs.map fun job => (job.derivation, job.inputs)

theorem Opens.assigned {roots : List Derivation} {request : Request} (opens : request.Opens roots) :
    request.assigned = [] := by
  rw [opens.fresh]
  rfl

theorem assigned_succeed (request : Request) (derivation : Derivation) (realized : Realized) :
    (request.succeed derivation realized).assigned = request.assigned := by
  obtain ⟨waiting, ready, shape⟩ := succeed_eq request derivation realized
  rw [shape]
  rfl

theorem assigned_conclude (config : BuildConfig) (request : Request) (derivation : Derivation) (result : JobResult) :
    (request.conclude config derivation result).assigned = request.assigned := by
  fun_cases Request.conclude config request derivation result with
  | case1 realized => exact assigned_succeed request derivation realized
  | _ => rfl

/-- The jobs after a move are those before it and the one that it schedules. -/
theorem Moves.assigned {config : BuildConfig} {request next : Request} {scheduled : Option (Derivation × List Outputs)}
    (books : request.Books []) (moves : request.Moves config scheduled next) {given : Derivation × List Outputs}
    (member : given ∈ next.assigned) : given ∈ request.assigned ∨ scheduled = some given := by
  cases moves with
  | visit visits =>
    obtain ⟨_, _, _, _, _, _, ⟨_, rfl⟩ | ⟨_, rfl⟩⟩ := visit_cases books visits <;> exact Or.inl member
  | look looking outputs =>
    simp only [looked, assigned_succeed] at member
    exact Or.inl member
  | @schedule derivation looking =>
    simp only [Request.assigned, looked, List.map_append, List.mem_append] at member
    rcases member with old | new
    · exact Or.inl old
    · exact Or.inr (congrArg some (List.mem_singleton.mp new).symm)
  | @job job found moved derivation inputs cancelled =>
    obtain ⟨other, present, rfl⟩ := List.mem_map.mp member
    obtain ⟨before, within, shape⟩ := List.mem_map.mp present
    by_cases here : before.fingerprint = job.fingerprint
    · simp only [here, ↓reduceIte] at shape
      rw [← shape, derivation, inputs]
      exact Or.inl (List.mem_map.mpr ⟨job, List.mem_of_find?_eq_some found, rfl⟩)
    · simp only [here, ↓reduceIte] at shape
      rw [← shape]
      exact Or.inl (List.mem_map.mpr ⟨before, within, rfl⟩)
  | join joins =>
    obtain ⟨job, result, _, _, _, rfl, _, rfl⟩ := join_cases joins
    rw [assigned_conclude] at member
    exact Or.inl ((List.filter_sublist.map _).mem member)
  | close closes =>
    obtain ⟨_, _, _, rfl, _⟩ := Books.close_cases closes
    exact Or.inl member
  | cancel => exact Or.inl member

end Request

namespace Errand

/-- The request when it looks for `app`, with both inputs there. -/
def asking : Request :=
  { asked with
    report := ⟨[recalled lib, recalled tool], [app.fingerprint]⟩
    waiting := [("a1", 0), ("b2", 0), ("c3", 0)]
    ready := []
    looking := some app }

/-- What happens until `app` is scheduled. -/
def errands : List Event := [.visit 0, .look 0, .visit 0, .look 0, .visit 0, .look 0]

end Errand

namespace Workshop

/-- The jobs that events schedule, in their order. -/
def spawns (workshop : Workshop) : List Event → List Spawn
  | [] => []
  | event :: rest => (workshop.spawn? event).toList ++ ((workshop.step event).map (spawns · rest)).getD []

/-- What holds of a workshop and the jobs that were scheduled in it so far. -/
structure Served (workshop : Workshop) (spawned : List Spawn) : Prop where
  books : ∀ request ∈ workshop.requests, request.Books []
  once : (spawned.map fun spawn => (spawn.request, spawn.derivation.fingerprint)).Nodup
  supplied : ∀ spawn ∈ spawned, spawn.report.Supplies spawn.derivation spawn.inputs
  /-- What was scheduled is in its job still, or it is recorded. -/
  kept : ∀ spawn ∈ spawned, ∃ request, workshop.requests[spawn.request]? = some request ∧
    request.report.Extends spawn.report ∧
    (spawn.derivation.fingerprint ∈ request.jobs.map Job.fingerprint ∨
      request.report.has spawn.derivation.fingerprint = true)
  jobs : ∀ (id : RequestId) request, workshop.requests[id]? = some request → ∀ given ∈ request.assigned,
    ∃ spawn ∈ spawned, spawn.request = id ∧ (spawn.derivation, spawn.inputs) = given
  calls : ∀ call ∈ workshop.calls, ∃ spawn ∈ spawned,
    spawn.request = call.request ∧ spawn.derivation = call.derivation ∧ spawn.inputs = call.inputs

/-- What an event schedules was not scheduled before, and its inputs have succeeded. -/
private theorem Served.schedules {workshop : Workshop} {spawned : List Spawn} (served : workshop.Served spawned)
    {id : RequestId} {request : Request} {derivation : Derivation} (at' : workshop.requests[id]? = some request)
    (looking : request.looking = some derivation) :
    (id, derivation.fingerprint) ∉ spawned.map (fun spawn => (spawn.request, spawn.derivation.fingerprint)) ∧
      request.report.Supplies derivation (request.inputsFor derivation) := by
  have books := served.books request (List.mem_of_getElem? at')
  have placed : derivation.fingerprint ∈ [] ++ request.placed := by simp [Request.placed, looking]
  refine ⟨?_, Request.Books.supplies_inputsFor (books.looking derivation looking) (books.due _ placed).2⟩
  intro member
  obtain ⟨spawn, before, same⟩ := List.mem_map.mp member
  obtain ⟨sameRequest, sameFingerprint⟩ := Prod.mk.inj same
  obtain ⟨request', at'', _, place⟩ := served.kept spawn before
  obtain rfl : request = request' := by
    rw [sameRequest, at'] at at''
    exact Option.some.inj at''
  rw [sameFingerprint] at place
  rcases place with job | recorded
  · have once := books.once
    simp only [Request.placed, looking, List.nil_append] at once
    have apart := (List.nodup_append.mp (List.nodup_append.mp once).2.1).2.2
    exact apart derivation.fingerprint (by simp) _ job rfl
  · simp [books.unrecorded _ placed] at recorded

private theorem of_getElem?_set {α : Type} {entries : List α} {place other : Nat} {entry found : α}
    (at' : (entries.set place entry)[other]? = some found) :
    other = place ∧ found = entry ∨ entries[other]? = some found := by
  rw [List.getElem?_set] at at'
  split at at'
  next same =>
    split at at'
    · exact Or.inl ⟨same.symm, (Option.some.inj at').symm⟩
    · cases at'
  next => exact Or.inr at'

/-- Every job has one that was scheduled behind it. -/
private def Backed (workshop : Workshop) (spawned : List Spawn) : Prop :=
  ∀ (id : RequestId) request, workshop.requests[id]? = some request → ∀ given ∈ request.assigned,
    ∃ spawn ∈ spawned, spawn.request = id ∧ (spawn.derivation, spawn.inputs) = given

private theorem Served.backed {workshop next : Workshop} {scheduled : Option Spawn} {spawned : List Spawn}
    (served : workshop.Served spawned) (turn : workshop.Turn next scheduled) :
    Backed next (spawned ++ scheduled.toList) := by
  have old (id : RequestId) (request : Request) (at' : workshop.requests[id]? = some request) :
      ∀ given ∈ request.assigned, ∃ spawn ∈ spawned ++ scheduled.toList,
        spawn.request = id ∧ (spawn.derivation, spawn.inputs) = given := by
    intro given member
    obtain ⟨spawn, within, same⟩ := served.jobs id request at' given member
    exact ⟨spawn, List.mem_append_left _ within, same⟩
  intro id request at' given member
  cases turn with
  | @opens roots started opens requests =>
    rw [requests, List.getElem?_append] at at'
    split at at'
    · exact old id request at' given member
    · obtain ⟨_, rfl⟩ := List.getElem?_eq_some_iff.mp at'
      simp [List.getElem_singleton, opens.assigned] at member
  | @moves place before after at'' moves requests =>
    rw [requests] at at'
    rcases of_getElem?_set at' with ⟨rfl, rfl⟩ | untouched
    · rcases moves.assigned (served.books before (List.mem_of_getElem? at'')) member with earlier | new
      · exact old id before at'' given earlier
      · cases new
    · exact old id request untouched given member
  | @schedules place before after derivation at'' looking moves requests =>
    rw [requests] at at'
    rcases of_getElem?_set at' with ⟨rfl, rfl⟩ | untouched
    · rcases moves.assigned (served.books before (List.mem_of_getElem? at'')) member with earlier | new
      · exact old id before at'' given earlier
      · exact ⟨_, List.mem_append_right _ (List.mem_singleton_self _), rfl, Option.some.inj new⟩
    · exact old id request untouched given member
  | idle requests =>
    rw [requests] at at'
    exact old id request at' given member

theorem Served.step {workshop next : Workshop} {event : Event} {spawned : List Spawn}
    (served : workshop.Served spawned) (steps : workshop.step event = some next) :
    next.Served (spawned ++ (workshop.spawn? event).toList) := by
  have serves := step_serves steps
  have turn := serves.turn
  obtain ⟨books, continues⟩ := turn.books served.books
  have kept : ∀ spawn ∈ spawned, ∃ request, next.requests[spawn.request]? = some request ∧
      request.report.Extends spawn.report ∧
      (spawn.derivation.fingerprint ∈ request.jobs.map Job.fingerprint ∨
        request.report.has spawn.derivation.fingerprint = true) := by
    intro spawn member
    obtain ⟨request, at', grows, place⟩ := served.kept spawn member
    obtain ⟨request', after, going⟩ := continues _ request at'
    refine ⟨request', after, going.grows.trans grows, ?_⟩
    rcases place with job | recorded
    · exact going.jobs _ job
    · exact Or.inr (going.grows.has recorded)
  have calls : ∀ call ∈ next.calls, ∃ spawn ∈ spawned,
      spawn.request = call.request ∧ spawn.derivation = call.derivation ∧ spawn.inputs = call.inputs := by
    intro call member
    rcases serves.calls with same | ⟨id, request, job, attempt, outputs, at', present, called⟩
    · exact served.calls call (same ▸ member)
    · rcases List.mem_cons.mp (called ▸ member) with rfl | old
      · obtain ⟨spawn, within, sameRequest, given⟩ := served.jobs id request at' _ (List.mem_map_of_mem present)
        exact ⟨spawn, within, sameRequest, (Prod.mk.inj given).1, (Prod.mk.inj given).2⟩
      · exact served.calls call old
  have backed := served.backed turn
  generalize workshop.spawn? event = scheduled at turn backed
  cases turn with
  | @schedules id before after derivation at' looking moves requests =>
    obtain ⟨fresh, supplied⟩ := served.schedules at' looking
    refine ⟨books, ?_, ?_, ?_, backed, ?_⟩
    · rw [List.map_append, List.nodup_append]
      refine ⟨served.once, by simp, ?_⟩
      rintro known member _ single rfl
      rw [List.mem_singleton.mp single] at member
      exact fresh member
    · intro spawn member
      rcases List.mem_append.mp member with old | new
      · exact served.supplied spawn old
      · rw [List.mem_singleton.mp new]
        exact supplied
    · intro spawn member
      rcases List.mem_append.mp member with old | new
      · exact kept spawn old
      · rw [List.mem_singleton.mp new]
        have inside : id < workshop.requests.length := (List.getElem?_eq_some_iff.mp at').1
        refine ⟨after, by simp [requests, inside], ?_⟩
        cases moves with
        | schedule => exact ⟨Extends.refl _, Or.inl (by simp [Request.looked, Job.new, Job.fingerprint])⟩
    · intro call member
      obtain ⟨spawn, within, same⟩ := calls call member
      exact ⟨spawn, List.mem_append_left _ within, same⟩
  | _ =>
    rw [Option.toList_none, List.append_nil] at backed ⊢
    exact ⟨books, served.once, served.supplied, kept, backed, calls⟩

theorem Served.run {workshop after : Workshop} {spawned : List Spawn} (served : workshop.Served spawned)
    {events : List Event} (ran : workshop.run events = some after) :
    after.Served (spawned ++ workshop.spawns events) := by
  induction events generalizing workshop spawned with
  | nil =>
    cases ran
    simpa [spawns] using served
  | cons event rest ih =>
    obtain ⟨next, steps, onwards⟩ := run_cons ran
    have later := ih (served.step steps) onwards
    simpa [spawns, steps, List.append_assoc] using later

/-- However the events of a workshop follow each other, with any outcomes of jobs and
    requests called off at any time: no request schedules a derivation twice; when one is
    scheduled, its inputs have succeeded and the job gets the outputs recorded for them,
    one for each declared input; and every call of the runner is for a job so scheduled,
    with those inputs, none of which ever fails or is called off. -/
theorem run_spawns {workshop after : Workshop} {events : List Event}
    (opens : ∀ request ∈ workshop.requests, ∃ roots, request.Opens roots) (quiet : workshop.calls = [])
    (ran : workshop.run events = some after) :
    ((workshop.spawns events).map fun spawn => (spawn.request, spawn.derivation.fingerprint)).Nodup ∧
      (∀ spawn ∈ workshop.spawns events, spawn.report.Supplies spawn.derivation spawn.inputs) ∧
      ∀ call ∈ after.calls,
        (∃ spawn ∈ workshop.spawns events, spawn.request = call.request ∧ spawn.derivation = call.derivation ∧
          spawn.inputs = call.inputs) ∧
        ∃ request, after.requests[call.request]? = some request ∧
          request.report.Supplies call.derivation call.inputs ∧
          ∀ input ∈ call.derivation.inputs, request.report.succeeded input.fingerprint = true := by
  have start : workshop.Served [] := by
    refine ⟨fun request member => ?_, by simp, by simp, by simp, fun id request at' given member => ?_, by simp [quiet]⟩
    · obtain ⟨roots, started⟩ := opens request member
      exact started.books
    · obtain ⟨roots, started⟩ := opens request (List.mem_of_getElem? at')
      simp [started.assigned] at member
  have served := start.run ran
  rw [List.nil_append] at served
  refine ⟨served.once, served.supplied, fun call member => ?_⟩
  obtain ⟨spawn, within, sameRequest, sameDerivation, sameInputs⟩ := served.calls call member
  obtain ⟨request, at', grows, _⟩ := served.kept spawn within
  have supplies : request.report.Supplies call.derivation call.inputs :=
    sameDerivation ▸ sameInputs ▸ grows.supplies (served.supplied spawn within)
  exact ⟨⟨spawn, within, sameRequest, sameDerivation, sameInputs⟩, request, sameRequest ▸ at', supplies,
    supplies.succeeded⟩

open Errand in
/-- With both inputs remembered, one job is scheduled, and it gets three outputs. -/
theorem run_spawns_errand :
    ∃ after spawn, (shop [lib, tool] asked).run errands = some after ∧
      (shop [lib, tool] asked).spawns errands = [spawn] ∧ spawn.derivation = app ∧
      spawn.inputs = [Errand.store.outputsFor lib, Errand.store.outputsFor tool, Errand.store.outputsFor lib] ∧
      spawn.report.Supplies spawn.derivation spawn.inputs := by
  have missed : (shop [lib, tool] asking).offers app = false := offers_of_forgotten rfl lookup_app
  have steps : (shop [lib, tool] asking).step (.look 0) = some (shop [lib, tool] (asking.looked app none)) :=
    step_look_of_missed rfl rfl missed
  have ran : (shop [lib, tool] asked).run errands = some (shop [lib, tool] (asking.looked app none)) := steps
  have spawned : (shop [lib, tool] asked).spawns errands =
      ((shop [lib, tool] asking).spawn? (.look 0)).toList ++
        (((shop [lib, tool] asking).step (.look 0)).map (spawns · [])).getD [] := rfl
  have scheduled : (shop [lib, tool] asked).spawns errands =
      [⟨0, app, asking.inputsFor app, asking.report⟩] := by
    rw [spawned, steps, spawn?_look_of_missed rfl rfl missed]
    rfl
  have opening : ∀ started ∈ (shop [lib, tool] asked).requests, ∃ roots, started.Opens roots := by
    intro started member
    rw [List.mem_singleton.mp member]
    exact ⟨[app], opens_asked⟩
  refine ⟨_, _, ran, scheduled, rfl, rfl, ?_⟩
  exact (run_spawns opening rfl ran).2.1 _ (by rw [scheduled]; exact List.mem_singleton_self _)

end Workshop
end Pkgset

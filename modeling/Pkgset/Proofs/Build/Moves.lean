import Pkgset.Proofs.Build.Books

/-!
# The moves of a request

What a workshop does to a request: it takes the next ready derivation, takes what was
looked for, moves a job, collects a job, ends, or calls off. Every move keeps the books
in agreement and the records that are made, and a job goes on until it is recorded.
-/

namespace Pkgset.Request
open BuildReport BuildGraph

/-- What a workshop does to a request, and the derivation with its inputs for which a
    job is scheduled then, if one is. A job that moves keeps its derivation and inputs. -/
inductive Moves (config : BuildConfig) (request : Request) : Option (Derivation × List Outputs) → Request → Prop where
  | visit {next : Request} (visits : request.visit = some next) : Moves config request none next
  | look {derivation : Derivation} (looking : request.looking = some derivation) (outputs : Outputs) :
      Moves config request none (request.looked derivation (some outputs))
  | schedule {derivation : Derivation} (looking : request.looking = some derivation) :
      Moves config request (some (derivation, request.inputsFor derivation)) (request.looked derivation none)
  | job {job : Job} (member : request.jobs.find? (·.fingerprint = job.fingerprint) = some job) (moved : Job)
      (derivation : moved.derivation = job.derivation) (inputs : moved.inputs = job.inputs) (cancelled : Bool) :
      Moves config request none ({ request with cancelled }.updateJob job.fingerprint fun _ => moved)
  | join {next : Request} {fingerprint : Fingerprint} (joins : request.join config fingerprint = some next) :
      Moves config request none next
  | close {next : Request} (closes : request.close = some next) : Moves config request none next
  | cancel : Moves config request none { request with cancelled := true }

/-- A request that is ready for something takes the first of it. -/
theorem visit_cases {request next : Request} (books : request.Books []) (visits : request.visit = some next) :
    ∃ fingerprint rest derivation, request.looking = none ∧ request.ready = fingerprint :: rest ∧
      request.graph.find? fingerprint = some derivation ∧
      (request.isStopped = true ∧ next = { request with ready := rest }.record derivation .cancelled ∨
        request.isStopped = false ∧ next = { request with ready := rest, looking := some derivation }) := by
  unfold Request.visit at visits
  split at visits
  next fingerprint rest looking ready =>
    have placed : fingerprint ∈ [] ++ request.placed := by simp [placed, ready]
    obtain ⟨derivation, found⟩ := contains_iff.mp (books.due fingerprint placed).1
    have fresh := books.unrecorded fingerprint placed
    simp only [fresh, Bool.false_eq_true, ↓reduceIte, found] at visits
    refine ⟨fingerprint, rest, derivation, looking, ready, found, ?_⟩
    cases stopped : request.isStopped with
    | true =>
      have stopped' : { request with ready := rest }.isStopped = true := stopped
      simp only [stopped', ↓reduceIte, Option.some.injEq] at visits
      exact Or.inl ⟨rfl, visits.symm⟩
    | false =>
      have stopped' : { request with ready := rest }.isStopped = false := stopped
      simp only [stopped', Bool.false_eq_true, ↓reduceIte, Option.some.injEq] at visits
      exact Or.inr ⟨rfl, visits.symm⟩
  next => cases visits

theorem Books.visit {request next : Request} (books : request.Books []) (visits : request.visit = some next) :
    next.Books [] ∧ request.Continues next := by
  obtain ⟨fingerprint, rest, derivation, looking, ready, found, ⟨_, rfl⟩ | ⟨_, rfl⟩⟩ := visit_cases books visits
  · have same := (find?_some found).2
    have taken : { request with ready := rest }.Books [derivation.fingerprint] :=
      books.relocate rfl rfl rfl rfl rfl (by simp [placed, ready, same]) books.looking books.jobs
    refine ⟨taken.record_cancelled (by rw [same]; exact found), rfl, ?_, fun _ => Or.inl⟩
    exact extends_insert (taken.unrecorded _ (by simp)) _
  · have same := (find?_some found).2
    refine ⟨books.relocate rfl rfl rfl rfl rfl ?_ ?_ books.jobs, rfl, Extends.refl _, fun _ => Or.inl⟩
    · simp [placed, ready, looking, same]
    · intro other looked
      cases looked
      rw [same]
      exact found

/-- A success is recorded, and nothing else changes but counts and what is ready. -/
theorem continues_succeed {request : Request} {derivation : Derivation}
    (fresh : request.report.has derivation.fingerprint = false) (realized : Realized) :
    request.Continues (request.succeed derivation realized) := by
  obtain ⟨waiting, ready, shape⟩ := succeed_eq request derivation realized
  rw [shape]
  exact ⟨rfl, extends_insert fresh _, fun _ => Or.inl⟩

theorem has_succeed (request : Request) (derivation : Derivation) (realized : Realized) :
    (request.succeed derivation realized).report.has derivation.fingerprint = true := by
  obtain ⟨waiting, ready, shape⟩ := succeed_eq request derivation realized
  rw [shape]
  simp [Request.record, has_insert]

theorem Books.looked {request : Request} {derivation : Derivation} (books : request.Books [])
    (looking : request.looking = some derivation) (found : Option Outputs) :
    (request.looked derivation found).Books [] ∧ request.Continues (request.looked derivation found) := by
  have known := books.looking derivation looking
  have placed : request.placed.Perm (derivation.fingerprint :: { request with looking := none }.placed) := by
    simp [Request.placed, looking]
  cases found with
  | some outputs =>
    have taken : { request with looking := none }.Books [derivation.fingerprint] :=
      books.relocate rfl rfl rfl rfl rfl placed.symm (by simp) books.jobs
    have continues := continues_succeed (taken.unrecorded derivation.fingerprint (by simp)) ⟨outputs, true⟩
    exact ⟨taken.succeed known _, continues.graph, continues.grows, continues.jobs⟩
  | none =>
    refine ⟨books.relocate rfl rfl rfl rfl rfl ?_ (fun _ absurd => by cases absurd) ?_, rfl, Extends.refl _, ?_⟩
    · refine List.Perm.trans ?_ placed.symm
      have last : (request.looked derivation none).placed =
          { request with looking := none }.placed ++ [derivation.fingerprint] := by
        simp [Request.placed, Request.looked, Job.new, Job.fingerprint]
      rw [List.nil_append, last]
      exact List.perm_append_singleton _ _
    · intro job member
      rcases List.mem_append.mp member with old | new
      · exact books.jobs job old
      · rw [List.mem_singleton.mp new]
        have due := (books.due derivation.fingerprint (placed.mem_iff.mpr (by simp))).2
        exact ⟨known, Books.supplies_inputsFor known due⟩
    · intro fingerprint member
      exact Or.inl (by simp [Request.looked, List.map_append, member])

/-- The jobs keep their fingerprints when one of them moves. -/
theorem fingerprints_updateJob (request : Request) {job moved : Job} (derivation : moved.derivation = job.derivation) :
    (request.updateJob job.fingerprint fun _ => moved).jobs.map Job.fingerprint = request.jobs.map Job.fingerprint := by
  simp only [Request.updateJob, List.map_map]
  refine List.map_congr_left fun other _ => ?_
  by_cases here : other.fingerprint = job.fingerprint
  · simp only [Function.comp, here, ↓reduceIte]
    rw [Job.fingerprint, derivation, Job.fingerprint]
  · simp [here]

theorem Books.updateJob {request : Request} {job moved : Job} (books : request.Books [])
    (member : request.jobs.find? (·.fingerprint = job.fingerprint) = some job)
    (derivation : moved.derivation = job.derivation) (inputs : moved.inputs = job.inputs) (cancelled : Bool) :
    ({ request with cancelled }.updateJob job.fingerprint fun _ => moved).Books [] ∧
      request.Continues ({ request with cancelled }.updateJob job.fingerprint fun _ => moved) := by
  have same := fingerprints_updateJob { request with cancelled } derivation
  refine ⟨books.relocate rfl rfl rfl rfl rfl ?_ books.looking ?_, rfl, Extends.refl _, ?_⟩
  · simp only [placed, same]
    exact List.Perm.refl _
  · intro other present
    obtain ⟨before, within, shape⟩ := List.mem_map.mp present
    by_cases here : before.fingerprint = job.fingerprint
    · simp only [here, ↓reduceIte] at shape
      have agrees := books.jobs job (List.mem_of_find?_eq_some member)
      rw [← shape]
      simpa only [Job.fingerprint, derivation, inputs] using agrees
    · simp only [here, ↓reduceIte] at shape
      rw [← shape]
      exact books.jobs before within
  · intro fingerprint present
    exact Or.inl (by rw [same]; exact present)

/-- A job that is over is collected when nothing is ready. -/
theorem join_cases {config : BuildConfig} {request next : Request} {fingerprint : Fingerprint}
    (joins : request.join config fingerprint = some next) :
    ∃ job result, request.looking = none ∧ request.ready = [] ∧ job ∈ request.jobs ∧ job.fingerprint = fingerprint ∧
      job.place = .finished result ∧
      next = { request with jobs := request.jobs.filter (·.fingerprint ≠ fingerprint) }.conclude config
        job.derivation result := by
  unfold Request.join at joins
  split at joins
  next looking ready =>
    obtain ⟨job, found, joins⟩ := Option.bind_eq_some_iff.mp joins
    split at joins
    next result place =>
      refine ⟨job, result, looking, ready, List.mem_of_find?_eq_some found, by simpa using List.find?_some found,
        place, (Option.some.inj joins).symm⟩
    next => cases joins
  next => cases joins

theorem Books.conclude {request : Request} {derivation : Derivation} (books : request.Books [derivation.fingerprint])
    (found : request.graph.find? derivation.fingerprint = some derivation) (config : BuildConfig) (result : JobResult) :
    (request.conclude config derivation result).Books [] ∧
      request.Continues (request.conclude config derivation result) ∧
      (request.conclude config derivation result).report.has derivation.fingerprint = true := by
  have fresh : request.report.has derivation.fingerprint = false := books.unrecorded _ (by simp)
  have flood (error : BuildError) := failAll_flood books.graph request.report [(derivation.fingerprint, error)]
  have within : request.graph.contains derivation.fingerprint = true := contains_iff.mpr ⟨derivation, found⟩
  have fails (error : BuildError) := books.fail found error
  have has (error : BuildError) : (request.fail derivation error).report.has derivation.fingerprint = true :=
    (flood error).stacked (derivation.fingerprint, error) (by simp) within
  fun_cases Request.conclude config request derivation result with
  | case1 realized => exact ⟨books.succeed found realized, continues_succeed fresh realized, has_succeed ..⟩
  | case2 name =>
    exact ⟨books.record_cancelled found, ⟨rfl, extends_insert fresh _, fun _ => Or.inl⟩,
      by simp [Request.record, has_insert]⟩
  | case3 error other failed keepsGoing =>
    exact ⟨fails error, ⟨rfl, (flood error).grows, fun _ => Or.inl⟩, has error⟩
  | case4 error other failed stops =>
    refine ⟨(fails error).relocate rfl rfl rfl rfl rfl (List.Perm.refl _) (fails error).looking (fails error).jobs,
      ⟨rfl, (flood error).grows, fun _ => Or.inl⟩, has error⟩

theorem Books.join {config : BuildConfig} {request next : Request} {fingerprint : Fingerprint} (books : request.Books [])
    (joins : request.join config fingerprint = some next) : next.Books [] ∧ request.Continues next := by
  obtain ⟨job, result, looking, ready, member, rfl, _, rfl⟩ := join_cases joins
  let rest : Request := { request with jobs := request.jobs.filter (·.fingerprint ≠ job.fingerprint) }
  have places : request.placed = request.jobs.map Job.fingerprint := by simp [placed, looking, ready]
  have placesRest : rest.placed = rest.jobs.map Job.fingerprint := by simp [rest, placed, looking, ready]
  have once := books.nodup_jobs
  have onceRest : (job.fingerprint :: rest.jobs.map Job.fingerprint).Nodup := by
    refine List.nodup_cons.mpr ⟨?_, once.sublist (List.filter_sublist.map _)⟩
    intro present
    obtain ⟨other, kept, same⟩ := List.mem_map.mp present
    simpa [same] using (List.mem_filter.mp kept).2
  have others : (job.fingerprint :: rest.jobs.map Job.fingerprint).Perm (request.jobs.map Job.fingerprint) := by
    rw [List.perm_ext_iff_of_nodup onceRest once]
    intro fingerprint
    simp only [rest, List.mem_cons, List.mem_map, List.mem_filter, decide_eq_true_eq, ne_eq]
    constructor
    · rintro (rfl | ⟨other, ⟨present, _⟩, rfl⟩)
      · exact ⟨job, member, rfl⟩
      · exact ⟨other, present, rfl⟩
    · rintro ⟨other, present, rfl⟩
      by_cases same : other.fingerprint = job.fingerprint
      · exact Or.inl same
      · exact Or.inr ⟨other, ⟨present, same⟩, rfl⟩
  have taken : rest.Books [job.fingerprint] := by
    refine books.relocate rfl rfl rfl rfl rfl ?_ books.looking fun other present =>
      books.jobs other (List.mem_of_mem_filter present)
    rw [places, placesRest]
    exact others
  obtain ⟨after, continues, recorded⟩ := taken.conclude (books.jobs job member).1 config result
  refine ⟨after, continues.graph, continues.grows, fun fingerprint present => ?_⟩
  rcases List.mem_cons.mp (others.mem_iff.mpr present) with rfl | remains
  · exact Or.inr recorded
  · exact continues.jobs fingerprint remains

/-- Every move keeps the books in agreement. -/
theorem Books.moves {config : BuildConfig} {request next : Request} {scheduled : Option (Derivation × List Outputs)}
    (books : request.Books []) (moves : request.Moves config scheduled next) :
    next.Books [] ∧ request.Continues next := by
  cases moves with
  | visit visits => exact books.visit visits
  | look looking outputs => exact books.looked looking (some outputs)
  | schedule looking => exact books.looked looking none
  | job member moved derivation inputs cancelled => exact books.updateJob member derivation inputs cancelled
  | join joins => exact books.join joins
  | close closes => exact books.close closes
  | cancel =>
    exact ⟨books.relocate rfl rfl rfl rfl rfl (List.Perm.refl _) books.looking books.jobs, rfl, Extends.refl _,
      fun _ => Or.inl⟩

end Pkgset.Request

import Pkgset.Proofs.Build.Report

/-!
# The books of a request

The records of a request, its counts of inputs that have not succeeded, and the
derivations that are ready, looked for or in a job agree at all times: a derivation
is in one of these places at most, only while it has no record and once all its inputs
have succeeded, and then without fail. A derivation that a request has taken from its
place and not recorded yet is named beside the books.
-/

namespace Pkgset

open BuildReport BuildGraph

/-- The number of direct inputs that have not succeeded. -/
def BuildGraph.missing (graph : BuildGraph) (report : BuildReport) (fingerprint : Fingerprint) : Nat :=
  (graph.dependencies fingerprint).countP fun input => !report.succeeded input

section
variable {graph : BuildGraph} {report later : BuildReport} {fingerprint other : Fingerprint}

theorem missing_eq_zero :
    graph.missing report fingerprint = 0 ↔ ∀ input ∈ graph.dependencies fingerprint, report.succeeded input = true := by
  simp [missing, List.countP_eq_zero]

theorem BuildReport.Extends.missing_le (grows : later.Extends report) (graph : BuildGraph) (fingerprint : Fingerprint) :
    graph.missing later fingerprint ≤ graph.missing report fingerprint := by
  apply List.countP_mono_left
  intro input _ lacking
  cases done : report.succeeded input with
  | true => simp [grows.succeeded done] at lacking
  | false => rfl

theorem missing_congr (same : ∀ input, later.succeeded input = report.succeeded input) :
    graph.missing later fingerprint = graph.missing report fingerprint := by
  simp only [missing, same]

private theorem countP_insert {fingerprints : List Fingerprint} (once : fingerprints.Nodup)
    (open' : report.succeeded fingerprint = false) {record : BuildRecord} (done : record.status.isSucceeded = true) :
    fingerprints.countP (fun input => !report.succeeded input) =
      fingerprints.countP (fun input => !(report.insert fingerprint record).succeeded input) +
        if fingerprint ∈ fingerprints then 1 else 0 := by
  induction fingerprints with
  | nil => simp
  | cons first rest ih =>
    obtain ⟨absent, onceRest⟩ := List.nodup_cons.mp once
    have rest := ih onceRest
    by_cases same : fingerprint = first
    · subst same
      simp only [absent, ↓reduceIte] at rest
      simp [succeeded_insert, open', done, rest]
    · simp only [List.countP_cons, succeeded_insert, Ne.symm same, ↓reduceIte, List.mem_cons, same, false_or] at rest ⊢
      omega

/-- A success is one input less to wait for, for those who have it as an input. -/
theorem missing_insert (graph : BuildGraph) (open' : report.succeeded fingerprint = false) (record : BuildRecord)
    (done : record.status.isSucceeded = true) (other : Fingerprint) :
    graph.missing report other = graph.missing (report.insert fingerprint record) other +
      if fingerprint ∈ graph.dependencies other then 1 else 0 :=
  countP_insert (graph.nodup_dependencies other) open' done

end

namespace Request

/-- The derivations that are ready, looked for, or in a job. -/
def placed (request : Request) : List Fingerprint :=
  request.ready ++ (request.looking.toList.map (·.fingerprint) ++ request.jobs.map Job.fingerprint)

/-- What stays over all moves: the graph, the records, and the jobs until they are
    recorded. -/
structure Continues (request next : Request) : Prop where
  graph : next.graph = request.graph
  grows : next.report.Extends request.report
  jobs : ∀ fingerprint ∈ request.jobs.map Job.fingerprint,
    fingerprint ∈ next.jobs.map Job.fingerprint ∨ next.report.has fingerprint = true

namespace Continues
variable {request next last : Request}

theorem refl (request : Request) : request.Continues request := ⟨rfl, Extends.refl _, fun _ => Or.inl⟩

theorem trans (first : request.Continues next) (second : next.Continues last) : request.Continues last := by
  refine ⟨second.graph.trans first.graph, second.grows.trans first.grows, fun fingerprint member => ?_⟩
  rcases first.jobs fingerprint member with later | recorded
  · exact second.jobs fingerprint later
  · exact Or.inr (second.grows.has recorded)

end Continues

/-- The books of a request agree, but for derivations that are taken from their places. -/
structure Books (request : Request) (taken : List Fingerprint) : Prop where
  graph : request.graph.Closed
  order : request.graph.InputsFirst request.order
  once : (taken ++ request.placed).Nodup
  unrecorded : ∀ fingerprint ∈ taken ++ request.placed, request.report.has fingerprint = false
  due : ∀ fingerprint ∈ taken ++ request.placed,
    request.graph.contains fingerprint = true ∧ request.graph.missing request.report fingerprint = 0
  complete : ∀ fingerprint, request.graph.contains fingerprint = true →
    request.graph.missing request.report fingerprint = 0 → request.report.has fingerprint = false →
      fingerprint ∈ taken ++ request.placed
  looking : ∀ derivation, request.looking = some derivation →
    request.graph.find? derivation.fingerprint = some derivation
  jobs : ∀ job ∈ request.jobs, request.graph.find? job.fingerprint = some job.derivation ∧
    request.report.Supplies job.derivation job.inputs
  counts : ∀ fingerprint, request.graph.contains fingerprint = true →
    Dict.get? request.waiting fingerprint.text = some (request.graph.missing request.report fingerprint)
  named : ∀ fingerprint record, request.report.get? fingerprint = some record →
    ∃ node, request.graph.find? fingerprint = some node ∧ record.name = node.name
  /-- What is recorded had all its inputs, has its error from one of them, or is left over. -/
  origin : ∀ fingerprint node status, request.graph.find? fingerprint = some node →
    request.report.get? fingerprint = some ⟨node.name, status⟩ →
      request.graph.missing request.report fingerprint = 0 ∨
      (∃ error, status = .failed error ∧ HandedDown request.graph request.report node error) ∨
      request.closed = true ∧ status = .cancelled
  spread : ∀ fingerprint error, request.report.Failed fingerprint error →
    ∀ dependent ∈ request.graph.dependents fingerprint, ∃ cause, request.report.Failed dependent cause
  ended : request.closed = true → taken ++ request.placed = [] ∧
    ∀ fingerprint, request.graph.contains fingerprint = true → request.report.has fingerprint = true

namespace Books
variable {request : Request} {taken : List Fingerprint}

/-- Jobs have fingerprints of their own. -/
theorem nodup_jobs (books : request.Books taken) : (request.jobs.map Job.fingerprint).Nodup :=
  (List.nodup_append.mp (List.nodup_append.mp books.once).2.1).2.1.sublist (List.sublist_append_right _ _)

/-- A request has one job at most for a fingerprint. -/
theorem job_eq (books : request.Books taken) {job other : Job} (member : job ∈ request.jobs)
    (member' : other ∈ request.jobs) (same : job.fingerprint = other.fingerprint) : job = other :=
  List.inj_on_of_nodup_map books.nodup_jobs member member' same

theorem find?_job (books : request.Books taken) {job : Job} (member : job ∈ request.jobs) :
    request.jobs.find? (·.fingerprint = job.fingerprint) = some job := by
  cases found : request.jobs.find? (·.fingerprint = job.fingerprint) with
  | some other =>
    have same : other.fingerprint = job.fingerprint := by simpa using List.find?_some found
    rw [books.job_eq (List.mem_of_find?_eq_some found) member same]
  | none => simpa using List.find?_eq_none.mp found job member

/-- The outputs recorded for the inputs of a derivation that is due are all there. -/
theorem supplies_inputsFor {derivation : Derivation}
    (found : request.graph.find? derivation.fingerprint = some derivation)
    (due : request.graph.missing request.report derivation.fingerprint = 0) :
    request.report.Supplies derivation (request.inputsFor derivation) := by
  have done : ∀ input ∈ derivation.inputs, request.report.succeeded input.fingerprint = true := by
    intro input declared
    exact missing_eq_zero.mp due _ ((mem_dependencies found).mpr ⟨input, declared, rfl⟩)
  unfold Supplies inputsFor
  generalize derivation.inputs = inputs at done
  induction inputs with
  | nil => exact .nil
  | cons first rest ih =>
    obtain ⟨name, outputs, cached, known⟩ := succeeded_iff.mp (done first (by simp))
    rw [List.filterMap_cons_some (b := outputs) (by simp [known, BuildStatus.outputs?])]
    exact .cons ⟨name, cached, known⟩ (ih fun input member => done input (List.mem_cons_of_mem _ member))

/-- Derivations change their places. -/
theorem relocate (books : request.Books taken) {next : Request} {taken' : List Fingerprint}
    (graph : next.graph = request.graph) (order : next.order = request.order) (report : next.report = request.report)
    (waiting : next.waiting = request.waiting) (closed : next.closed = request.closed)
    (places : (taken' ++ next.placed).Perm (taken ++ request.placed))
    (looking : ∀ derivation, next.looking = some derivation →
      request.graph.find? derivation.fingerprint = some derivation)
    (jobs : ∀ job ∈ next.jobs, request.graph.find? job.fingerprint = some job.derivation ∧
      request.report.Supplies job.derivation job.inputs) : next.Books taken' where
  graph := by rw [graph]; exact books.graph
  order := by rw [graph, order]; exact books.order
  once := places.nodup_iff.mpr books.once
  unrecorded := fun fingerprint member => by
    rw [report]
    exact books.unrecorded fingerprint (places.mem_iff.mp member)
  due := fun fingerprint member => by
    rw [graph, report]
    exact books.due fingerprint (places.mem_iff.mp member)
  complete := fun fingerprint => by
    rw [graph, report, places.mem_iff]
    exact books.complete fingerprint
  looking := by rw [graph]; exact looking
  jobs := by rw [graph, report]; exact jobs
  counts := by rw [graph, report, waiting]; exact books.counts
  named := by rw [graph, report]; exact books.named
  origin := by rw [graph, report, closed]; exact books.origin
  spread := by rw [graph, report]; exact books.spread
  ended := fun isClosed => by
    rw [closed] at isClosed
    rw [graph, report]
    obtain ⟨nothing, all⟩ := books.ended isClosed
    rw [nothing] at places
    exact ⟨places.eq_nil, all⟩

/-! ### Recording -/

private theorem not_closed {fingerprint : Fingerprint} (books : request.Books [fingerprint]) : request.closed = false := by
  cases closed : request.closed with
  | false => rfl
  | true =>
    have nothing := (books.ended closed).1
    simp at nothing

private theorem not_succeeded {fingerprint : Fingerprint} (books : request.Books [fingerprint]) :
    request.report.succeeded fingerprint = false := by
  have without := get?_eq_none.mpr (books.unrecorded fingerprint (by simp))
  simp [succeeded, without]

/-- A derivation that was taken is recorded without outputs, and perhaps failures that
    are handed down from it. -/
private theorem recorded {fingerprint : Fingerprint} (books : request.Books [fingerprint]) {later : BuildReport}
    (grows : later.Extends request.report) (same : ∀ input, later.succeeded input = request.report.succeeded input)
    (has : later.has fingerprint = true)
    (fresh : ∀ other record, later.get? other = some record → request.report.has other = false →
      ∃ node, request.graph.find? other = some node ∧ record.name = node.name ∧
        (other = fingerprint ∨ ∃ error, record.status = .failed error ∧ HandedDown request.graph later node error))
    (spread : ∀ other error, later.Failed other error → request.report.has other = false →
      ∀ dependent ∈ request.graph.dependents other, ∃ cause, later.Failed dependent cause) :
    { request with report := later }.Books [] := by
  have missing (other : Fingerprint) : request.graph.missing later other = request.graph.missing request.report other :=
    missing_congr same
  -- A record is an old one, which has not changed, or a new one.
  have either (other : Fingerprint) {record : BuildRecord} (known : later.get? other = some record) :
      request.report.get? other = some record ∨ request.report.has other = false := by
    cases old : request.report.get? other with
    | none => exact Or.inr (get?_eq_none.mp old)
    | some before => exact Or.inl (by rw [← known, grows _ _ old])
  refine ⟨books.graph, books.order, ?_, ?_, ?_, ?_, books.looking, ?_, ?_, ?_, ?_, ?_, ?_⟩
  · exact (List.nodup_cons.mp books.once).2
  · intro other member
    by_contra recorded
    obtain ⟨record, known⟩ := has_iff.mp (by simpa using recorded)
    have before := books.unrecorded other (List.mem_append_right _ member)
    obtain ⟨node, found, _, here | ⟨error, _, input, cause, uses, _, _, failed⟩⟩ := fresh other record known before
    · exact (List.nodup_cons.mp books.once).1 (here ▸ member)
    · have due := (books.due other (List.mem_append_right _ member)).2
      rw [(find?_some found).2] at uses
      have done := grows.succeeded (missing_eq_zero.mp due _ uses)
      simp [Failed.not_succeeded ⟨_, failed⟩] at done
  · intro other member
    rw [missing]
    exact books.due other (List.mem_append_right _ member)
  · intro other within lacks unrecorded
    rw [missing] at lacks
    have before : request.report.has other = false := by
      by_contra recorded
      simp [grows.has (by simpa using recorded)] at unrecorded
    rcases List.mem_cons.mp (books.complete other within lacks before) with rfl | member
    · simp [has] at unrecorded
    · exact member
  · intro job member
    exact ⟨(books.jobs job member).1, grows.supplies (books.jobs job member).2⟩
  · intro other within
    rw [missing]
    exact books.counts other within
  · intro other record known
    rcases either other known with old | new
    · exact books.named other record old
    · obtain ⟨node, found, name, _⟩ := fresh other record known new
      exact ⟨node, found, name⟩
  · intro other node status found known
    rcases either other known with old | new
    · rcases books.origin other node status found old with lacks | ⟨error, failed, handed⟩ | leftOver
      · exact Or.inl (by rw [missing]; exact lacks)
      · exact Or.inr (Or.inl ⟨error, failed, handed.mono grows⟩)
      · exact Or.inr (Or.inr leftOver)
    · obtain ⟨twin, foundTwin, _, here | ⟨error, failed, handed⟩⟩ := fresh other _ known new
      · subst here
        exact Or.inl (by rw [missing]; exact (books.due other (by simp)).2)
      · obtain rfl : node = twin := Option.some.inj (found.symm.trans foundTwin)
        exact Or.inr (Or.inl ⟨error, failed, handed⟩)
  · intro other error failed dependent uses
    obtain ⟨name, known⟩ := failed
    rcases either other known with old | new
    · obtain ⟨cause, failed⟩ := books.spread other error ⟨name, old⟩ dependent uses
      exact ⟨cause, grows.failed failed⟩
    · exact spread other error ⟨name, known⟩ new dependent uses
  · intro closed
    simp [books.not_closed] at closed

/-- A derivation that was taken is called off. -/
theorem record_cancelled {derivation : Derivation} (books : request.Books [derivation.fingerprint])
    (found : request.graph.find? derivation.fingerprint = some derivation) :
    (request.record derivation .cancelled).Books [] := by
  have fresh : request.report.has derivation.fingerprint = false := books.unrecorded _ (by simp)
  have grows := extends_insert fresh ⟨derivation.name, .cancelled⟩
  refine books.recorded grows ?_ (by simp [has_insert]) ?_ ?_
  · intro input
    rw [succeeded_insert]
    by_cases same : input = derivation.fingerprint
    · simp [same, books.not_succeeded, BuildStatus.isSucceeded]
    · simp [same]
  · intro other record known new
    by_cases same : other = derivation.fingerprint
    · simp only [get?_insert, same, ↓reduceIte, Option.some.injEq] at known
      exact ⟨derivation, by rw [same, found], by rw [← known], Or.inl same⟩
    · simp [get?_insert, same, get?_eq_none.mpr new] at known
  · rintro other error ⟨name, known⟩ new
    by_cases same : other = derivation.fingerprint
    · simp [get?_insert, same] at known
    · simp [get?_insert, same, get?_eq_none.mpr new] at known

/-- A derivation that was taken fails, and with it all that depends on it. -/
theorem fail {derivation : Derivation} (books : request.Books [derivation.fingerprint])
    (found : request.graph.find? derivation.fingerprint = some derivation) (error : BuildError) :
    (request.fail derivation error).Books [] := by
  have flood := failAll_flood books.graph request.report [(derivation.fingerprint, error)]
  have fresh : request.report.has derivation.fingerprint = false := books.unrecorded _ (by simp)
  refine books.recorded flood.grows ?_ ?_ ?_ ?_
  · intro input
    cases done : request.report.succeeded input with
    | true => exact flood.grows.succeeded done
    | false =>
      by_contra turned
      obtain ⟨name, outputs, cached, known⟩ := succeeded_iff.mp (by simpa using turned)
      cases old : request.report.get? input with
      | none =>
        obtain ⟨_, _, _, failed, _⟩ := flood.origin input _ known (get?_eq_none.mp old)
        simp at failed
      | some record =>
        rw [flood.grows _ _ old] at known
        simp [succeeded, old, Option.some.inj known, BuildStatus.isSucceeded] at done
  · exact flood.stacked (derivation.fingerprint, error) (by simp) (contains_iff.mpr ⟨derivation, found⟩)
  · intro other record known new
    obtain ⟨node, cause, foundNode, rfl, listed | handed⟩ := flood.origin other record known new
    · exact ⟨node, foundNode, rfl, Or.inl (by simpa using (Prod.mk.inj (List.mem_singleton.mp listed)).1)⟩
    · exact ⟨node, foundNode, rfl, Or.inr ⟨cause, rfl, handed⟩⟩
  · intro other cause failed new dependent uses
    obtain ⟨record, known⟩ := has_iff.mp (flood.spread other failed.has new dependent uses)
    cases old : request.report.has dependent with
    | false =>
      obtain ⟨node, cause, _, rfl, _⟩ := flood.origin dependent record known old
      exact ⟨cause, node.name, known⟩
    | true =>
      -- An old record of a dependent is a failure, since it lacked this input.
      obtain ⟨before, knownBefore⟩ := has_iff.mp old
      obtain ⟨node, foundNode, name⟩ := books.named dependent before knownBefore
      obtain ⟨name', status⟩ := before
      subst name
      rcases books.origin dependent node status foundNode knownBefore with due | ⟨cause, rfl, _⟩ | leftOver
      · have done := missing_eq_zero.mp due other (books.graph.mem_dependents.mp uses)
        simp [has_of_succeeded done] at new
      · exact ⟨cause, node.name, flood.grows _ _ knownBefore⟩
      · simp [books.not_closed] at leftOver

/-! ### Releasing dependents -/

/-- A dependent with at most one input to wait for, and without a record. -/
private def isLast (request : Request) (dependent : Fingerprint) : Bool :=
  (Dict.get? request.waiting dependent.text).any (· ≤ 1) && !request.report.has dependent

private theorem countDown_eq (request : Request) (dependent : Fingerprint) :
    ∃ waiting, request.countDown dependent =
        { request with waiting, ready := request.ready ++ if isLast request dependent then [dependent] else [] } ∧
      ∀ other : Fingerprint, Dict.get? waiting other.text =
        if other = dependent then (Dict.get? request.waiting other.text).map (· - 1)
        else Dict.get? request.waiting other.text := by
  unfold countDown
  cases count : Dict.get? request.waiting dependent.text with
  | none =>
    refine ⟨request.waiting, by simp [isLast, count], fun other => ?_⟩
    by_cases same : other = dependent <;> simp [same, count]
  | some count' =>
    refine ⟨Dict.insert request.waiting dependent.text (count' - 1), ?_, fun other => ?_⟩
    · have small : count' - 1 = 0 ↔ count' ≤ 1 := by omega
      by_cases last : count' ≤ 1 ∧ request.report.has dependent = false
      · simp [isLast, count, last]
      · simp [isLast, count, last, small]
    · have texts : other.text = dependent.text ↔ other = dependent := by
        cases other
        cases dependent
        simp
      by_cases same : other = dependent <;> simp [Dict.get?_insert, texts, same, count]

private theorem foldl_countDown {dependents : List Fingerprint} (once : dependents.Nodup) (request : Request) :
    ∃ waiting, dependents.foldl countDown request =
        { request with waiting, ready := request.ready ++ dependents.filter (isLast request) } ∧
      ∀ other : Fingerprint, Dict.get? waiting other.text =
        if other ∈ dependents then (Dict.get? request.waiting other.text).map (· - 1)
        else Dict.get? request.waiting other.text := by
  induction dependents generalizing request with
  | nil => exact ⟨request.waiting, by simp, by simp⟩
  | cons first rest ih =>
    obtain ⟨absent, onceRest⟩ := List.nodup_cons.mp once
    obtain ⟨waiting, one, counts⟩ := countDown_eq request first
    obtain ⟨waiting', more, counts'⟩ := ih onceRest (request.countDown first)
    rw [one] at more counts'
    refine ⟨waiting', ?_, fun other => ?_⟩
    · have later : rest.filter (isLast { request with
            waiting, ready := request.ready ++ if isLast request first then [first] else [] }) =
          rest.filter (isLast request) := by
        refine List.filter_congr fun other member => ?_
        have differs : other ≠ first := by
          rintro rfl
          exact absent member
        simp [isLast, counts, differs]
      rw [List.foldl_cons, one, more, later]
      by_cases last : isLast request first <;> simp [last]
    · rw [counts', counts]
      by_cases same : other = first
      · simp [same, absent]
      · simp [same]

/-- With the success of a derivation that was taken, those of its dependents become ready
    that lack no input any more, and the counts are those of the inputs still lacking. -/
private theorem succeed_releases {derivation : Derivation} (books : request.Books [derivation.fingerprint])
    (realized : Realized) {record : BuildRecord}
    (is : record = ⟨derivation.name, .succeeded realized.outputs realized.cached⟩) {later : BuildReport}
    (inserted : later = request.report.insert derivation.fingerprint record) :
    ∃ waiting ready, request.succeed derivation realized =
        { request with report := later, waiting, ready := request.ready ++ ready } ∧ ready.Nodup ∧
      (∀ other, other ∈ ready ↔ derivation.fingerprint ∈ request.graph.dependencies other ∧
        request.graph.missing later other = 0 ∧ later.has other = false) ∧
      ∀ other, request.graph.contains other = true →
        Dict.get? waiting other.text = some (request.graph.missing later other) := by
  have missing (other : Fingerprint) := missing_insert request.graph books.not_succeeded record (by rw [is]; rfl) other
  rw [← inserted] at missing
  have once := books.graph.nodup_dependents derivation.fingerprint
  obtain ⟨waiting, released, counts⟩ := foldl_countDown once (request.record derivation record.status)
  have recorded : request.record derivation record.status = { request with report := later } := by
    rw [inserted, is]
    rfl
  rw [recorded] at released counts
  refine ⟨waiting, _, ?_, once.filter (isLast { request with report := later }), ?_, ?_⟩
  · rw [← released, ← recorded, is]
    rfl
  · intro other
    rw [List.mem_filter, books.graph.mem_dependents]
    refine and_congr_right fun uses => ?_
    have count := books.counts other (contains_of_mem_dependencies uses)
    have one := missing other
    simp only [uses, ↓reduceIte] at one
    simp only [isLast, count, Option.any_some, one]
    simp
  · intro other within
    have count := books.counts other within
    have before := missing other
    rw [counts]
    by_cases uses : derivation.fingerprint ∈ request.graph.dependencies other
    · simp only [uses, ↓reduceIte] at before
      have dependent := books.graph.mem_dependents.mpr uses
      simp [dependent, count, before]
    · simp only [uses, ↓reduceIte, Nat.add_zero] at before
      have dependent : other ∉ request.graph.dependents derivation.fingerprint := fun member =>
        uses (books.graph.mem_dependents.mp member)
      simp [dependent, count, before]

/-- A derivation that was taken succeeds, and those that waited for nothing else
    become ready. -/
theorem succeed {derivation : Derivation} (books : request.Books [derivation.fingerprint])
    (found : request.graph.find? derivation.fingerprint = some derivation) (realized : Realized) :
    (request.succeed derivation realized).Books [] := by
  have fresh : request.report.has derivation.fingerprint = false := books.unrecorded _ (by simp)
  generalize is : (⟨derivation.name, .succeeded realized.outputs realized.cached⟩ : BuildRecord) = record
  generalize inserted : request.report.insert derivation.fingerprint record = later
  obtain ⟨waiting, ready, shape, once, mem_ready, counts⟩ := books.succeed_releases realized is.symm inserted.symm
  have grows : later.Extends request.report := inserted ▸ extends_insert fresh record
  have still {other : Fingerprint} (lacks : request.graph.missing request.report other = 0) :
      request.graph.missing later other = 0 := Nat.le_zero.mp (lacks ▸ grows.missing_le request.graph other)
  have either (other : Fingerprint) {known : BuildRecord} (found' : later.get? other = some known) :
      other = derivation.fingerprint ∧ known = record ∨ request.report.get? other = some known := by
    by_cases same : other = derivation.fingerprint
    · simp only [← inserted, get?_insert, same, ↓reduceIte, Option.some.injEq] at found'
      exact Or.inl ⟨same, found'.symm⟩
    · exact Or.inr (by simpa [← inserted, get?_insert, same] using found')
  have has (other : Fingerprint) := has_insert request.report derivation.fingerprint other record
  simp only [inserted] at has
  have apart : derivation.fingerprint ∉ request.placed := (List.nodup_cons.mp books.once).1
  rw [shape]
  have places : ({ request with report := later, waiting, ready := request.ready ++ ready } : Request).placed.Perm
      (ready ++ request.placed) := by
    simp only [placed, ← List.append_assoc]
    exact ((List.perm_append_comm.append_right _).append_right _)
  refine ⟨books.graph, books.order, ?_, ?_, ?_, ?_, books.looking, ?_, counts, ?_, ?_, ?_, ?_⟩
  · refine places.nodup_iff.mpr (List.nodup_append.mpr ⟨once, (List.nodup_cons.mp books.once).2, ?_⟩)
    rintro other isReady _ member rfl
    have done := missing_eq_zero.mp (books.due other (List.mem_append_right _ member)).2 _ ((mem_ready other).mp isReady).1
    simp [has_of_succeeded done] at fresh
  · intro other member
    rcases List.mem_append.mp (places.mem_iff.mp member) with isReady | placed
    · exact ((mem_ready other).mp isReady).2.2
    · have before := books.unrecorded other (List.mem_append_right _ placed)
      have differs : other ≠ derivation.fingerprint := by
        rintro rfl
        exact apart placed
      simp [has, differs, before]
  · intro other member
    rcases List.mem_append.mp (places.mem_iff.mp member) with isReady | placed
    · obtain ⟨uses, lacks, _⟩ := (mem_ready other).mp isReady
      exact ⟨contains_of_mem_dependencies uses, lacks⟩
    · obtain ⟨within, lacks⟩ := books.due other (List.mem_append_right _ placed)
      exact ⟨within, still lacks⟩
  · intro other within lacks unrecorded
    refine places.mem_iff.mpr (List.mem_append.mpr ?_)
    by_cases uses : derivation.fingerprint ∈ request.graph.dependencies other
    · exact Or.inl ((mem_ready other).mpr ⟨uses, lacks, unrecorded⟩)
    · have before := missing_insert request.graph books.not_succeeded record (by rw [← is]; rfl) other
      rw [inserted, if_neg uses, Nat.add_zero] at before
      have differs : other ≠ derivation.fingerprint ∧ request.report.has other = false := by
        simpa [has] using unrecorded
      have member := books.complete other within (before.trans lacks) differs.2
      exact Or.inr ((List.mem_cons.mp member).resolve_left differs.1)
  · intro job member
    exact ⟨(books.jobs job member).1, grows.supplies (books.jobs job member).2⟩
  · intro other known found'
    rcases either other found' with ⟨rfl, rfl⟩ | old
    · exact ⟨derivation, found, by rw [← is]⟩
    · exact books.named other known old
  · intro other node status found' known
    rcases either other known with ⟨rfl, _⟩ | old
    · exact Or.inl (still (books.due derivation.fingerprint (by simp)).2)
    · rcases books.origin other node status found' old with lacks | ⟨error, failed, handed⟩ | leftOver
      · exact Or.inl (still lacks)
      · exact Or.inr (Or.inl ⟨error, failed, handed.mono grows⟩)
      · exact Or.inr (Or.inr leftOver)
  · rintro other error ⟨name, known⟩ dependent uses
    rcases either other known with ⟨_, same⟩ | old
    · have status := congrArg BuildRecord.status same
      simp [← is] at status
    · obtain ⟨cause, failed⟩ := books.spread other error ⟨name, old⟩ dependent uses
      exact ⟨cause, grows.failed failed⟩
  · intro closed
    have without := books.not_closed
    exact absurd (closed.symm.trans without) (by simp)

end Books

/-- Counting a success changes counts and what is ready, and nothing else. -/
theorem succeed_eq (request : Request) (derivation : Derivation) (realized : Realized) :
    ∃ waiting ready, request.succeed derivation realized =
      { request.record derivation (.succeeded realized.outputs realized.cached) with waiting, ready } := by
  have frame (dependents : List Fingerprint) (request : Request) :
      ∃ waiting ready, dependents.foldl countDown request = { request with waiting, ready } := by
    induction dependents generalizing request with
    | nil => exact ⟨request.waiting, request.ready, rfl⟩
    | cons first rest ih =>
      obtain ⟨waiting, one, _⟩ := Books.countDown_eq request first
      obtain ⟨waiting', ready, more⟩ := ih (request.countDown first)
      exact ⟨waiting', ready, by rw [List.foldl_cons, more, one]⟩
  exact frame _ _

namespace Books
variable {request : Request} {taken : List Fingerprint}

/-! ### From the start to the end -/

private theorem get?_inputCounts (graph : BuildGraph) (order : List Fingerprint) (counts : Dict Nat)
    (fingerprint : Fingerprint) :
    Dict.get? (order.foldl (fun counts fingerprint =>
        Dict.insert counts fingerprint.text (graph.dependencies fingerprint).length) counts) fingerprint.text =
      if fingerprint ∈ order then some (graph.dependencies fingerprint).length
      else Dict.get? counts fingerprint.text := by
  induction order generalizing counts with
  | nil => simp
  | cons first rest ih =>
    rw [List.foldl_cons, ih, Dict.get?_insert]
    have texts : fingerprint.text = first.text ↔ fingerprint = first := by
      cases fingerprint
      cases first
      simp
    by_cases later : fingerprint ∈ rest
    · simp [later]
    · by_cases same : fingerprint = first <;> simp [later, texts, same]

/-- The books of a request that starts. -/
theorem start {graph : BuildGraph} {order : List Fingerprint} (closed : graph.Closed)
    (inputsFirst : graph.InputsFirst order) (cancelled : Bool) : (ofGraph graph order cancelled).Books [] := by
  have nothing (fingerprint : Fingerprint) : (ofGraph graph order cancelled).report.get? fingerprint = none := rfl
  have missing (fingerprint : Fingerprint) :
      graph.missing (ofGraph graph order cancelled).report fingerprint = (graph.dependencies fingerprint).length := by
    simp [BuildGraph.missing, succeeded, nothing]
  have places : (ofGraph graph order cancelled).placed =
      order.filter fun fingerprint => (graph.dependencies fingerprint).isEmpty := by
    simp [placed, ofGraph]
  refine ⟨closed, inputsFirst, ?_, ?_, ?_, ?_, ?_, ?_, ?_, ?_, ?_, ?_, ?_⟩
  · rw [List.nil_append, places]
    exact inputsFirst.nodup.filter _
  · intro fingerprint _
    rfl
  · intro fingerprint member
    rw [List.nil_append, places, List.mem_filter, List.isEmpty_iff] at member
    exact ⟨(inputsFirst.covers fingerprint).mp member.1, (missing fingerprint).trans (by simp [member.2])⟩
  · intro fingerprint within lacks _
    rw [List.nil_append, places, List.mem_filter, List.isEmpty_iff]
    exact ⟨(inputsFirst.covers fingerprint).mpr within,
      List.eq_nil_of_length_eq_zero ((missing fingerprint).symm.trans lacks)⟩
  · intro derivation looked
    cases looked
  · intro job member
    cases member
  · intro fingerprint within
    refine (get?_inputCounts graph order [] fingerprint).trans ?_
    simp [(inputsFirst.covers fingerprint).mpr within]
    exact (missing fingerprint).symm
  · intro fingerprint record known
    simp [nothing] at known
  · intro fingerprint node status _ known
    simp [nothing] at known
  · rintro fingerprint error ⟨name, known⟩
    simp [nothing] at known
  · intro closed
    cases closed

/-- The request after one derivation was looked at for leftovers. -/
private def leftover (request : Request) (fingerprint : Fingerprint) : Request :=
  if request.report.has fingerprint then request
  else match request.graph.find? fingerprint with
    | some derivation => request.record derivation .cancelled
    | none => request

private theorem foldl_leftover (order : List Fingerprint) (request : Request) :
    ∃ later, order.foldl leftover request = { request with report := later } ∧
      ∀ fingerprint, later.get? fingerprint =
        (request.report.get? fingerprint).or
          (if fingerprint ∈ order then (request.graph.find? fingerprint).map fun node => ⟨node.name, .cancelled⟩
          else none) := by
  induction order generalizing request with
  | nil => exact ⟨request.report, rfl, by simp⟩
  | cons first rest ih =>
    rw [List.foldl_cons]
    cases recorded : request.report.get? first with
    | some record =>
      have one : leftover request first = request := by simp [leftover, has, recorded]
      rw [one]
      obtain ⟨later, shape, known⟩ := ih request
      refine ⟨later, shape, fun fingerprint => ?_⟩
      by_cases same : fingerprint = first <;> simp [known, same, recorded]
    | none =>
      cases found : request.graph.find? first with
      | none =>
        have one : leftover request first = request := by simp [leftover, has, recorded, found]
        rw [one]
        obtain ⟨later, shape, known⟩ := ih request
        refine ⟨later, shape, fun fingerprint => ?_⟩
        by_cases same : fingerprint = first <;> simp [known, same, found]
      | some node =>
        have one : leftover request first = request.record node .cancelled := by simp [leftover, has, recorded, found]
        rw [one]
        obtain ⟨later, shape, known⟩ := ih (request.record node .cancelled)
        refine ⟨later, shape, fun fingerprint => ?_⟩
        have itself : node.fingerprint = first := (find?_some found).2
        by_cases same : fingerprint = first <;>
          simp [known, Request.record, get?_insert, itself, same, recorded, found]

/-- A request that ends has nothing under way, and calls off what has no record. -/
theorem close_cases {next : Request} (closes : request.close = some next) :
    request.placed = [] ∧ request.closed = false ∧ ∃ later, next = { request with report := later, closed := true } ∧
      ∀ fingerprint, later.get? fingerprint =
        (request.report.get? fingerprint).or
          (if fingerprint ∈ request.order then
            (request.graph.find? fingerprint).map fun node => ⟨node.name, .cancelled⟩
          else none) := by
  unfold Request.close at closes
  split at closes
  next looking ready jobs =>
    split at closes
    · cases closes
    next open' =>
      obtain ⟨later, shape, known⟩ := foldl_leftover request.order request
      have shape' : request.cancelLeftovers = { request with report := later } := shape
      rw [shape'] at closes
      exact ⟨by simp [placed, looking, ready, jobs], by simpa using open', later, (Option.some.inj closes).symm, known⟩
  next => cases closes

/-- What a request records as it ends is that a derivation was called off. -/
theorem recorded_of_close {next : Request} (closes : request.close = some next) {fingerprint : Fingerprint}
    {record : BuildRecord} (found : next.report.get? fingerprint = some record) :
    request.report.get? fingerprint = some record ∨
      ∃ node, request.graph.find? fingerprint = some node ∧ record = ⟨node.name, .cancelled⟩ := by
  obtain ⟨_, _, later, rfl, known⟩ := close_cases closes
  rw [known, Option.or_eq_some_iff] at found
  rcases found with old | ⟨_, new⟩
  · exact Or.inl old
  · split at new
    · obtain ⟨node, foundNode, rfl⟩ := Option.map_eq_some_iff.mp new
      exact Or.inr ⟨node, foundNode, rfl⟩
    · cases new

/-- A request that ends has all its derivations recorded. -/
theorem close {next : Request} (books : request.Books []) (closes : request.close = some next) :
    next.Books [] ∧ request.Continues next := by
  obtain ⟨idle, _, later, rfl, known⟩ := close_cases closes
  have grows : later.Extends request.report := by
    intro fingerprint record old
    simp [known, old]
  have fresh {fingerprint : Fingerprint} {record : BuildRecord} (found : later.get? fingerprint = some record) :=
    recorded_of_close closes found
  have same (input : Fingerprint) : later.succeeded input = request.report.succeeded input := by
    rw [Bool.eq_iff_iff, succeeded_iff, succeeded_iff]
    constructor
    · rintro ⟨name, outputs, cached, found⟩
      rcases fresh found with old | ⟨node, _, absurd⟩
      · exact ⟨name, outputs, cached, old⟩
      · cases absurd
    · rintro ⟨name, outputs, cached, found⟩
      exact ⟨name, outputs, cached, grows _ _ found⟩
  have all (fingerprint : Fingerprint) (within : request.graph.contains fingerprint = true) :
      later.has fingerprint = true := by
    obtain ⟨node, found⟩ := contains_iff.mp within
    have listed := (books.order.covers fingerprint).mpr within
    simp [has, known, listed, found]
  have missing (fingerprint : Fingerprint) :
      request.graph.missing later fingerprint = request.graph.missing request.report fingerprint := missing_congr same
  have empty : ({ request with report := later, closed := true } : Request).placed = [] := idle
  refine ⟨?_, rfl, grows, fun _ => Or.inl⟩
  refine ⟨books.graph, books.order, ?_, ?_, ?_, ?_, books.looking, ?_, ?_, ?_, ?_, ?_, ?_⟩
  · simp [empty]
  · simp [empty]
  · simp [empty]
  · intro fingerprint within _ unrecorded
    simp [all fingerprint within] at unrecorded
  · intro job member
    exact ⟨(books.jobs job member).1, grows.supplies (books.jobs job member).2⟩
  · intro fingerprint within
    rw [missing]
    exact books.counts fingerprint within
  · intro fingerprint record found
    rcases fresh found with old | ⟨node, foundNode, rfl⟩
    · exact books.named fingerprint record old
    · exact ⟨node, foundNode, rfl⟩
  · intro fingerprint node status foundNode found
    rcases fresh found with old | ⟨_, _, new⟩
    · rw [missing]
      rcases books.origin fingerprint node status foundNode old with lacks | ⟨error, failed, handed⟩ | ⟨_, leftOver⟩
      · exact Or.inl lacks
      · exact Or.inr (Or.inl ⟨error, failed, handed.mono grows⟩)
      · exact Or.inr (Or.inr ⟨rfl, leftOver⟩)
    · exact Or.inr (Or.inr ⟨rfl, congrArg BuildRecord.status new⟩)
  · rintro fingerprint error ⟨name, found⟩ dependent uses
    rcases fresh found with old | ⟨_, _, absurd⟩
    · obtain ⟨cause, failed⟩ := books.spread fingerprint error ⟨name, old⟩ dependent uses
      exact ⟨cause, grows.failed failed⟩
    · cases absurd
  · intro _
    exact ⟨empty, all⟩

end Books
end Request
end Pkgset

import Pkgset.Proofs.Build.Exclusion
import Pkgset.Proofs.Store.Separate

/-!
# What a build leaves in the store

While a request is served alone and only its phases change files, each in its own entry,
the place of every job says how its entry stands: as at the start, without a marker, or
complete. A job comes to its end without a success where its entry is not accepted, and
with one where it is. So what is accepted at the end is what was accepted at the start
and what has succeeded.
-/

namespace Pkgset
open BuildReport BuildGraph

namespace Workshop

/-- While a request is served, only a phase that runs changes files, and only in the output
    and scratch folders of its own entry. No other request starts. -/
def Confined (workshop : Workshop) : Event → Prop
  | .request _ _ => False
  | .write disk => ∃ id job outputs attempt rest, workshop.Has id job ∧ job.place = .running outputs attempt rest ∧
      workshop.store.Reworks job.derivation workshop.disk disk
  | _ => True

end Workshop

namespace Store.Custody
variable {store : Store} {nodes : List Derivation} {start disk disk' : Disk} {node : Derivation}
  {custody : store.Custody nodes start} {workshop next : Workshop} {request request' : Request} {event : Event}
  {known : Option Outputs} {place : JobPlace}

/-- How the entry of a derivation stands while it has a job, and what is remembered of it. -/
def Fits (custody : store.Custody nodes start) (disk : Disk) (known : Option Outputs) (node : Derivation) :
    JobPlace → Prop
  | .preparing => known = none ∧ ¬ store.Accepts start node ∧
      (custody.Stands disk node .kept ∨ custody.Stands disk node .bare)
  | .between outputs _ | .calling outputs _ _ | .running outputs _ _ | .committing outputs =>
      known = none ∧ ¬ store.Accepts start node ∧ custody.Stands disk node .bare ∧ outputs = store.outputsFor node
  | .recording _ => known = none ∧ custody.Stands disk node .complete
  | .finished (.ok _) => known.isSome = true ∧ custody.Firm disk node
  | _ => known = none ∧ custody.Open disk node

/-- How the entry of a derivation stands while it has no job. -/
def Rests (custody : store.Custody nodes start) (disk : Disk) (known : Option Outputs) (node : Derivation) (done : Bool) :
    Prop :=
  known = none ∧ custody.Open disk node ∨ known.isSome = true ∧ custody.Firm disk node ∧ done = true

section
variable (steady : ∀ standing, custody.Stands disk node standing → custody.Stands disk' node standing)
include steady

theorem Open.mono (opened : custody.Open disk node) : custody.Open disk' node :=
  opened.imp (steady _) fun ⟨bare, unwanted⟩ => ⟨steady _ bare, unwanted⟩

theorem Firm.mono (firm : custody.Firm disk node) : custody.Firm disk' node :=
  firm.imp (fun ⟨kept, accepted⟩ => ⟨steady _ kept, accepted⟩) (steady _)

theorem Fits.mono (fits : custody.Fits disk known node place) : custody.Fits disk' known node place := by
  have bare {outputs : Outputs}
      (making : known = none ∧ ¬ store.Accepts start node ∧ custody.Stands disk node .bare ∧ outputs = store.outputsFor node) :
      known = none ∧ ¬ store.Accepts start node ∧ custody.Stands disk' node .bare ∧ outputs = store.outputsFor node :=
    ⟨making.1, making.2.1, steady _ making.2.2.1, making.2.2.2⟩
  cases place with
  | queued | admitted | claimed | looking => exact ⟨fits.1, fits.2.mono steady⟩
  | preparing => exact ⟨fits.1, fits.2.1, fits.2.2.imp (steady _) (steady _)⟩
  | between | calling | running | committing => exact bare fits
  | recording => exact ⟨fits.1, steady _ fits.2⟩
  | finished result =>
    cases result with
    | ok => exact ⟨fits.1, fits.2.mono steady⟩
    | error => exact ⟨fits.1, fits.2.mono steady⟩

theorem Rests.mono {done : Bool} (rests : custody.Rests disk known node done) : custody.Rests disk' known node done :=
  rests.imp (fun ⟨unknown, opened⟩ => ⟨unknown, opened.mono steady⟩) fun ⟨isKnown, firm, done⟩ => ⟨isKnown, firm.mono steady, done⟩

end

/-- A request is served alone, every derivation of it fits its job or rests without one, and
    the runner was only called for those whose outputs were not there. -/
structure Watches (custody : store.Custody nodes start) (workshop : Workshop) (request : Request) : Prop where
  lone : workshop.requests = [request]
  root : workshop.store = store
  closure : ∀ node, node ∈ request.graph.nodes ↔ node ∈ nodes
  guarded : workshop.Guarded
  sound : custody.Sound workshop.disk
  jobs : ∀ job ∈ request.jobs,
    custody.Fits workshop.disk (workshop.cache.get? job.fingerprint) job.derivation job.place
  others : ∀ node ∈ nodes, node.fingerprint ∉ request.jobs.map Job.fingerprint →
    custody.Rests workshop.disk (workshop.cache.get? node.fingerprint) node (request.report.succeeded node.fingerprint)
  calls : ∀ call ∈ workshop.calls, ¬ store.Accepts start call.derivation

namespace Watches

theorem books (watches : custody.Watches workshop request) : request.Books [] :=
  watches.guarded.books request (by simp [watches.lone])

theorem member (watches : custody.Watches workshop request) {job : Job} (present : job ∈ request.jobs) : job.derivation ∈ nodes :=
  (watches.closure _).mp (find?_some (watches.books.jobs job present).1).1

theorem node_eq (watches : custody.Watches workshop request) {other : Derivation} (member : node ∈ nodes)
    (member' : other ∈ nodes) (same : node.fingerprint = other.fingerprint) : node = other := by
  have found := watches.books.graph.find?_of_mem ((watches.closure node).mpr member)
  rw [same, watches.books.graph.find?_of_mem ((watches.closure other).mpr member')] at found
  exact (Option.some.inj found).symm

end Watches

/-! ### Jobs -/

theorem spares_refl (custody : store.Custody nodes start) (sound : custody.Sound disk) (node : Derivation) :
    custody.Spares nodes node disk disk := ⟨sound, fun _ _ _ _ => id⟩

/-- Where a job heeds that it is called off, nothing is remembered and its entry is open. -/
theorem Fits.opened (fits : custody.Fits disk known node place) (heeds : place.heedsCancel = true) :
    known = none ∧ custody.Open disk node := by
  cases place with
  | queued | admitted | claimed => exact fits
  | calling | running => exact ⟨fits.1, Or.inr ⟨fits.2.2.1, fits.2.1⟩⟩
  | _ => cases heeds

/-- What a job that moves does: other entries stand as they stood, nothing else is
    remembered, it fits where it goes, and the runner is called where nothing was there. -/
structure Carries (custody : store.Custody nodes start) (workshop : Workshop) (job : Job) (after : Workshop) (moved : Job) :
    Prop where
  spares : custody.Spares nodes job.derivation workshop.disk after.disk
  cache : ∀ fingerprint, fingerprint ≠ job.fingerprint → after.cache.get? fingerprint = workshop.cache.get? fingerprint
  fits : custody.Fits after.disk (after.cache.get? job.fingerprint) job.derivation moved.place
  calls : ∀ call ∈ after.calls, call ∈ workshop.calls ∨ ¬ store.Accepts start call.derivation

/-- A job that moves and changes nothing. -/
theorem Carries.aside {job moved : Job} (sound : custody.Sound workshop.disk)
    (fits : custody.Fits workshop.disk (workshop.cache.get? job.fingerprint) job.derivation moved.place) :
    custody.Carries workshop job workshop moved :=
  ⟨spares_refl custody sound _, fun _ _ => rfl, fits, fun _ => Or.inl⟩

/-- A job that changes files only. -/
theorem Carries.files {job moved : Job} (spares : custody.Spares nodes job.derivation workshop.disk disk)
    (fits : custody.Fits disk (workshop.cache.get? job.fingerprint) job.derivation moved.place) :
    custody.Carries workshop job { workshop with disk } moved :=
  ⟨spares, fun _ _ => rfl, fits, fun _ => Or.inl⟩

namespace Watches
variable {job : Job}

private theorem carries_prepare (watches : custody.Watches workshop request) (present : job ∈ request.jobs)
    (at' : job.place = .preparing) :
    custody.Carries workshop job (workshop.prepare job).1 (workshop.prepare job).2 := by
  have fits := watches.jobs job present
  rw [at'] at fits
  obtain ⟨unknown, unwanted, stands⟩ := fits
  obtain ⟨spares, left, made⟩ := custody.prepares (watches.member present) watches.sound
  have opened : custody.Open (store.prepare workshop.disk job.derivation).1 job.derivation := by
    rcases left with same | bare
    · rw [same]
      exact stands.imp_right fun bare => ⟨bare, unwanted⟩
    · exact Or.inr ⟨bare, unwanted⟩
  unfold Workshop.prepare
  rw [watches.root]
  generalize store.prepare workshop.disk job.derivation = done at spares opened made
  obtain ⟨disk, outputs | outputs⟩ := done
  · exact .files spares ⟨unknown, opened⟩
  · obtain ⟨same, bare⟩ := made outputs rfl
    exact .files spares ⟨unknown, unwanted, bare, same⟩

private theorem carries_commit {outputs : Outputs} (watches : custody.Watches workshop request) (present : job ∈ request.jobs)
    (at' : job.place = .committing outputs) :
    custody.Carries workshop job (workshop.commit job outputs).1 (workshop.commit job outputs).2 := by
  have fits := watches.jobs job present
  rw [at'] at fits
  obtain ⟨unknown, unwanted, bare, rfl⟩ := fits
  obtain ⟨spares, failed, made⟩ := custody.commits (watches.member present) watches.sound bare
  unfold Workshop.commit
  generalize Store.commit workshop.disk job.derivation (store.outputsFor job.derivation) = done at spares failed made
  obtain ⟨disk, error | _⟩ := done
  · exact .files spares ⟨unknown, Or.inr ⟨failed error rfl, unwanted⟩⟩
  · exact .files spares ⟨unknown, made rfl⟩

private theorem carries_look (watches : custody.Watches workshop request) (present : job ∈ request.jobs)
    (at' : job.place = .looking) {after : Workshop} {found : Option Outputs}
    (fetched : workshop.fetch job.derivation = (after, found)) {moved : Job}
    (moves : moved.place = match found with
      | some outputs => .finished (.ok ⟨outputs, true⟩)
      | none => .preparing) :
    custody.Carries workshop job after moved := by
  have fits := watches.jobs job present
  rw [at'] at fits
  obtain ⟨unknown, opened⟩ := fits
  have member := watches.member present
  have accepts : workshop.offers job.derivation = true ↔ store.Accepts workshop.disk job.derivation := by
    have unknown' : workshop.cache.get? job.derivation.fingerprint = none := unknown
    rw [Workshop.offers_eq, unknown', watches.root]
    rfl
  cases found with
  | some outputs =>
    have offered : workshop.offers job.derivation = true := by simp [Workshop.offers, fetched]
    have firm := opened.firm member watches.sound (accepts.mp offered)
    have remembered := Workshop.get?_of_fetch (congrArg Prod.snd fetched)
    obtain rfl : (workshop.fetch job.derivation).1 = after := congrArg Prod.fst fetched
    refine ⟨spares_refl custody watches.sound _, fun _ apart => Workshop.get?_fetch_of_ne workshop apart, ?_, fun _ => Or.inl⟩
    rw [moves]
    exact ⟨Option.isSome_iff_exists.mpr ⟨outputs, remembered⟩, firm⟩
  | none =>
    have missed : workshop.offers job.derivation = false := by simp [Workshop.offers, fetched]
    rw [Workshop.fetch_of_missed missed] at fetched
    cases fetched
    refine .aside watches.sound ?_
    rw [moves]
    refine ⟨unknown, fun wanted => ?_, opened.imp_right And.left⟩
    have offered := accepts.mpr ((opened.accepts_iff member watches.sound).mpr wanted)
    simp [missed] at offered

theorem carries_advance (watches : custody.Watches workshop request) (present : job ∈ request.jobs) (id : RequestId) :
    custody.Carries workshop job (workshop.advance id request job).1 (workshop.advance id request job).2 := by
  have fits := watches.jobs job present
  fun_cases Workshop.advance workshop id request job with
  | case1 calledOff =>
    exact .aside watches.sound (fits.opened (Bool.and_eq_true_iff.mp calledOff).2)
  | case2 _ at' _ | case5 _ at' _ | case6 _ at' _ | case7 _ at' _ =>
    rw [at'] at fits
    exact .aside watches.sound fits
  | case8 _ at' after outputs fetched => exact watches.carries_look present at' fetched rfl
  | case9 _ at' after fetched => exact watches.carries_look present at' fetched rfl
  | case10 _ at' => exact watches.carries_prepare present at'
  | case11 _ outputs rest at' =>
    rw [at'] at fits
    fun_cases Job.proceed workshop.config job outputs rest <;> exact .aside watches.sound fits
  | case12 _ outputs attempt rest at' =>
    rw [at'] at fits
    refine ⟨spares_refl custody watches.sound _, fun _ _ => rfl, fits, fun call called => ?_⟩
    rcases List.mem_cons.mp called with rfl | before
    · exact Or.inr fits.2.1
    · exact Or.inl before
  | case14 _ outputs at' => exact watches.carries_commit present at'
  | case15 _ outputs at' cache recorded inserted =>
    rw [at'] at fits
    have remembered := BuildCache.get?_insert_self workshop.cache job.fingerprint outputs
    obtain rfl : (workshop.cache.insert job.fingerprint outputs).1 = cache := congrArg Prod.fst inserted
    refine ⟨spares_refl custody watches.sound _, fun _ apart => Workshop.get?_remember_of_ne _ apart _, ?_, fun _ => Or.inl⟩
    exact ⟨Option.isSome_iff_exists.mpr ⟨_, remembered⟩, Or.inr fits.2⟩
  | _ => exact .aside watches.sound fits

theorem carries_replied {outputs : Outputs} {attempt : Attempt} {rest : List Phase} (watches : custody.Watches workshop request)
    (present : job ∈ request.jobs) (at' : job.place = .running outputs attempt rest) (reply : Reply) :
    custody.Carries workshop job workshop (Workshop.replied workshop.config job outputs attempt rest reply) := by
  have fits := watches.jobs job present
  rw [at'] at fits
  have ends := fits.opened rfl
  refine .aside watches.sound ?_
  cases reply with
  | exit status =>
    simp only [Workshop.replied, Job.exited]
    split
    · exact fits
    · split
      · exact fits
      · exact ends
  | error error => exact ends
  | crash => exact ends

/-! ### Steps -/

/-- What is so of files, jobs, rests and calls after an event is what is watched. -/
private theorem follows (watches : custody.Watches workshop request) (serves : workshop.Serves event next)
    (lone : next.requests = [request']) (sound : custody.Sound next.disk)
    (jobs : ∀ job ∈ request'.jobs, custody.Fits next.disk (next.cache.get? job.fingerprint) job.derivation job.place)
    (others : ∀ node ∈ nodes, node.fingerprint ∉ request'.jobs.map Job.fingerprint →
      custody.Rests next.disk (next.cache.get? node.fingerprint) node (request'.report.succeeded node.fingerprint))
    (calls : ∀ call ∈ next.calls, ¬ store.Accepts start call.derivation) : custody.Watches next request' := by
  obtain ⟨request'', at', continues⟩ := (serves.turn.books watches.guarded.books).2 0 request (by simp [watches.lone])
  obtain rfl : request' = request'' := by simpa [lone] using at'
  refine ⟨lone, ?_, fun node => ?_, watches.guarded.step serves, sound, jobs, others, calls⟩
  · rw [Workshop.store, serves.config]
    exact watches.root
  · rw [continues.graph]
    exact watches.closure node

/-- An event that changes nothing but the request, whose jobs are those before, new ones
    that fit, and less those that are at rest now. -/
private theorem still (watches : custody.Watches workshop request) (serves : workshop.Serves event next)
    (lone : next.requests = [request']) (disk : next.disk = workshop.disk) (cache : next.cache = workshop.cache)
    (calls : next.calls = workshop.calls)
    (jobs : ∀ job ∈ request'.jobs, job ∈ request.jobs ∨
      custody.Fits workshop.disk (workshop.cache.get? job.fingerprint) job.derivation job.place)
    (others : ∀ job ∈ request.jobs, job.fingerprint ∉ request'.jobs.map Job.fingerprint →
      custody.Rests workshop.disk (workshop.cache.get? job.fingerprint) job.derivation
        (request'.report.succeeded job.fingerprint)) : custody.Watches next request' := by
  obtain ⟨request'', at', continues⟩ := (serves.turn.books watches.guarded.books).2 0 request (by simp [watches.lone])
  obtain rfl : request' = request'' := by simpa [lone] using at'
  refine watches.follows serves lone ?_ ?_ ?_ ?_
  · rw [disk]
    exact watches.sound
  · intro job present
    rw [disk, cache]
    exact (jobs job present).elim (watches.jobs job) id
  · intro node member absent
    rw [disk, cache]
    by_cases before : node.fingerprint ∈ request.jobs.map Job.fingerprint
    · obtain ⟨job, present, same⟩ := List.mem_map.mp before
      obtain rfl := watches.node_eq (watches.member present) member same
      exact others job present absent
    · rcases watches.others node member before with unknown | ⟨isKnown, firm, done⟩
      · exact Or.inl unknown
      · exact Or.inr ⟨isKnown, firm, continues.grows.succeeded done⟩
  · rw [calls]
    exact watches.calls

/-- An event by which a job moves. -/
private theorem moves {job moved : Job} {after : Workshop} (watches : custody.Watches workshop request)
    (serves : workshop.Serves event next) (present : job ∈ request.jobs) (carries : custody.Carries workshop job after moved)
    (derivation : moved.derivation = job.derivation) (lone : next.requests = [request']) (disk : next.disk = after.disk)
    (cache : next.cache = after.cache) (calls : next.calls = after.calls) (report : request'.report = request.report)
    (same : request'.jobs.map Job.fingerprint = request.jobs.map Job.fingerprint)
    (jobs : ∀ other ∈ request'.jobs, other = moved ∨ other ∈ request.jobs ∧ other.fingerprint ≠ job.fingerprint) :
    custody.Watches next request' := by
  have fingerprint : moved.fingerprint = job.fingerprint := by rw [Job.fingerprint, derivation, Job.fingerprint]
  have apart {other : Derivation} (member : other ∈ nodes) (differs : other.fingerprint ≠ job.fingerprint) :
      ∀ standing, custody.Stands workshop.disk other standing → custody.Stands after.disk other standing :=
    carries.spares.others other member fun equal => differs (congrArg Derivation.fingerprint equal)
  refine watches.follows serves lone ?_ ?_ ?_ ?_
  · rw [disk]
    exact carries.spares.sound
  · intro other present'
    rw [disk, cache]
    rcases jobs other present' with rfl | ⟨old, differs⟩
    · rw [fingerprint, derivation]
      exact carries.fits
    · rw [carries.cache _ differs]
      exact (watches.jobs other old).mono (apart (watches.member old) differs)
  · intro node member absent
    rw [same] at absent
    have differs : node.fingerprint ≠ job.fingerprint := fun equal => absent (equal ▸ List.mem_map_of_mem present)
    rw [disk, cache, report, carries.cache _ differs]
    exact (watches.others node member absent).mono (apart member differs)
  · intro call called
    rw [calls] at called
    exact (carries.calls call called).elim (watches.calls call) id

/-- What is looked for is at rest. -/
private theorem rests_of_looking (watches : custody.Watches workshop request) (looking : request.looking = some node) :
    node ∈ nodes ∧ node.fingerprint ∉ request.jobs.map Job.fingerprint ∧
      custody.Rests workshop.disk (workshop.cache.get? node.fingerprint) node
        (request.report.succeeded node.fingerprint) := by
  have member : node ∈ nodes := (watches.closure _).mp (find?_some (watches.books.looking node looking)).1
  have absent : node.fingerprint ∉ request.jobs.map Job.fingerprint := by
    intro present
    have once := watches.books.once
    simp only [List.nil_append, Request.placed, looking, Option.toList_some, List.map_cons, List.map_nil] at once
    have twice := (List.nodup_append.mp once).2.1
    exact (List.nodup_cons.mp twice).1 present
  exact ⟨member, absent, watches.others node member absent⟩

/-- A look that finds nothing makes a job, which may start anew. -/
private theorem look_missed (watches : custody.Watches workshop request) (looking : request.looking = some node)
    (found : (workshop.fetch node).2 = none) (serves : workshop.Serves event next)
    (is : next = workshop.setRequest 0 (request.looked node none)) : custody.Watches next (request.looked node none) := by
  obtain ⟨member, absent, rests⟩ := watches.rests_of_looking looking
  have lone : next.requests = [request.looked node none] := by
    rw [is]
    simp [Workshop.setRequest, watches.lone]
  have unknown := Workshop.get?_of_fetch_missed found
  have opened : custody.Open workshop.disk node := by
    rcases rests with ⟨_, opened⟩ | ⟨isKnown, _⟩
    · exact opened
    · simp [unknown] at isKnown
  refine watches.still serves lone (by rw [is]; rfl) (by rw [is]; rfl) (by rw [is]; rfl) ?_ ?_
  · intro job present
    rcases List.mem_append.mp present with old | new
    · exact Or.inl old
    · rw [List.mem_singleton.mp new]
      exact Or.inr ⟨unknown, opened⟩
  · intro job present gone
    refine absurd ?_ gone
    simp only [Request.looked, List.map_append]
    exact List.mem_append_left _ (List.mem_map_of_mem present)

/-- What a look finds is there for good. -/
private theorem firm_of_found {outputs : Outputs} (watches : custody.Watches workshop request)
    (looking : request.looking = some node) (found : (workshop.fetch node).2 = some outputs) :
    custody.Firm workshop.disk node := by
  obtain ⟨member, _, rests⟩ := watches.rests_of_looking looking
  have offered : workshop.offers node = true := by simp [Workshop.offers, found]
  rcases rests with ⟨unknown, opened⟩ | ⟨_, firm, _⟩
  · refine opened.firm member watches.sound ?_
    rw [Workshop.offers_eq, unknown, watches.root] at offered
    exact offered
  · exact firm

/-- A look that finds outputs records that they are there. -/
private theorem look_found {outputs : Outputs} (watches : custody.Watches workshop request)
    (looking : request.looking = some node) (found : (workshop.fetch node).2 = some outputs)
    (serves : workshop.Serves event next)
    (is : next = (workshop.fetch node).1.setRequest 0 (request.looked node (some outputs))) :
    custody.Watches next (request.looked node (some outputs)) := by
  obtain ⟨member, absent, _⟩ := watches.rests_of_looking looking
  have firm := watches.firm_of_found looking found
  have lone : next.requests = [request.looked node (some outputs)] := by
    rw [is]
    simp [Workshop.setRequest, Workshop.fetch, watches.lone]
  obtain ⟨waiting, ready, shape⟩ := Request.succeed_eq { request with looking := none } node ⟨outputs, true⟩
  have looked : request.looked node (some outputs) =
      { { request with looking := none }.record node (.succeeded outputs true) with waiting, ready } := shape
  have cache {fingerprint : Fingerprint} (differs : fingerprint ≠ node.fingerprint) :
      next.cache.get? fingerprint = workshop.cache.get? fingerprint := by
    rw [is]
    exact Workshop.get?_fetch_of_ne workshop differs
  have disk : next.disk = workshop.disk := by rw [is]; rfl
  refine watches.follows serves lone (disk ▸ watches.sound) ?_ ?_ ?_
  · intro job present
    rw [looked] at present
    have old : job ∈ request.jobs := present
    have differs : job.fingerprint ≠ node.fingerprint := fun same => absent (same ▸ List.mem_map_of_mem old)
    rw [disk, cache differs]
    exact watches.jobs job old
  · intro other member' absent'
    rw [looked] at absent' ⊢
    have report : ({ { request with looking := none }.record node (.succeeded outputs true) with waiting, ready }).report =
        request.report.insert node.fingerprint ⟨node.name, .succeeded outputs true⟩ := rfl
    rw [disk, report, succeeded_insert]
    by_cases same : other.fingerprint = node.fingerprint
    · obtain rfl := watches.node_eq member' member same
      rw [if_pos rfl]
      refine Or.inr ⟨?_, firm, rfl⟩
      rw [is]
      exact Option.isSome_iff_exists.mpr ⟨outputs, Workshop.get?_of_fetch found⟩
    · rw [if_neg same, cache same]
      exact watches.others other member' absent'
  · rw [is]
    exact watches.calls

private theorem look (watches : custody.Watches workshop request) (looking : request.looking = some node)
    (serves : workshop.Serves (.look 0) next)
    (is : next = (workshop.fetch node).1.setRequest 0 (request.looked node (workshop.fetch node).2)) :
    custody.Watches next (request.looked node (workshop.fetch node).2) := by
  cases found : (workshop.fetch node).2 with
  | none =>
    have missed : workshop.offers node = false := by simp [Workshop.offers, found]
    rw [found, Workshop.fetch_of_missed missed] at is
    exact watches.look_missed looking found serves is
  | some outputs =>
    rw [found] at is
    exact watches.look_found looking found serves is

private theorem join {fingerprint : Fingerprint} (watches : custody.Watches workshop request)
    (joins : request.join workshop.config fingerprint = some request')
    (serves : workshop.Serves (.join 0 fingerprint) (workshop.setRequest 0 request')) :
    custody.Watches (workshop.setRequest 0 request') request' := by
  obtain ⟨job, result, _, _, present, rfl, place, shape⟩ := Request.join_cases joins
  have jobs : request'.jobs = request.jobs.filter (·.fingerprint ≠ job.fingerprint) := by rw [shape, Workshop.jobs_conclude]
  refine watches.still serves (by simp [Workshop.setRequest, watches.lone]) rfl rfl rfl ?_ ?_
  · intro other kept
    rw [jobs] at kept
    exact Or.inl (List.mem_of_mem_filter kept)
  · intro other present' gone
    have same : other.fingerprint = job.fingerprint := by
      by_contra differs
      rw [jobs] at gone
      exact gone (List.mem_map_of_mem (List.mem_filter.mpr ⟨present', by simpa using differs⟩))
    obtain rfl := watches.books.job_eq present' present same
    have fits := watches.jobs other present
    rw [place] at fits
    cases result with
    | error error => exact Or.inl fits
    | ok realized =>
      refine Or.inr ⟨fits.1, fits.2, ?_⟩
      obtain ⟨waiting, ready, succeeds⟩ := Request.succeed_eq
        { request with jobs := request.jobs.filter (·.fingerprint ≠ other.fingerprint) } other.derivation realized
      have report : request'.report = request.report.insert other.fingerprint
          ⟨other.derivation.name, .succeeded realized.outputs realized.cached⟩ := by
        rw [shape, Request.conclude, succeeds]
        rfl
      rw [report, succeeded_insert, if_pos rfl]
      rfl

/-- What is watched goes on after every event that is confined. -/
theorem step (watches : custody.Watches workshop request) (serves : workshop.Serves event next)
    (confined : workshop.Confined event) : ∃ request', custody.Watches next request' := by
  have set (request' : Request) (after : Workshop) (requests : after.requests = workshop.requests) :
      (after.setRequest 0 request').requests = [request'] := by
    simp [Workshop.setRequest, requests, watches.lone]
  cases serves with
  | request made => exact confined.elim
  | @visit id before request' at' visits =>
    obtain ⟨rfl, rfl⟩ := Workshop.eq_of_lone watches.lone at'
    obtain ⟨_, _, _, _, _, _, ⟨_, rfl⟩ | ⟨_, rfl⟩⟩ := Request.visit_cases watches.books visits
    all_goals
      exact ⟨_, watches.still (.visit at' visits) (set _ _ rfl) rfl rfl rfl (fun _ => Or.inl)
        fun job present gone => absurd (List.mem_map_of_mem present) gone⟩
  | @look id before derivation at' looking =>
    obtain ⟨rfl, rfl⟩ := Workshop.eq_of_lone watches.lone at'
    exact ⟨_, watches.look looking (.look at' looking) rfl⟩
  | @advance id before job at' member =>
    obtain ⟨rfl, rfl⟩ := Workshop.eq_of_lone watches.lone at'
    have present := List.mem_of_find?_eq_some member
    have frame := Workshop.advance_frame workshop 0 request job
    exact ⟨_, watches.moves (.advance at' member) present (watches.carries_advance present 0) frame.derivation
      (set _ _ frame.requests) rfl rfl rfl rfl (Request.fingerprints_updateJob request frame.derivation)
      fun _ => Workshop.jobs_updateJob request.cancelled⟩
  | @reply id before job outputs attempt rest reply cancels at' member running open' =>
    obtain ⟨rfl, rfl⟩ := Workshop.eq_of_lone watches.lone at'
    have present := List.mem_of_find?_eq_some member
    have derivation := (Workshop.replied_frame workshop.config job outputs attempt rest reply).1
    exact ⟨_, watches.moves (.reply at' member running open') present (watches.carries_replied present running reply)
      derivation (set _ _ rfl) rfl rfl rfl rfl
      (Request.fingerprints_updateJob { request with cancelled := cancels } derivation) fun _ => Workshop.jobs_updateJob cancels⟩
  | @join id before request' fingerprint at' joins =>
    obtain ⟨rfl, rfl⟩ := Workshop.eq_of_lone watches.lone at'
    exact ⟨_, watches.join joins (.join at' joins)⟩
  | @close id before request' at' closes =>
    obtain ⟨rfl, rfl⟩ := Workshop.eq_of_lone watches.lone at'
    obtain ⟨_, _, later, rfl, _⟩ := Request.Books.close_cases closes
    exact ⟨_, watches.still (.close at' closes) (set _ _ rfl) rfl rfl rfl (fun _ => Or.inl)
      fun job present gone => absurd (List.mem_map_of_mem present) gone⟩
  | @cancel id before at' =>
    obtain ⟨rfl, rfl⟩ := Workshop.eq_of_lone watches.lone at'
    exact ⟨_, watches.still (.cancel at') (set _ _ rfl) rfl rfl rfl (fun _ => Or.inl)
      fun job present gone => absurd (List.mem_map_of_mem present) gone⟩
  | write disk =>
    obtain ⟨id, job, outputs, attempt, rest, ⟨before, at', present⟩, running, reworks⟩ := confined
    obtain ⟨rfl, rfl⟩ := Workshop.eq_of_lone watches.lone at'
    have fits := watches.jobs job present
    rw [running] at fits
    obtain ⟨unknown, unwanted, bare, same⟩ := fits
    rw [watches.root] at reworks
    obtain ⟨spares, bare'⟩ := custody.reworks (watches.member present) watches.sound bare reworks
    have carries : custody.Carries workshop job { workshop with disk } job := by
      refine .files spares ?_
      rw [running]
      exact ⟨unknown, unwanted, bare', same⟩
    refine ⟨request, watches.moves (.write disk) present carries rfl watches.lone rfl rfl rfl rfl rfl fun other present' => ?_⟩
    by_cases same : other.fingerprint = job.fingerprint
    · exact Or.inl (watches.books.job_eq present' present same)
    · exact Or.inr ⟨present', same⟩

/-! ### Runs -/

theorem run {after : Workshop} {events : List Event} (watches : custody.Watches workshop request)
    (confined : workshop.Along Workshop.Confined events) (ran : workshop.run events = some after) :
    ∃ request', custody.Watches after request' := by
  induction events generalizing workshop request with
  | nil =>
    cases ran
    exact ⟨request, watches⟩
  | cons event rest ih =>
    obtain ⟨next, steps, onwards⟩ := Workshop.run_cons ran
    obtain ⟨request', watches'⟩ := watches.step (Workshop.step_serves steps) confined.1
    exact ih watches' (confined.2 next steps) onwards

/-- How an entry stands at any time, and what may be read off it. -/
theorem stands (watches : custody.Watches workshop request) (member : node ∈ nodes) :
    (∃ standing, custody.Stands workshop.disk node standing) ∧
      (store.Accepts start node → store.Accepts workshop.disk node) := by
  have opened (opened : custody.Open workshop.disk node) : (∃ standing, custody.Stands workshop.disk node standing) ∧
      (store.Accepts start node → store.Accepts workshop.disk node) :=
    ⟨opened.elim (fun kept => ⟨_, kept⟩) fun ⟨bare, _⟩ => ⟨_, bare⟩, (opened.accepts_iff member watches.sound).mpr⟩
  have firm (firm : custody.Firm workshop.disk node) : (∃ standing, custody.Stands workshop.disk node standing) ∧
      (store.Accepts start node → store.Accepts workshop.disk node) :=
    ⟨firm.elim (fun ⟨kept, _⟩ => ⟨_, kept⟩) fun complete => ⟨_, complete⟩, fun _ => firm.accepts member watches.sound⟩
  by_cases present : node.fingerprint ∈ request.jobs.map Job.fingerprint
  · obtain ⟨job, within, same⟩ := List.mem_map.mp present
    obtain rfl := watches.node_eq (watches.member within) member same
    have fits := watches.jobs job within
    cases place : job.place with
    | queued | admitted | claimed | looking =>
      rw [place] at fits
      exact opened fits.2
    | preparing =>
      rw [place] at fits
      exact ⟨fits.2.2.elim (fun kept => ⟨_, kept⟩) fun bare => ⟨_, bare⟩, fun wanted => absurd wanted fits.2.1⟩
    | between | calling | running | committing =>
      rw [place] at fits
      exact opened (Or.inr ⟨fits.2.2.1, fits.2.1⟩)
    | recording =>
      rw [place] at fits
      exact firm (Or.inr fits.2)
    | finished result =>
      rw [place] at fits
      cases result with
      | ok => exact firm fits.2
      | error => exact opened fits.2
  · rcases watches.others node member present with ⟨_, open'⟩ | ⟨_, firm', _⟩
    · exact opened open'
    · exact firm firm'

/-- At the end of a request, what is accepted was accepted at the start or has succeeded. -/
theorem accepts_iff (watches : custody.Watches workshop request) (closed : request.closed = true) (member : node ∈ nodes) :
    store.Accepts workshop.disk node ↔
      store.Accepts start node ∨ request.report.succeeded node.fingerprint = true := by
  have idle : request.jobs = [] := by
    have nothing := (watches.books.ended closed).1
    simp only [List.nil_append, Request.placed, List.append_eq_nil_iff, List.map_eq_nil_iff] at nothing
    exact nothing.2.2
  rcases watches.others node member (by simp [idle]) with ⟨unknown, opened⟩ | ⟨_, firm, done⟩
  · rw [opened.accepts_iff member watches.sound]
    refine (or_iff_left fun done => ?_).symm
    obtain ⟨name, outputs, cached, known⟩ := succeeded_iff.mp done
    have remembered := watches.guarded.reported request (by simp [watches.lone]) _ outputs ⟨name, cached, known⟩
    cases unknown.symm.trans remembered
  · exact iff_of_true (firm.accepts member watches.sound) (Or.inr done)

end Watches

/-- A request that starts in a fresh workshop is watched. -/
theorem watches_serving {config : BuildConfig} {roots : List Derivation} (custody : store.Custody nodes start)
    (root : ⟨config.storeRoot⟩ = store) (opens : request.Opens roots)
    (closure : ∀ node, node ∈ (BuildGraph.ofRoots roots).nodes ↔ node ∈ nodes) :
    custody.Watches ((Workshop.new config start).serving request) request := by
  have idle : request.jobs = [] := by
    rw [opens.fresh]
    rfl
  refine ⟨rfl, root, fun node => opens.nodes.mem_iff.trans (closure node), .opens fun other member => ?_, custody.sound,
    by simp [idle], fun node member _ => Or.inl ⟨rfl, Or.inl (custody.kept node member)⟩, fun _ called => by cases called⟩
  exact ⟨roots, List.mem_singleton.mp member ▸ opens⟩

end Store.Custody
namespace Workshop

/-- The work of a fresh workshop for one request, in which only phases that run change
    files. -/
structure Stint (config : BuildConfig) (disk : Disk) (roots : List Derivation) where
  request : Request
  events : List Event
  after : Workshop
  final : Request
  opens : request.Opens roots
  confined : ((Workshop.new config disk).serving request).Along Confined events
  ran : ((Workshop.new config disk).serving request).run events = some after
  place : after.requests = [final]

namespace Stint
variable {config config' : BuildConfig} {disk : Disk} {roots roots' : List Derivation} {store : Store} {nodes : List Derivation}

/-- A stint is watched up to its end. -/
private theorem watches (stint : Stint config disk roots) (root : ⟨config.storeRoot⟩ = store)
    (custody : store.Custody (BuildGraph.ofRoots roots).nodes disk) : custody.Watches stint.after stint.final := by
  obtain ⟨final, watches⟩ := (custody.watches_serving root stint.opens fun _ => Iff.rfl).run stint.confined stint.ran
  obtain rfl : final = stint.final := by simpa [stint.place] using watches.lone.symm
  exact watches

/-- Whatever becomes of the jobs of a request in a fresh workshop, whether it keeps going
    and whenever it is called off, if the entries of its derivations are separate and only
    phases that run change files: what was accepted at the start is accepted at any time,
    and the runner is not called for it. When the request has ended, what is accepted is
    what was accepted at the start and what has succeeded; and no later request in a fresh
    workshop calls the runner for what has succeeded, if all its derivations are among
    those of the first or their entries are separate again. -/
theorem conserves (stint : Stint config disk roots)
    (separate : Store.Separate ⟨config.storeRoot⟩ (BuildGraph.ofRoots roots).nodes disk) :
    (∀ node ∈ (BuildGraph.ofRoots roots).nodes, Store.Accepts ⟨config.storeRoot⟩ disk node →
      Store.Accepts ⟨config.storeRoot⟩ stint.after.disk node) ∧
    (∀ call ∈ stint.after.calls, ¬ Store.Accepts ⟨config.storeRoot⟩ disk call.derivation) ∧
    (stint.final.closed = true →
      (∀ node ∈ (BuildGraph.ofRoots roots).nodes, Store.Accepts ⟨config.storeRoot⟩ stint.after.disk node ↔
        Store.Accepts ⟨config.storeRoot⟩ disk node ∨ stint.final.report.succeeded node.fingerprint = true) ∧
      ∀ config' roots' (later : Stint config' stint.after.disk roots'), config'.storeRoot = config.storeRoot →
        (BuildGraph.ofRoots roots').nodes ⊆ (BuildGraph.ofRoots roots).nodes ∨
          Store.Separate ⟨config.storeRoot⟩ (BuildGraph.ofRoots roots').nodes stint.after.disk →
        ∀ call ∈ later.after.calls, call.derivation ∈ (BuildGraph.ofRoots roots).nodes →
          stint.final.report.succeeded call.derivation.fingerprint = false) := by
  obtain ⟨custody⟩ := separate.custody
  have watches := stint.watches rfl custody
  refine ⟨fun node member => (watches.stands member).2, watches.calls, fun closed => ?_⟩
  refine ⟨fun node member => watches.accepts_iff closed member, ?_⟩
  intro config' roots' later root within call called member
  have custody' : Nonempty (Store.Custody ⟨config.storeRoot⟩ (BuildGraph.ofRoots roots').nodes stint.after.disk) := by
    rcases within with within | separate'
    · exact ⟨custody.renew within watches.sound fun node member => (watches.stands (within member)).1⟩
    · exact separate'.custody
  obtain ⟨custody'⟩ := custody'
  have unwanted := (later.watches (congrArg Store.mk root) custody').calls call called
  by_contra done
  exact unwanted ((watches.accepts_iff closed member).mpr (Or.inr (by simpa using done)))

end Stint
end Workshop

/-! ### A store that can be written to -/

namespace Errand
open Disk

/-- Files of which a store at the root may hold the entry of `lib`, with some parts. -/
def ground (entry : Option (Dict Node)) : Disk := ⟨.folder (entry.elim [] fun parts => [("a1-lib", .folder parts)])⟩

/-- The names of what an entry holds. -/
def partNames : List String := ["out", Store.workFolder, Store.temporaryFolder, StoreMarker.fileName]

/-- The outputs of `lib` in that store. -/
def place : Outputs := ⟨"/a1-lib", [("out", "/a1-lib/" ++ "out")]⟩

section
variable {parts : Dict Node} {name : String}

theorem target_of_steps {path : String} {names : List String} (cut : steps path = names) (filled : path.isEmpty = false)
    (clean : path.toList.any (· = '\x00') = false) (short : path.utf8ByteSize ≤ pathLimit) (disk : Disk) (follow : Bool) :
    disk.target follow path = walk disk.root follow linkLimit [] names := by
  have clean : path.any (· = '\x00') = false := by
    simp only [String.any, String.contains_prop_eq]
    simpa using clean
  unfold Disk.target
  simp only [clean, filled, cut, Bool.false_eq_true, ↓reduceIte, Nat.not_lt.mpr short]

private theorem spelled_ground :
    (steps "/a1-lib" = ["a1-lib"] ∧ Store.entryName lib = "a1-lib" ∧ Store.outputsFor ⟨"/"⟩ lib = place) ∧
    ∀ name ∈ partNames, steps ("/a1-lib/" ++ name) = ["a1-lib", name] ∧
      ("/a1-lib/" ++ name).isEmpty = false ∧ ("/a1-lib/" ++ name).toList.any (· = '\x00') = false ∧
      ("/a1-lib/" ++ name).utf8ByteSize ≤ pathLimit ∧
      String.ofList (("/a1-lib/" ++ name).toList.reverse.dropWhile (· = '/')).reverse = "/a1-lib/" ++ name ∧
      Path.parent? ("/a1-lib/" ++ name) = some "/a1-lib" ∧ (Path.components ("/a1-lib/" ++ name)).length = 2 ∧
      Path.join "/a1-lib" name = "/a1-lib/" ++ name ∧
      ((Path.pieces ("/a1-lib/" ++ name)).filter (· ≠ "")).getLast? = some name ∧
      name ≠ "." ∧ name ≠ ".." ∧ ¬ nameLimit < name.utf8ByteSize := by decide +kernel

theorem target_entry (disk : Disk) (follow : Bool) :
    disk.target follow "/a1-lib" = walk disk.root follow linkLimit [] ["a1-lib"] :=
  target_of_steps spelled_ground.1.1 (by decide) (by decide) (by decide) disk follow

/-- How the path of a part is written. -/
structure Written (name : String) : Prop where
  filled : ("/a1-lib/" ++ name).isEmpty = false
  bare : String.ofList (("/a1-lib/" ++ name).toList.reverse.dropWhile (· = '/')).reverse = "/a1-lib/" ++ name
  parent : Path.parent? ("/a1-lib/" ++ name) = some "/a1-lib"
  levels : (Path.components ("/a1-lib/" ++ name)).length = 2
  joined : Path.join "/a1-lib" name = "/a1-lib/" ++ name
  last : ((Path.pieces ("/a1-lib/" ++ name)).filter (· ≠ "")).getLast? = some name
  moves : name ≠ "."
  descends : name ≠ ".."
  short : ¬ nameLimit < name.utf8ByteSize
  target (disk : Disk) (follow : Bool) :
    disk.target follow ("/a1-lib/" ++ name) = walk disk.root follow linkLimit [] ["a1-lib", name]

theorem written (among : name ∈ partNames) : Written name := by
  obtain ⟨cut, filled, clean, small, bare, parent, levels, joined, last, moves, descends, short⟩ :=
    spelled_ground.2 name among
  exact ⟨filled, bare, parent, levels, joined, last, moves, descends, short, target_of_steps cut filled clean small⟩

private theorem short_entry : ¬ nameLimit < "a1-lib".utf8ByteSize := by decide

theorem target_lacking (follow : Bool) : (ground none).target follow "/a1-lib" = .ok (.vacant [] "a1-lib") := by
  rw [target_entry, walk]
  simp [ground, Node.at?, Dict.get?, short_entry]

theorem target_lacking_part (written : Written name) (follow : Bool) :
    (ground none).target follow ("/a1-lib/" ++ name) = .error .notFound := by
  rw [written.target, walk]
  simp [ground, Node.at?, Dict.get?, short_entry]

theorem target_holding (parts : Dict Node) (follow : Bool) :
    (ground (some parts)).target follow "/a1-lib" = .ok (.found ["a1-lib"]) := by
  rw [target_entry, walk]
  simp [ground, Node.at?, Dict.get?, short_entry, walk]

theorem target_holding_part (written : Written name) (present : Dict.get? parts name = some .empty) (follow : Bool) :
    (ground (some parts)).target follow ("/a1-lib/" ++ name) = .ok (.found ["a1-lib", name]) := by
  rw [written.target, walk]
  simp [ground, Node.at?, Dict.get?, Node.empty, short_entry, walk, written.moves, written.descends, written.short, present]

theorem target_free_part (written : Written name) (free : Dict.get? parts name = none) (follow : Bool) :
    (ground (some parts)).target follow ("/a1-lib/" ++ name) = .ok (.vacant ["a1-lib"] name) := by
  rw [written.target, walk]
  simp [ground, Node.at?, Dict.get?, short_entry, walk, written.moves, written.descends, written.short, free]

theorem makeFolder_part (written : Written name) (free : Dict.get? parts name = none) :
    (ground (some parts)).makeFolder ("/a1-lib/" ++ name) = .ok (ground (some (Dict.insert parts name .empty))) := by
  rw [makeFolder, written.bare, create, target_free_part written free]
  rfl

theorem makeFolders_next (written : Written name) (free : Dict.get? parts name = none) :
    (ground (some parts)).makeFolders ("/a1-lib/" ++ name) = (ground (some (Dict.insert parts name .empty)), .ok ()) := by
  rw [makeFolders, written.levels, makeFoldersWithin, written.filled, makeFolder_part written free, written.parent]
  rfl

/-- The first part is made together with its entry. -/
theorem makeFolders_first (written : Written name) :
    (ground none).makeFolders ("/a1-lib/" ++ name) = (ground (some [(name, .empty)]), .ok ()) := by
  have fails : (ground none).makeFolder ("/a1-lib/" ++ name) = .error .notFound := by
    rw [makeFolder, written.bare, create, target_lacking_part written]
    rfl
  have entry : (ground none).makeFoldersWithin 2 "/a1-lib" = (ground (some []), .ok ()) := by
    have bare : String.ofList ("/a1-lib".toList.reverse.dropWhile (· = '/')).reverse = "/a1-lib" := by decide
    have filled : "/a1-lib".isEmpty = false := by decide
    rw [makeFoldersWithin, filled, makeFolder, bare, create, target_lacking]
    rfl
  rw [makeFolders, written.levels, makeFoldersWithin, written.filled, fails, written.parent]
  simp only [entry]
  rw [makeFolder_part written rfl]
  rfl

theorem removeTree_part (written : Written name) (present : Dict.get? parts name = some .empty) :
    (ground (some parts)).removeTree ("/a1-lib/" ++ name) = (ground (some (Dict.erase parts name)), .ok ()) := by
  have found : (ground (some parts)).root.at? ["a1-lib", name] = some .empty := by
    simp [ground, Node.at?, Dict.get?, present]
  unfold Disk.removeTree Disk.place
  rw [target_holding_part written present, written.last]
  simp only [bind, Except.bind, found, Node.empty]
  split
  next file => cases file
  next point => exact absurd (Option.some.inj point) written.moves
  next up => exact absurd (Option.some.inj up) written.descends
  next => rfl

end

theorem prepare_ground : Store.prepare ⟨"/"⟩ (ground none) lib =
    (ground (some [(".build", .empty), (".tmp", .empty), ("out", .empty)]), .ok place) := by
  have outputs : Store.outputsFor ⟨"/"⟩ lib = place := spelled_ground.1.2.2
  have lacks : (ground none).leadsToNode "/a1-lib" = false := by
    simp [leadsToNode, Disk.node, Disk.place, target_lacking, bind, Except.bind, Except.toBool]
  have paths : Dict.values place.paths ++ Store.scratch.map (Path.join "/a1-lib") =
      ["/a1-lib/" ++ "out", "/a1-lib/" ++ ".build", "/a1-lib/" ++ ".tmp"] := by
    rw [Store.scratch, List.map_cons, List.map_cons, (written (by decide)).joined, (written (by decide)).joined]
    rfl
  have first := makeFolders_first (written (by decide : "out" ∈ partNames))
  have second : (ground (some [("out", .empty)])).makeFolders ("/a1-lib/" ++ ".build") =
      (ground (some [(".build", .empty), ("out", .empty)]), .ok ()) :=
    makeFolders_next (written (by decide)) rfl
  have third : (ground (some [(".build", .empty), ("out", .empty)])).makeFolders ("/a1-lib/" ++ ".tmp") =
      (ground (some [(".build", .empty), (".tmp", .empty), ("out", .empty)]), .ok ()) :=
    makeFolders_next (written (by decide)) rfl
  unfold Store.prepare
  rw [outputs]
  simp only [place] at paths ⊢
  simp only [lacks, Bool.false_eq_true, ↓reduceIte, paths, Store.makeAll, first, second, third]
  rfl

theorem lookup_ground : Store.lookup ⟨"/"⟩ (ground none) lib = none := by
  have lacks : (ground none).leadsToNode ("/a1-lib/" ++ StoreMarker.fileName) = false := by
    simp [leadsToNode, Disk.node, Disk.place, target_lacking_part (written (by decide : StoreMarker.fileName ∈ partNames)),
      bind, Except.bind, Except.toBool]
  have entry : (Store.outputsFor ⟨"/"⟩ lib).storePath = "/a1-lib" := congrArg Outputs.storePath spelled_ground.1.2.2
  have marker : Path.join (Store.outputsFor ⟨"/"⟩ lib).storePath StoreMarker.fileName =
      "/a1-lib/" ++ StoreMarker.fileName := by rw [entry, (written (by decide)).joined]
  simp [Store.lookup, Store.readMarker, marker, lacks]

theorem commit_sealed : ∃ content,
    Store.commit (ground (some [(".build", .empty), (".tmp", .empty), ("out", .empty)])) lib place =
      (ground (some [(StoreMarker.fileName, .file content .ordinary), ("out", .empty)]), .ok ()) := by
  have build : (ground (some [(".build", .empty), (".tmp", .empty), ("out", .empty)])).removeTree ("/a1-lib/" ++ ".build") =
      (ground (some [(".tmp", .empty), ("out", .empty)]), .ok ()) := removeTree_part (written (by decide)) rfl
  have temporary : (ground (some [(".tmp", .empty), ("out", .empty)])).removeTree ("/a1-lib/" ++ ".tmp") =
      (ground (some [("out", .empty)]), .ok ()) := removeTree_part (written (by decide)) rfl
  have joined {name : String} (among : name ∈ partNames) := (written among).joined
  have cleared : Store.clearScratch (ground (some [(".build", .empty), (".tmp", .empty), ("out", .empty)])) "/a1-lib" =
      ground (some [("out", .empty)]) := by
    simp only [Store.clearScratch, Store.scratch, Store.workFolder, Store.temporaryFolder, List.foldl,
      joined (by decide : ".build" ∈ partNames), joined (by decide : ".tmp" ∈ partNames), build, temporary]
  obtain ⟨hash, hashed⟩ : ∃ hash, (ground (some [("out", .empty)])).treeHash "/a1-lib" Store.exclusions = .ok hash := by
    simp only [treeHash, Disk.node, Disk.place, target_holding]
    split
    next failed => cases failed
    next => split <;> exact ⟨_, rfl⟩
  have marker := written (by decide : StoreMarker.fileName ∈ partNames)
  unfold Store.commit
  simp only [place, cleared, hashed, marker.joined, write, target_free_part marker (rfl : Dict.get? [("out", .empty)] _ = none)]
  exact ⟨_, rfl⟩

theorem commit_ground : ∃ marked,
    Store.commit (ground (some [(".build", .empty), (".tmp", .empty), ("out", .empty)])) lib place = (marked, .ok ()) := by
  obtain ⟨content, committed⟩ := commit_sealed
  exact ⟨_, committed⟩

/-- The request for `lib`, at its start. -/
def wanted : Request := .ofGraph (BuildGraph.ofRoots [lib]) [lib.fingerprint] false

/-- The request while `lib` has a job or none. -/
def under (jobs : List Job) : Request := { wanted with ready := [], jobs }

/-- A workshop whose store is the root. -/
def homestead (disk : Disk) (remembered : Dict Outputs) (request : Request) : Workshop :=
  ⟨⟨2, .always, 0, true, "/", none⟩, disk, ⟨remembered⟩, [], [request]⟩

/-- The workshop while `lib` is in its job. -/
def making (disk : Disk) (remembered : Dict Outputs) (place : JobPlace) : Workshop :=
  homestead disk remembered (under [⟨lib, [], place⟩])

/-- The request when `lib` is made. -/
def made : Request :=
  { under [] with report := ⟨[(lib.fingerprint.text, ⟨"lib", .succeeded place false⟩)], [lib.fingerprint]⟩, closed := true }

/-- What happens until `lib` is made. -/
def chores : List Event :=
  [.visit 0, .look 0, work, work, work, work, work, work, work, work, .join 0 lib.fingerprint, .close 0]

private theorem advance_making {disk disk' : Disk} {remembered remembered' : Dict Outputs} {place later : JobPlace}
    (moves : (making disk remembered place).advance 0 (under [⟨lib, [], place⟩]) ⟨lib, [], place⟩ =
      (making disk' remembered' place, ⟨lib, [], later⟩)) :
    (making disk remembered place).step work = some (making disk' remembered' later) := by
  have at' : (making disk remembered place).requests[0]? = some (under [⟨lib, [], place⟩]) := rfl
  have member : (under [⟨lib, [], place⟩]).jobs.find? (·.fingerprint = (⟨lib, [], place⟩ : Job).fingerprint) =
      some ⟨lib, [], place⟩ := rfl
  exact Workshop.step_advance at' member moves

theorem runs_chores : ∃ marked, (homestead (ground none) [] wanted).Along Workshop.Confined chores ∧
    (homestead (ground none) [] wanted).run chores = some (homestead marked [(lib.fingerprint.text, place)] made) := by
  obtain ⟨marked, committed⟩ := commit_ground
  have fresh (now : Request) : (homestead (ground none) [] now).offers lib = false := by
    rw [Workshop.offers_eq]
    change (false || (Store.lookup ⟨"/"⟩ (ground none) lib).isSome) = false
    rw [lookup_ground]
    rfl
  have at' : (homestead (ground none) [] { under [] with looking := some lib }).requests[0]? =
      some { under [] with looking := some lib } := rfl
  have looked : (homestead (ground none) [] { under [] with looking := some lib }).step (.look 0) =
      some (making (ground none) [] .queued) := Workshop.step_look_of_missed at' rfl (fresh _)
  have missed : (making (ground none) [] .looking).step work = some (making (ground none) [] .preparing) :=
    advance_making (Workshop.advance_of_missed rfl rfl (fresh _))
  let parts : Dict Node := [(".build", .empty), (".tmp", .empty), ("out", .empty)]
  have prepared : (making (ground none) [] .preparing).step work = some (making (ground (some parts)) [] (.between place [])) := by
    refine advance_making ?_
    have prepare : (making (ground none) [] .preparing).store.prepare (making (ground none) [] .preparing).disk lib = _ :=
      prepare_ground
    change Workshop.prepare _ _ = _
    simp only [Workshop.prepare, prepare]
    rfl
  have completed : (making (ground (some parts)) [] (.committing place)).step work =
      some (making marked [] (.recording place)) := by
    refine advance_making ?_
    change Workshop.commit _ _ _ = _
    have commit : Store.commit (making (ground (some parts)) [] (.committing place)).disk lib place = _ := committed
    simp only [Workshop.commit, commit]
    rfl
  refine ⟨marked, ?_⟩
  refine Workshop.Along.cons trivial rfl (Workshop.Along.cons trivial looked ?_)
  refine Workshop.Along.cons trivial (rfl : _ = some (making (ground none) [] .admitted)) ?_
  refine Workshop.Along.cons trivial (rfl : _ = some (making (ground none) [] .claimed)) ?_
  refine Workshop.Along.cons trivial (rfl : _ = some (making (ground none) [] .looking)) ?_
  refine Workshop.Along.cons trivial missed (Workshop.Along.cons trivial prepared ?_)
  refine Workshop.Along.cons trivial (rfl : _ = some (making (ground (some parts)) [] (.committing place))) ?_
  refine Workshop.Along.cons trivial completed ?_
  refine Workshop.Along.cons trivial
    (rfl : _ = some (making marked [(lib.fingerprint.text, place)] (.finished (.ok ⟨place, false⟩)))) ?_
  exact Workshop.Along.cons trivial rfl (Workshop.Along.cons trivial rfl ⟨trivial, rfl⟩)

/-- In an empty store entries can be made. -/
theorem clean_ground {nodes : List Derivation} (among : nodes ⊆ [lib, tool]) : Store.Clean ⟨"/"⟩ nodes (ground none) := by
  have root : Path.way "/" = [] := by decide
  have either {node : Derivation} (member : node ∈ nodes) : node = lib ∨ node = tool := by simpa using among member
  have names : Store.entryName lib = "a1-lib" ∧ Store.entryName tool = "b2-tool" := by decide +kernel
  refine ⟨⟨?_, ?_, ?_⟩, ?_, ?_, ?_⟩
  · intro node member
    rcases either member with rfl | rfl
    · rw [names.1]
      exact ⟨by decide, by decide, by decide, by decide⟩
    · rw [names.2]
      exact ⟨by decide, by decide, by decide, by decide⟩
  · intro node member output declared
    obtain rfl : output = "out" := by rcases either member with rfl | rfl <;> exact List.mem_singleton.mp declared
    exact ⟨⟨by decide, by decide, by decide, by decide⟩, by decide⟩
  · intro node member other member' same
    rcases either member with rfl | rfl <;> rcases either member' with rfl | rfl
    · rfl
    · exact absurd same (by rw [names.1, names.2]; decide)
    · exact absurd same (by rw [names.1, names.2]; decide)
    · rfl
  · intro links base leads _
    rw [root] at leads ⊢
    cases leads
    exact ⟨_, .stay⟩
  · intro before name after links base split
    rw [root] at split
    simp at split
  · intro links base leads node member target
    rw [root] at leads
    cases leads
    exact ⟨by simp [ground, Node.at?, Dict.get?], by simp [ground, Node.at?, Dict.get?]⟩

theorem separate_ground : Store.Separate ⟨"/"⟩ (BuildGraph.ofRoots [lib]).nodes (ground none) := by
  have nodes : (BuildGraph.ofRoots [lib]).nodes = [lib] := rfl
  rw [nodes]
  exact (clean_ground (by simp)).separate

theorem opens_wanted : wanted.Opens [lib] := by
  refine ⟨List.Perm.refl _, rfl, ?_, rfl⟩
  exact (BuildGraph.closed_ofRoots [lib]).inputsFirst_of_perm (by decide) (by decide)

end Errand

open Errand in
/-- In an empty store `lib` is made, and then its entry is accepted. -/
theorem Workshop.Stint.conserves_errand : ∃ stint : Workshop.Stint ⟨2, .always, 0, true, "/", none⟩ (ground none) [lib],
    stint.final.closed = true ∧ stint.final.report.succeeded lib.fingerprint = true ∧
      Store.Accepts ⟨"/"⟩ stint.after.disk lib ∧
      ∀ later : Workshop.Stint ⟨2, .always, 0, true, "/", none⟩ stint.after.disk [lib],
        ∀ call ∈ later.after.calls, call.derivation ≠ lib := by
  obtain ⟨marked, confined, ran⟩ := runs_chores
  let stint : Workshop.Stint ⟨2, .always, 0, true, "/", none⟩ (ground none) [lib] :=
    ⟨wanted, chores, _, made, opens_wanted, confined, ran, rfl⟩
  have within : lib ∈ (BuildGraph.ofRoots [lib]).nodes := List.mem_singleton_self lib
  obtain ⟨_, _, atEnd⟩ := stint.conserves separate_ground
  obtain ⟨accepts, again⟩ := atEnd rfl
  refine ⟨stint, rfl, rfl, (accepts lib within).mpr (Or.inr rfl), ?_⟩
  rintro later call called same
  have done := again _ _ later rfl (Or.inl (List.Subset.refl _)) call called (same ▸ within)
  rw [same] at done
  cases done

end Pkgset

import Pkgset.Proofs.Build.Conservation

/-!
# Builds that nobody disturbs

What a build comes to is foreseen if what the store holds for a derivation stays while no
job is at work on its entry. It stays where the entries are separate and only phases that
run change files, each in its own entry: an event changes files for one derivation at most,
whose job is at work then, and the entries of the others stand as they stood. What is
remembered at the start does not matter to that.
-/

namespace Pkgset
open BuildGraph

/-- The outputs that a job fills there: it has a fresh entry and has not completed it. -/
def JobPlace.filling? : JobPlace → Option Outputs
  | .between outputs _ | .calling outputs _ _ | .running outputs _ _ | .committing outputs => some outputs
  | _ => none

namespace Store.Custody
variable {store : Store} {nodes : List Derivation} {start disk : Disk} {node : Derivation}
  {custody : store.Custody nodes start} {workshop next : Workshop} {request request' : Request} {event : Event} {job : Job}

/-- The entry that a job fills has no marker, and its outputs are those of the derivation. -/
def Minds (custody : store.Custody nodes start) (disk : Disk) (job : Job) : Prop :=
  ∀ outputs, job.place.filling? = some outputs →
    custody.Stands disk job.derivation .bare ∧ outputs = store.outputsFor job.derivation

/-- A request is served alone, every entry stands in some way, and every job minds its own. -/
structure Tends (custody : store.Custody nodes start) (workshop : Workshop) (request : Request) : Prop where
  lone : workshop.requests = [request]
  root : workshop.store = store
  closure : ∀ node, node ∈ request.graph.nodes ↔ node ∈ nodes
  books : request.Books []
  sound : custody.Sound workshop.disk
  stands : ∀ node ∈ nodes, ∃ standing, custody.Stands workshop.disk node standing
  jobs : ∀ job ∈ request.jobs, custody.Minds workshop.disk job

/-- What becomes of files when a job moves: they change only while it is at work on its
    entry, the other entries stand as they stood, and the job minds its own afterwards. -/
structure Attends (custody : store.Custody nodes start) (workshop : Workshop) (job : Job) (disk : Disk) (moved : Job) :
    Prop where
  idle : disk = workshop.disk ∨ job.place.isUntouched = false
  spares : custody.Spares nodes job.derivation workshop.disk disk
  stands : ∃ standing, custody.Stands disk job.derivation standing
  minds : custody.Minds disk moved

namespace Tends

theorem member (tends : custody.Tends workshop request) (present : job ∈ request.jobs) : job.derivation ∈ nodes :=
  (tends.closure _).mp (find?_some (tends.books.jobs job present).1).1

/-! ### Jobs -/

/-- A job that moves and leaves the files as they are. -/
private theorem aside (tends : custody.Tends workshop request) (present : job ∈ request.jobs) {moved : Job}
    (minds : custody.Minds workshop.disk moved) : custody.Attends workshop job workshop.disk moved :=
  ⟨Or.inl rfl, spares_refl custody tends.sound _, tends.stands _ (tends.member present), minds⟩

private theorem attends_prepare (tends : custody.Tends workshop request) (present : job ∈ request.jobs)
    (at' : job.place = .preparing) :
    custody.Attends workshop job (workshop.prepare job).1.disk (workshop.prepare job).2 := by
  obtain ⟨spares, left, made⟩ := custody.prepares (tends.member present) tends.sound
  have stands : ∃ standing, custody.Stands (store.prepare workshop.disk job.derivation).1 job.derivation standing := by
    rcases left with same | bare
    · rw [same]
      exact tends.stands _ (tends.member present)
    · exact ⟨_, bare⟩
  have working : job.place.isUntouched = false := by rw [at']; rfl
  unfold Workshop.prepare
  rw [tends.root]
  generalize store.prepare workshop.disk job.derivation = done at spares stands made
  obtain ⟨disk, error | outputs⟩ := done
  · exact ⟨Or.inr working, spares, stands, fun _ fills => by cases fills⟩
  · obtain ⟨same, bare⟩ := made outputs rfl
    exact ⟨Or.inr working, spares, stands, fun _ fills => Option.some.inj fills ▸ ⟨bare, same⟩⟩

private theorem attends_commit {outputs : Outputs} (tends : custody.Tends workshop request) (present : job ∈ request.jobs)
    (at' : job.place = .committing outputs) :
    custody.Attends workshop job (workshop.commit job outputs).1.disk (workshop.commit job outputs).2 := by
  obtain ⟨bare, rfl⟩ := tends.jobs job present outputs (by rw [at']; rfl)
  obtain ⟨spares, failed, made⟩ := custody.commits (tends.member present) tends.sound bare
  have working : job.place.isUntouched = false := by rw [at']; rfl
  unfold Workshop.commit
  generalize Store.commit workshop.disk job.derivation (store.outputsFor job.derivation) = done at spares failed made
  obtain ⟨disk, error | _⟩ := done
  · exact ⟨Or.inr working, spares, ⟨_, failed error rfl⟩, fun _ fills => by cases fills⟩
  · exact ⟨Or.inr working, spares, ⟨_, made rfl⟩, fun _ fills => by cases fills⟩

theorem attends_advance (tends : custody.Tends workshop request) (present : job ∈ request.jobs) (id : RequestId) :
    custody.Attends workshop job (workshop.advance id request job).1.disk (workshop.advance id request job).2 := by
  have minds := tends.jobs job present
  fun_cases Workshop.advance workshop id request job with
  | case8 _ at' after outputs fetched =>
    obtain rfl : (workshop.fetch job.derivation).1 = after := congrArg Prod.fst fetched
    exact tends.aside present fun _ fills => by cases fills
  | case9 _ at' after fetched =>
    obtain rfl : (workshop.fetch job.derivation).1 = after := congrArg Prod.fst fetched
    exact tends.aside present fun _ fills => by cases fills
  | case10 _ at' => exact tends.attends_prepare present at'
  | case11 _ outputs rest at' =>
    rw [Minds, at'] at minds
    fun_cases Job.proceed workshop.config job outputs rest <;> exact tends.aside present minds
  | case12 _ outputs attempt rest at' =>
    rw [Minds, at'] at minds
    exact tends.aside present minds
  | case3 | case4 | case13 | case16 => exact tends.aside present minds
  | case14 _ outputs at' => exact tends.attends_commit present at'
  | _ => exact tends.aside present fun _ fills => by cases fills

theorem attends_replied {outputs : Outputs} {attempt : Attempt} {rest : List Phase} (tends : custody.Tends workshop request)
    (present : job ∈ request.jobs) (at' : job.place = .running outputs attempt rest) (reply : Reply) :
    custody.Attends workshop job workshop.disk (Workshop.replied workshop.config job outputs attempt rest reply) := by
  have minds := tends.jobs job present
  rw [Minds, at'] at minds
  refine tends.aside present ?_
  cases reply with
  | exit status =>
    simp only [Workshop.replied, Job.exited]
    split
    · exact minds
    · split
      · exact minds
      · exact fun _ fills => by cases fills
  | error error => exact fun _ fills => by cases fills
  | crash => exact fun _ fills => by cases fills

/-! ### Steps -/

/-- The request has gone on, the files changed for one derivation at most, and every job was
    there and minds its own. -/
private theorem follows (tends : custody.Tends workshop request) (serves : workshop.Serves event next)
    (lone : next.requests = [request']) (sound : custody.Sound next.disk)
    (stands : ∀ node ∈ nodes, ∃ standing, custody.Stands next.disk node standing)
    (jobs : ∀ job ∈ request'.jobs, custody.Minds next.disk job) : custody.Tends next request' := by
  have turn := serves.turn.books fun other member => by
    rw [tends.lone] at member
    exact List.mem_singleton.mp member ▸ tends.books
  obtain ⟨request'', at', continues⟩ := turn.2 0 request (by simp [tends.lone])
  obtain rfl : request' = request'' := by simpa [lone] using at'
  refine ⟨lone, ?_, fun node => ?_, turn.1 _ (by simp [lone]), sound, stands, jobs⟩
  · rw [Workshop.store, serves.config]
    exact tends.root
  · rw [continues.graph]
    exact tends.closure node

/-- The files stay as they are, and a job fills only what it filled before. -/
private theorem still (tends : custody.Tends workshop request) (serves : workshop.Serves event next)
    (lone : next.requests = [request']) (disk : next.disk = workshop.disk)
    (jobs : ∀ job ∈ request'.jobs, job ∈ request.jobs ∨ job.place.filling? = none) : custody.Tends next request' := by
  refine tends.follows serves lone (disk ▸ tends.sound) (disk ▸ tends.stands) fun job present => ?_
  rw [disk]
  rcases jobs job present with old | idle
  · exact tends.jobs job old
  · exact fun outputs fills => by cases idle.symm.trans fills

/-- A job moves, and the files change for it. -/
private theorem moves {moved : Job} (tends : custody.Tends workshop request) (serves : workshop.Serves event next)
    (lone : next.requests = [request']) (attends : custody.Attends workshop job next.disk moved)
    (jobs : ∀ other ∈ request'.jobs, other = moved ∨ other ∈ request.jobs ∧ other.fingerprint ≠ job.fingerprint) :
    custody.Tends next request' := by
  have apart {other : Derivation} (member : other ∈ nodes) (differs : other ≠ job.derivation) :
      ∀ standing, custody.Stands workshop.disk other standing → custody.Stands next.disk other standing :=
    attends.spares.others other member differs
  refine tends.follows serves lone attends.spares.sound (fun node member => ?_) fun other present => ?_
  · by_cases same : node = job.derivation
    · exact same ▸ attends.stands
    · exact (tends.stands node member).imp (apart member same)
  · rcases jobs other present with rfl | ⟨old, differs⟩
    · exact attends.minds
    · intro outputs fills
      have differs : other.derivation ≠ job.derivation := fun same => differs (congrArg Derivation.fingerprint same)
      exact (tends.jobs other old outputs fills).imp_left (apart (tends.member old) differs _)

/-- A request that is served alone, with phases that only work in their own entries, goes on
    so; the files change only for a job that is at work on its entry. -/
theorem step (tends : custody.Tends workshop request) (serves : workshop.Serves event next)
    (confined : workshop.Confined event) :
    (∃ request', custody.Tends next request') ∧
      (next.disk = workshop.disk ∨ ∃ job ∈ request.jobs, job.place.isUntouched = false ∧
        custody.Spares nodes job.derivation workshop.disk next.disk) := by
  have set (request' : Request) (after : Workshop) (requests : after.requests = workshop.requests) :
      (after.setRequest 0 request').requests = [request'] := by
    simp [Workshop.setRequest, requests, tends.lone]
  cases serves with
  | request made => exact confined.elim
  | visit at' visits =>
    obtain ⟨rfl, rfl⟩ := Workshop.eq_of_lone tends.lone at'
    obtain ⟨_, _, _, _, _, _, ⟨_, rfl⟩ | ⟨_, rfl⟩⟩ := Request.visit_cases tends.books visits
    all_goals exact ⟨⟨_, tends.still (.visit at' visits) (set _ _ rfl) rfl fun _ => Or.inl⟩, Or.inl rfl⟩
  | @look id before derivation at' looking =>
    obtain ⟨rfl, rfl⟩ := Workshop.eq_of_lone tends.lone at'
    refine ⟨⟨_, tends.still (.look at' looking) (set _ _ rfl) rfl fun job present => ?_⟩, Or.inl rfl⟩
    cases found : (workshop.fetch derivation).2 with
    | some outputs =>
      obtain ⟨waiting, ready, shape⟩ := Request.succeed_eq { request with looking := none } derivation ⟨outputs, true⟩
      rw [found, Request.looked, shape] at present
      exact Or.inl present
    | none =>
      rw [found] at present
      rcases List.mem_append.mp present with old | new
      · exact Or.inl old
      · exact Or.inr (by rw [List.mem_singleton.mp new]; rfl)
  | @advance id before job at' member =>
    obtain ⟨rfl, rfl⟩ := Workshop.eq_of_lone tends.lone at'
    have present := List.mem_of_find?_eq_some member
    have attends := tends.attends_advance present 0
    have frame := Workshop.advance_frame workshop 0 request job
    refine ⟨⟨_, tends.moves (.advance at' member) (set _ _ frame.requests) attends fun _ =>
      Workshop.jobs_updateJob request.cancelled⟩, ?_⟩
    exact attends.idle.imp_right fun working => ⟨job, present, working, attends.spares⟩
  | @reply id before job outputs attempt rest reply cancels at' member running open' =>
    obtain ⟨rfl, rfl⟩ := Workshop.eq_of_lone tends.lone at'
    have attends := tends.attends_replied (List.mem_of_find?_eq_some member) running reply
    exact ⟨⟨_, tends.moves (.reply at' member running open') (set _ _ rfl) attends fun _ =>
      Workshop.jobs_updateJob cancels⟩, Or.inl rfl⟩
  | join at' joins =>
    obtain ⟨rfl, rfl⟩ := Workshop.eq_of_lone tends.lone at'
    refine ⟨⟨_, tends.still (.join at' joins) (set _ _ rfl) rfl fun job present => Or.inl ?_⟩, Or.inl rfl⟩
    obtain ⟨joined, result, _, _, _, _, _, rfl⟩ := Request.join_cases joins
    rw [Workshop.jobs_conclude] at present
    exact List.mem_of_mem_filter present
  | close at' closes =>
    obtain ⟨rfl, rfl⟩ := Workshop.eq_of_lone tends.lone at'
    obtain ⟨_, _, later, rfl, _⟩ := Request.Books.close_cases closes
    exact ⟨⟨_, tends.still (.close at' closes) (set _ _ rfl) rfl fun _ => Or.inl⟩, Or.inl rfl⟩
  | cancel at' =>
    obtain ⟨rfl, rfl⟩ := Workshop.eq_of_lone tends.lone at'
    exact ⟨⟨_, tends.still (.cancel at') (set _ _ rfl) rfl fun _ => Or.inl⟩, Or.inl rfl⟩
  | write disk =>
    obtain ⟨id, job, outputs, attempt, rest, ⟨before, at', present⟩, running, reworks⟩ := confined
    obtain ⟨rfl, rfl⟩ := Workshop.eq_of_lone tends.lone at'
    obtain ⟨bare, same⟩ := tends.jobs job present outputs (by rw [running]; rfl)
    rw [tends.root] at reworks
    obtain ⟨spares, bare'⟩ := custody.reworks (tends.member present) tends.sound bare reworks
    have working : job.place.isUntouched = false := by rw [running]; rfl
    have minds : custody.Minds disk job := by
      intro other fills
      rw [running] at fills
      exact Option.some.inj fills ▸ ⟨bare', same⟩
    refine ⟨⟨request, tends.moves (.write disk) tends.lone ⟨Or.inr working, spares, ⟨_, bare'⟩, minds⟩ fun other present' => ?_⟩,
      Or.inr ⟨job, present, working, spares⟩⟩
    by_cases alike : other.fingerprint = job.fingerprint
    · exact Or.inl (tends.books.job_eq present' present alike)
    · exact Or.inr ⟨present', alike⟩

/-- What the store holds for a derivation stays while its job is not at work on the entry. -/
theorem undisturbed (tends : custody.Tends workshop request) (serves : workshop.Serves event next)
    (confined : workshop.Confined event) (member : node ∈ nodes)
    (untouched : ∀ job ∈ request.jobs, job.fingerprint = node.fingerprint → job.place.isUntouched = true) :
    store.Accepts next.disk node ↔ store.Accepts workshop.disk node := by
  obtain ⟨⟨request', tends'⟩, same | ⟨job, present, working, spares⟩⟩ := tends.step serves confined
  · rw [same]
  · have apart : node ≠ job.derivation := by
      rintro rfl
      simp [untouched job present rfl] at working
    obtain ⟨standing, stands⟩ := tends.stands node member
    -- seen from the files as they are, the entry is kept
    exact (custody.renew (List.Subset.refl nodes) tends.sound tends.stands).accepts_kept member tends'.sound
      ⟨standing, stands, spares.others node member apart standing stands⟩

end Tends

/-- A request that starts is tended to, whatever is remembered. -/
theorem tends_serving {roots : List Derivation} (custody : store.Custody nodes workshop.disk) (root : workshop.store = store)
    (opens : request.Opens roots) (closure : ∀ node, node ∈ (ofRoots roots).nodes ↔ node ∈ nodes) :
    custody.Tends (workshop.serving request) request := by
  have idle : request.jobs = [] := by
    rw [opens.fresh]
    rfl
  exact ⟨rfl, root, fun node => opens.nodes.mem_iff.trans (closure node), opens.books, custody.sound,
    fun node member => ⟨_, custody.kept node member⟩, by simp [idle]⟩

end Store.Custody

namespace Workshop
variable {workshop after : Workshop} {surroundings : Surroundings} {roots : List Derivation} {request : Request}
  {events : List Event}

/-- What the surroundings settle of an event, whatever it does to the files of others:
    nothing is called off, and the runner replies and the store works as settled. -/
structure Heeds (surroundings : Surroundings) (workshop : Workshop) (event : Event) : Prop where
  uncancelled : ∀ id, event ≠ .cancel id
  replies : ∀ id fingerprint reply cancels, event = .reply id fingerprint reply cancels →
    reply = surroundings.answer fingerprint (workshop.callsFor fingerprint - 1) ∧ cancels = false
  preparing : ∀ id (request : Request), workshop.requests[id]? = some request → ∀ job ∈ request.jobs,
    event = .advance id job.fingerprint → job.place = .preparing →
      Store.failure? (workshop.store.prepare workshop.disk job.derivation).2 = surroundings.preparing job.fingerprint
  completing : ∀ id (request : Request), workshop.requests[id]? = some request → ∀ job ∈ request.jobs,
    event = .advance id job.fingerprint → ∀ outputs, job.place = .committing outputs →
      Store.failure? (Store.commit workshop.disk job.derivation outputs).2 = surroundings.completing job.fingerprint

theorem Foreseen.heeds {event : Event} (foreseen : workshop.Foreseen surroundings event) : workshop.Heeds surroundings event :=
  ⟨foreseen.uncancelled, foreseen.replies, foreseen.preparing, foreseen.completing⟩

theorem Along.mono {property other : Workshop → Event → Prop} (along : workshop.Along property events)
    (holds : ∀ workshop, ∀ event ∈ events, property workshop event → other workshop event) : workshop.Along other events := by
  induction events generalizing workshop with
  | nil => trivial
  | cons event rest ih =>
    refine ⟨holds workshop event (by simp) along.1, fun next steps => ih (along.2 next steps) fun workshop event member => ?_⟩
    exact holds workshop event (List.mem_cons_of_mem _ member)

theorem foreseen_of_tended {store : Store} {nodes : List Derivation} {start : Disk} {custody : store.Custody nodes start}
    (tends : custody.Tends workshop request) (confined : workshop.Along Confined events)
    (heeds : workshop.Along (Heeds surroundings) events) : workshop.Along (Foreseen surroundings) events := by
  induction events generalizing workshop request with
  | nil => trivial
  | cons event rest ih =>
    refine ⟨⟨?_, heeds.1.uncancelled, heeds.1.replies, heeds.1.preparing, heeds.1.completing, ?_⟩, fun next steps => ?_⟩
    · rintro roots cancelled rfl
      exact confined.1
    · intro next steps other among node member untouched
      rw [tends.lone] at among
      obtain rfl := List.mem_singleton.mp among
      rw [Bool.eq_iff_iff, tends.root]
      exact tends.undisturbed (step_serves steps) confined.1 ((tends.closure node).mp member) untouched
    · obtain ⟨⟨request', tends'⟩, _⟩ := tends.step (step_serves steps) confined.1
      exact ih tends' (confined.2 next steps) (heeds.2 next steps)

/-- Where the entries of derivations are separate and only phases that run change files, each
    in its own entry, nobody disturbs what the store holds: all is foreseen if the runner
    replies and the store works as settled. -/
theorem foreseen_of_confined (separate : workshop.store.Separate (ofRoots roots).nodes workshop.disk)
    (opens : request.Opens roots) (confined : (workshop.serving request).Along Confined events)
    (heeds : (workshop.serving request).Along (Heeds surroundings) events) :
    (workshop.serving request).Along (Foreseen surroundings) events := by
  obtain ⟨custody⟩ := separate.custody
  exact foreseen_of_tended (custody.tends_serving rfl opens fun _ => Iff.rfl) confined heeds

end Workshop

/-- A build in a store whose entries are separate, where only phases change files. -/
def Build.ofConfined {workshop after : Workshop} {surroundings : Surroundings} {roots : List Derivation}
    {request final : Request} {events : List Event}
    (separate : workshop.store.Separate (ofRoots roots).nodes workshop.disk) (opens : request.Opens roots)
    (uncancelled : request.cancelled = false) (confined : (workshop.serving request).Along Workshop.Confined events)
    (heeds : (workshop.serving request).Along (Workshop.Heeds surroundings) events)
    (ran : (workshop.serving request).run events = some after) (place : after.requests = [final])
    (ended : final.closed = true) : Build workshop surroundings roots where
  request := request
  events := events
  after := after
  final := final
  opens := opens
  uncancelled := uncancelled
  foreseen := Workshop.foreseen_of_confined separate opens confined heeds
  ran := ran
  place := place
  ended := ended

/-! ### A build that nobody disturbs -/

namespace Errand

/-- A file stands where the folder of the store should be. -/
private theorem not_folder {names : List String} {links : Nat} {base : Place} (single : names = ["s"])
    (leads : Disk.Leads disk.root Disk.linkLimit [] names links base) : ¬ Disk.FolderAt disk.root base := by
  have file : disk.root.at? ["s"] = some (.file [] .ordinary) := rfl
  have shows : disk.root.seen? ["s"] = some (.file [] .ordinary) := rfl
  intro folder
  cases leads with
  | stay => cases single
  | point => exact absurd (List.cons.inj single).1 (by decide)
  | up => exact absurd (List.cons.inj single).1 (by decide)
  | enter _ _ _ _ shown direct onwards =>
    obtain ⟨rfl, rfl⟩ := List.cons.inj single
    cases onwards
    obtain ⟨entries, there⟩ := Disk.folderAt_iff.mp folder
    cases file.symm.trans there
  | follow _ _ _ _ shown =>
    obtain ⟨rfl, rfl⟩ := List.cons.inj single
    cases shows.symm.trans shown

/-- Where no store can be, the entries of derivations are separate. -/
theorem separate_blocked : store.Separate (ofRoots [app]).nodes disk := by
  have way : Path.way store.root = ["s"] := by decide
  have names : Store.entryName app = "c3-app" ∧ Store.entryName lib = "a1-lib" ∧ Store.entryName tool = "b2-tool" := by
    decide +kernel
  have among {node : Derivation} (member : node ∈ (ofRoots [app]).nodes) : node = app ∨ node = lib ∨ node = tool := by
    have nodes : (ofRoots [app]).nodes = [app, lib, tool] := rfl
    simpa [nodes] using member
  refine ⟨⟨?_, ?_, ?_⟩, fun links base leads folder => absurd folder (not_folder way leads), ?_,
    fun links base leads folder => absurd folder (not_folder way leads)⟩
  · intro node member
    rcases among member with rfl | rfl | rfl
    · exact names.1 ▸ ⟨by decide, by decide, by decide, by decide⟩
    · exact names.2.1 ▸ ⟨by decide, by decide, by decide, by decide⟩
    · exact names.2.2 ▸ ⟨by decide, by decide, by decide, by decide⟩
  · intro node member output declared
    obtain rfl : output = "out" := by rcases among member with rfl | rfl | rfl <;> exact List.mem_singleton.mp declared
    exact ⟨⟨by decide, by decide, by decide, by decide⟩, by decide⟩
  · intro node member other member' same
    rcases among member with rfl | rfl | rfl <;> rcases among member' with rfl | rfl | rfl <;>
      first | rfl | simp [names] at same
  · intro before name after links base split _ _
    rw [way] at split
    obtain ⟨rfl, rest⟩ | ⟨more, rfl, nothing⟩ := List.cons_eq_append_iff.mp split
    · simp [(List.cons.inj rest).2]
    · simp at nothing

/-- What is remembered of one input does not matter, nor that the other cannot be made. -/
theorem exists_ofConfined : ∃ build : Build (shop [tool] asked) surroundings [app], build.events = course := by
  obtain ⟨path, message, foreseen, ran⟩ := runs_course
  have confined : (shop [tool] asked).Along Workshop.Confined course := by
    refine foreseen.mono fun workshop event member _ => ?_
    simp only [course, work, List.mem_cons, List.not_mem_nil, or_false] at member
    rcases member with rfl | rfl | rfl | rfl | rfl | rfl | rfl | rfl | rfl | rfl | rfl <;> trivial
  have heeds := foreseen.mono fun workshop event _ foreseen => foreseen.heeds
  exact ⟨.ofConfined separate_blocked opens_asked rfl confined heeds ran rfl rfl, rfl⟩

end Errand

end Pkgset

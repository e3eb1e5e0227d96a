import Pkgset.Proofs.Build.Calling

/-!
# How often a phase is tried again

The tries of a phase are counted in 32 bits, and their limit is one more than the configuration's number
of retries. The limit of the largest number wraps to zero, and no phase is tried again then: a workshop
with that number runs as one with none. With every other number, a phase that may be tried again is
tried until it succeeds, if it does within the limit, and the job goes on to the next phase.
-/

namespace Pkgset
open BuildReport BuildGraph

/-! ### The retries that are made -/

namespace BuildConfig

/-- The configuration with another number of retries. -/
def withRetries (config : BuildConfig) (retries : UInt32) : BuildConfig := { config with retryAttempts := retries }

/-- The number of retries that are made at most: none if the count of the tries has no room for them. -/
def retriesMade (config : BuildConfig) : UInt32 :=
  if config.retryAttempts.toNat = UInt32.size - 1 then 0 else config.retryAttempts

/-- The configuration with the number of retries that are made. -/
def heeded (config : BuildConfig) : BuildConfig := config.withRetries config.retriesMade

variable {config : BuildConfig}

theorem heeded_of_ne (room : config.retryAttempts.toNat ≠ UInt32.size - 1) : config.heeded = config := by
  rw [heeded, retriesMade, if_neg room]
  rfl

theorem heeded_bound (config : BuildConfig) : config.heeded.retryAttempts.toNat < UInt32.size - 1 := by
  change config.retriesMade.toNat < _
  unfold retriesMade
  split
  next => decide
  next room =>
    have := config.retryAttempts.toNat_lt
    simp only [UInt32.size] at room ⊢
    omega

/-- Another number of retries makes no difference to the tries of a phase. -/
def CountsAlike (config : BuildConfig) (retries : UInt32) : Prop :=
  ∀ phase number, number ≠ 0 → (number < Job.tries (config.withRetries retries) phase ↔ number < Job.tries config phase)

theorem countsAlike_retriesMade (config : BuildConfig) : config.CountsAlike config.retriesMade := by
  intro phase number counted
  by_cases most : config.retryAttempts.toNat = UInt32.size - 1
  · have wrapped : 1 + config.retryAttempts = 0 := by
      have : config.retryAttempts = .ofNat (UInt32.size - 1) := UInt32.toNat_inj.mp (most.trans (by decide))
      rw [this]
      rfl
    have none : (config.withRetries config.retriesMade).retryAttempts = 0 := if_pos most
    have first : ¬ number < 1 := by
      have : number.toNat ≠ 0 := fun zero => counted (UInt32.toNat_inj.mp zero)
      rw [UInt32.lt_iff_toNat_lt, UInt32.toNat_one]
      omega
    unfold Job.tries
    rw [none, wrapped]
    split <;> simp_all
  · have same : config.withRetries config.retriesMade = config := heeded_of_ne most
    rw [same]

end BuildConfig

/-! ### The numbers of tries -/

/-- Whether the runner replies. -/
def Event.isReply : Event → Bool
  | .reply _ _ _ _ => true
  | _ => false

/-- The tries of a phase are numbered from one on. -/
def JobPlace.IsCounted : JobPlace → Prop
  | .calling _ attempt _ | .running _ attempt _ => attempt.number ≠ 0
  | _ => True

namespace Workshop
variable {workshop next after : Workshop} {event : Event} {events : List Event}

/-- All jobs number their tries from one on. -/
def Counted (workshop : Workshop) : Prop := ∀ request ∈ workshop.requests, ∀ job ∈ request.jobs, job.place.IsCounted

theorem isCounted_advance (workshop : Workshop) (id : RequestId) (request : Request) {job : Job}
    (counted : job.place.IsCounted) : (workshop.advance id request job).2.place.IsCounted := by
  fun_cases Workshop.advance workshop id request job with
  | case10 waits place =>
    unfold Workshop.prepare
    split <;> trivial
  | case11 waits outputs rest place =>
    fun_cases Job.proceed workshop.config job outputs rest with
    | case3 => exact (by decide : (1 : UInt32) ≠ 0)
    | _ => trivial
  | case12 waits outputs attempt rest place =>
    rw [place] at counted
    exact counted
  | case14 waits outputs place =>
    unfold Workshop.commit
    split <;> trivial
  | _ => trivial

/-- A number below the limit is not the last one that there is, so the next is not zero. -/
theorem isCounted_replied (config : BuildConfig) (job : Job) (outputs : Outputs) (attempt : Attempt) (rest : List Phase)
    (reply : Reply) : (replied config job outputs attempt rest reply).place.IsCounted := by
  cases reply with
  | exit status =>
    rw [replied, Job.exited]
    split
    next => trivial
    next =>
      split
      next again =>
        change attempt.number + 1 ≠ 0
        rw [UInt32.lt_iff_toNat_lt] at again
        have := (Job.tries config attempt.phase).toNat_lt
        intro zero
        have zero : (attempt.number + 1).toNat = 0 := congrArg UInt32.toNat zero
        rw [UInt32.toNat_add, UInt32.toNat_one, Nat.mod_eq_of_lt (by omega)] at zero
        omega
      next => trivial
  | error error => trivial
  | crash => trivial

private theorem isCounted_updateJob {request : Request} {job moved : Job} (cancelled : Bool)
    (counted : ∀ job ∈ request.jobs, job.place.IsCounted) (counts : moved.place.IsCounted) :
    ∀ other ∈ ({ request with cancelled }.updateJob job.fingerprint fun _ => moved).jobs, other.place.IsCounted := by
  intro other member
  rcases jobs_updateJob cancelled member with rfl | ⟨old, _⟩
  · exact counts
  · exact counted other old

theorem Undergoes.isCounted {id : RequestId} {request request' : Request}
    (undergoes : workshop.Undergoes id request event request') (books : request.Books [])
    (counted : ∀ job ∈ request.jobs, job.place.IsCounted) : ∀ job ∈ request'.jobs, job.place.IsCounted := by
  cases undergoes with
  | visit visits =>
    obtain ⟨_, _, _, _, _, _, ⟨_, rfl⟩ | ⟨_, rfl⟩⟩ := Request.visit_cases books visits
    all_goals exact counted
  | @look derivation looking =>
    intro job member
    cases found : (workshop.fetch derivation).2 with
    | some outputs =>
      obtain ⟨waiting, ready, shape⟩ := Request.succeed_eq { request with looking := none } derivation ⟨outputs, true⟩
      rw [found, Request.looked, shape] at member
      exact counted job member
    | none =>
      rw [found] at member
      rcases List.mem_append.mp member with old | new
      · exact counted job old
      · rw [List.mem_singleton.mp new]
        trivial
  | @advance job member =>
    exact isCounted_updateJob request.cancelled counted
      (isCounted_advance workshop id request (counted job (List.mem_of_find?_eq_some member)))
  | @reply job outputs attempt rest reply cancels member running open' =>
    exact isCounted_updateJob cancels counted (isCounted_replied ..)
  | join joins =>
    obtain ⟨joined, result, _, _, _, _, _, rfl⟩ := Request.join_cases joins
    intro job member
    rw [jobs_conclude] at member
    exact counted job (List.mem_of_mem_filter member)
  | close closes =>
    obtain ⟨_, _, later, rfl, _⟩ := Request.Books.close_cases closes
    exact counted
  | cancel => exact counted

theorem Counted.serves (counted : workshop.Counted) (books : ∀ request ∈ workshop.requests, request.Books [])
    (serves : workshop.Serves event next) : next.Counted := by
  intro request member
  obtain ⟨id, at'⟩ := List.mem_iff_getElem?.mp member
  rcases serves.origin at' with ⟨roots, opens⟩ | ⟨before, was, rfl | undergoes⟩
  · rw [opens.fresh]
    exact fun job absent => absurd absent List.not_mem_nil
  · exact counted request (List.mem_of_getElem? was)
  · have present := List.mem_of_getElem? was
    exact undergoes.isCounted (books before present) (counted before present)

theorem Counted.opens (opens : ∀ request ∈ workshop.requests, ∃ roots, request.Opens roots) : workshop.Counted := by
  intro request member job within
  obtain ⟨roots, opens⟩ := opens request member
  rw [opens.fresh] at within
  cases within

theorem Counted.run (counted : workshop.Counted) (guarded : workshop.Guarded) (ran : workshop.run events = some after) :
    after.Counted := by
  induction events generalizing workshop with
  | nil =>
    cases ran
    exact counted
  | cons event rest ih =>
    obtain ⟨next, steps, onwards⟩ := run_cons ran
    have serves := step_serves steps
    exact ih (counted.serves guarded.books serves) (guarded.step serves) onwards

/-! ### Another number of retries -/

/-- The workshop with another number of retries. -/
def withRetries (workshop : Workshop) (retries : UInt32) : Workshop :=
  { workshop with config := workshop.config.withRetries retries }

theorem advance_withRetries (workshop : Workshop) (retries : UInt32) (id : RequestId) (request : Request) (job : Job) :
    (workshop.withRetries retries).advance id request job =
      ((workshop.advance id request job).1.withRetries retries, (workshop.advance id request job).2) := by
  have permits : (workshop.withRetries retries).permits = workshop.permits := rfl
  have claims : (workshop.withRetries retries).claims = workshop.claims := rfl
  unfold Workshop.advance
  cases request.cancelled && job.place.heedsCancel with
  | true => rfl
  | false =>
    cases job.place with
    | queued =>
      simp only [permits, Bool.false_eq_true, ↓reduceIte]
      split <;> rfl
    | admitted =>
      simp only [claims, Bool.false_eq_true, ↓reduceIte]
      split <;> rfl
    | claimed =>
      simp only [Bool.false_eq_true, ↓reduceIte]
      split <;> rfl
    | looking =>
      have fetch : (workshop.withRetries retries).fetch job.derivation =
        ((workshop.fetch job.derivation).1.withRetries retries, (workshop.fetch job.derivation).2) := rfl
      simp only [fetch, Bool.false_eq_true, ↓reduceIte]
      obtain ⟨looked, found⟩ := workshop.fetch job.derivation
      cases found <;> rfl
    | preparing =>
      have prepare : (workshop.withRetries retries).store.prepare (workshop.withRetries retries).disk job.derivation =
        workshop.store.prepare workshop.disk job.derivation := rfl
      simp only [Workshop.prepare, prepare, Bool.false_eq_true, ↓reduceIte]
      obtain ⟨disk, made⟩ := workshop.store.prepare workshop.disk job.derivation
      cases made <;> rfl
    | between outputs rest => cases rest <;> rfl
    | committing outputs =>
      have disk : (workshop.withRetries retries).disk = workshop.disk := rfl
      simp only [Workshop.commit, disk, Bool.false_eq_true, ↓reduceIte]
      obtain ⟨disk, done⟩ := Store.commit workshop.disk job.derivation outputs
      cases done <;> rfl
    | _ => rfl

/-- The job takes a reply alike, if the number of retries makes no difference to it. -/
theorem replied_withRetries {config : BuildConfig} {retries : UInt32} {attempt : Attempt}
    (alike : attempt.number < Job.tries (config.withRetries retries) attempt.phase ↔
      attempt.number < Job.tries config attempt.phase)
    (job : Job) (outputs : Outputs) (rest : List Phase) (reply : Reply) :
    replied (config.withRetries retries) job outputs attempt rest reply =
      replied config job outputs attempt rest reply := by
  cases reply with
  | exit status => simp only [replied, Job.exited, alike]
  | error error => rfl
  | crash => rfl

/-- What follows on a request is alike if it is so for the request that is there. -/
private theorem bind_alike {found : Option Request} {follows follows' : Request → Option Workshop} {retries : UInt32}
    (alike : ∀ request, found = some request → follows' request = (follows request).map (·.withRetries retries)) :
    found.bind follows' = (found.bind follows).map (·.withRetries retries) := by
  cases found with
  | none => rfl
  | some request => exact alike request rfl

/-- The number of retries makes no difference to an event, but for the reply to a try. -/
theorem step_withRetries (retries : UInt32) (event : Event)
    (alike : ∀ request ∈ workshop.requests, ∀ job ∈ request.jobs, ∀ outputs attempt rest,
      job.place = .running outputs attempt rest → event.isReply = true →
      (attempt.number < Job.tries (workshop.config.withRetries retries) attempt.phase ↔
        attempt.number < Job.tries workshop.config attempt.phase)) :
    (workshop.withRetries retries).step event = (workshop.step event).map (·.withRetries retries) := by
  cases event with
  | request roots cancelled =>
    simp only [step]
    cases (Request.new roots cancelled).toOption <;> rfl
  | visit id =>
    refine bind_alike fun request _ => ?_
    cases request.visit <;> rfl
  | look id =>
    refine bind_alike fun request _ => ?_
    cases request.looking <;> rfl
  | advance id fingerprint =>
    refine bind_alike fun request _ => ?_
    cases request.jobs.find? (·.fingerprint = fingerprint) with
    | none => rfl
    | some job =>
      simp only [Option.bind_eq_bind, Option.bind_some, advance_withRetries]
      rfl
  | reply id fingerprint reply cancels =>
    refine bind_alike fun request at' => ?_
    cases member : request.jobs.find? (·.fingerprint = fingerprint) with
    | none => rfl
    | some job =>
      simp only [Option.bind_eq_bind, Option.bind_some]
      split
      next outputs attempt rest running open' =>
        have same := alike request (List.mem_of_getElem? at') job (List.mem_of_find?_eq_some member) outputs attempt
          rest running rfl
        have config : (workshop.withRetries retries).config = workshop.config.withRetries retries := rfl
        simp only [config, replied_withRetries same]
        rfl
      next => rfl
  | join id fingerprint =>
    refine bind_alike fun request _ => ?_
    have joins : request.join (workshop.withRetries retries).config fingerprint =
      request.join workshop.config fingerprint := rfl
    simp only [Option.bind_eq_bind, joins]
    cases request.join workshop.config fingerprint <;> rfl
  | close id =>
    refine bind_alike fun request _ => ?_
    cases request.close <;> rfl
  | cancel id => exact bind_alike fun request _ => rfl
  | write disk => rfl

/-- A run with another number of retries, which makes no difference to the replies in it. -/
theorem run_withRetries (retries : UInt32) (guarded : workshop.Guarded) (counted : workshop.Counted)
    (alike : ∀ event ∈ events, event.isReply = true → workshop.config.CountsAlike retries) :
    (workshop.withRetries retries).run events = (workshop.run events).map (·.withRetries retries) := by
  induction events generalizing workshop with
  | nil => rfl
  | cons event rest ih =>
    have first : (workshop.withRetries retries).step event = (workshop.step event).map (·.withRetries retries) := by
      refine step_withRetries retries event fun request member job within outputs attempt rest running replies => ?_
      have counts := counted request member job within
      rw [running] at counts
      exact alike event (by simp) replies attempt.phase attempt.number counts
    rw [run, run, List.foldlM_cons, List.foldlM_cons, first]
    cases steps : workshop.step event with
    | none => rfl
    | some next =>
      have serves := step_serves steps
      refine ih (guarded.step serves) (counted.serves guarded.books serves) fun other member replies => ?_
      rw [serves.config]
      exact alike other (List.mem_cons_of_mem _ member) replies

/-- The workshop with the number of retries that are made. -/
def heeding (workshop : Workshop) : Workshop := workshop.withRetries workshop.config.retriesMade

theorem run_heeding (guarded : workshop.Guarded) (counted : workshop.Counted) (ran : workshop.run events = some after) :
    workshop.heeding.run events = some after.heeding := by
  rw [heeding, run_withRetries _ guarded counted fun _ _ _ => workshop.config.countsAlike_retriesMade, ran,
    Option.map_some, heeding, run_config ran]

/-- What a workshop does with the retries that are made, it does. -/
theorem run_of_heeding (guarded : workshop.Guarded) (counted : workshop.Counted) {last : Workshop}
    (ran : workshop.heeding.run events = some last) :
    ∃ after, workshop.run events = some after ∧ after.requests = last.requests ∧ after.calls = last.calls := by
  rw [heeding, run_withRetries _ guarded counted fun _ _ _ => workshop.config.countsAlike_retriesMade] at ran
  obtain ⟨after, ran', rfl⟩ := Option.map_eq_some_iff.mp ran
  exact ⟨after, ran', rfl, rfl⟩

end Workshop

/-! ### Calls after calls -/

theorem Answered.of_prefix {answer : List Exchange → Attempt → Reply} {log whole : List Exchange} (part : log <+: whole)
    (answered : Answered answer whole) : Answered answer log :=
  fun before attempt reply within => answered before attempt reply (within.trans part)

/-- A runner that looks at nothing but the try. -/
theorem Answered.of_forall {reply : Attempt → Reply} {log : List Exchange}
    (each : ∀ exchange ∈ log, exchange.2 = reply exchange.1) : Answered (fun _ => reply) log := by
  intro before attempt given within
  exact each (attempt, given) (within.subset (by simp))

namespace Job
variable {config : BuildConfig} {node : Derivation}

/-- Calls that go through some phases begin with those that passed the first of them. -/
theorem Performs.drop {before rest : List Phase} {passed full : List Exchange} {ending : Option BuildError}
    (performs : Performs config node before passed none) (whole : Performs config node (before ++ rest) full ending)
    (agree : Agree passed full) : ∃ more, full = passed ++ more ∧ Performs config node rest more ending := by
  generalize none' : (none : Option BuildError) = onwards at performs
  induction performs generalizing full with
  | done => exact ⟨full, rfl, whole⟩
  | skip left earlier ih =>
    cases whole with
    | skip _ onwards => exact ih onwards agree none'
    | pass kept => exact absurd left kept
    | stop kept => exact absurd left kept
  | pass kept tries earlier ih =>
    cases whole with
    | skip left => exact absurd left kept
    | pass _ tries' onwards =>
      obtain ⟨rfl, _⟩ := tries.unique tries' agree
      obtain ⟨more, rfl, performs⟩ := ih onwards (agree.drop _) none'
      exact ⟨more, (List.append_assoc ..).symm, performs⟩
    | @stop _ _ log error _ tries' =>
      rw [← List.append_nil full] at agree
      cases (tries.unique tries' agree).2
  | stop kept tries => cases none'

/-- The limit of the tries is one more than the retries, but for the largest number of these. -/
theorem toNat_tries_of_retryable {phase : Phase} (retryable : phase.retryable = true) (config : BuildConfig) :
    (tries config phase).toNat =
      if config.retryAttempts.toNat = UInt32.size - 1 then 0 else 1 + config.retryAttempts.toNat := by
  have small := config.retryAttempts.toNat_lt
  simp only [tries, retryable, ↓reduceIte, UInt32.toNat_add, UInt32.toNat_one, UInt32.size]
  split <;> omega

/-- What becomes of a phase that may be tried again, by the number of its retries. -/
theorem Performs.retries {phase : Phase} {before rest : List Phase} {passed full : List Exchange}
    {codes : List (Option Int)} {ending : Option BuildError} {answer : List Exchange → Attempt → Reply}
    (performs : Performs config.heeded node before passed none)
    (whole : Performs config.heeded node (before ++ phase :: rest) full ending) (retryable : phase.retryable = true)
    (kept : ¬ LeavesOut config node phase) (failed : ∀ code ∈ codes, code ≠ some 0)
    (few : codes.length ≤ config.retryAttempts.toNat) (answeredFull : Answered answer full)
    (answered : Answered answer (passed ++ (failures phase 0 codes ++ [(.after phase codes.length, .exit .success)]))) :
    (config.retryAttempts.toNat < UInt32.size - 1 ∨ codes = [] →
      ∃ more, full = passed ++ (failures phase 0 codes ++ [(.after phase codes.length, .exit .success)]) ++ more ∧
        Performs config.heeded node rest more ending) ∧
    (config.retryAttempts.toNat = UInt32.size - 1 → ∀ code others, codes = code :: others →
      full = passed ++ [(.after phase 0, .exit ⟨code⟩)] ∧ ending = some (.phaseFailure node.name phase.name code)) := by
  have most : limit config.heeded phase = 1 + config.retriesMade.toNat := if_pos retryable
  constructor
  · intro within
    have fewer : codes.length < limit config.heeded phase := by
      rcases within with room | rfl
      · have made : config.retriesMade = config.retryAttempts := if_neg room.ne
        rw [most, made]
        omega
      · exact limit_pos _ phase
    have first := performs.append (.pass kept (.intro failed fewer .success) .done)
    rw [List.append_nil] at first
    rw [List.append_cons] at whole
    exact first.drop whole (answered.agree answeredFull)
  · rintro largest code others rfl
    have made : config.retriesMade = 0 := if_pos largest
    rw [made, UInt32.toNat_zero] at most
    -- the first failure is the last try
    have fails : Closes config.heeded node phase ([] : List (Option Int)).length (.exit ⟨code⟩)
        (some (.phaseFailure node.name phase.name code)) := .exhausted (failed code (by simp)) most.symm
    have only : Tries config.heeded node phase _ _ :=
      .intro (fun _ absent => absurd absent List.not_mem_nil) (limit_pos config.heeded phase) fails
    have ends : Performs config.heeded node (before ++ phase :: rest) (passed ++ [(.after phase 0, .exit ⟨code⟩)]) _ :=
      performs.append (.stop kept only)
    have answeredFirst : Answered answer (passed ++ [(.after phase 0, .exit ⟨code⟩)]) :=
      answered.of_prefix
        ⟨failures phase 1 others ++ [(.after phase (others.length + 1), .exit .success)], by simp [failures]⟩
    exact whole.unique ends (answeredFull.agree answeredFirst)

/-- Where a job is that has made all the calls for its phases: past them, or over with the error of the
    one that failed. -/
inductive Past : Option BuildError → JobPlace → Prop
  | through {place : JobPlace} (through : place.IsThrough) : Past none place
  | failed (error : BuildError) : Past (some error) (.finished (.error error))

theorem Stands.past {place : JobPlace} {log : List Exchange} {pending : Option Attempt}
    (stands : Stands config node true place log pending) (away : place.isAtPhases = false) :
    pending = none ∧ ∃ ending, Performs config node node.phases log ending ∧ Past ending place := by
  cases stands with
  | idle unbegun idle => cases unbegun
  | passed through performs => exact ⟨rfl, _, performs, .through through⟩
  | failed performs => exact ⟨rfl, _, performs, .failed _⟩
  | _ => cases away

end Job

namespace Workshop
variable {workshop : Workshop} {seen : List Event} {id : RequestId} {fingerprint : Fingerprint} {request : Request}
  {log : List Exchange} {pending : Option Attempt}

/-- The job for a derivation gets by its own moves, if it has some left, to where it has made all these
    calls and has got these replies. -/
def Finishes (workshop : Workshop) (seen : List Event) (id : RequestId) (fingerprint : Fingerprint)
    (full : List Exchange) (ending : Option BuildError) : Prop :=
  ∃ moves last final, (∀ event ∈ moves, event.works id fingerprint = true) ∧ workshop.run moves = some last ∧
    last.requests[id]? = some final ∧ last.attemptsOf id fingerprint = full.map Prod.fst ∧
    repliesTo id fingerprint (seen ++ moves) = full.map Prod.snd ∧
    ∀ ended ∈ final.jobs, ended.fingerprint = fingerprint → Job.Past ending ended.place

theorem IsEnd.past {ending : Option BuildError} {place : JobPlace} (isEnd : IsEnd ending place) :
    Job.Past ending place := by
  cases isEnd with
  | passed outputs => exact .through (.committing outputs)
  | failed error => exact .failed error

/-- A runner that gave the replies so far leads a job that has begun with its phases to the end of them. -/
theorem Tracks.exists_finishes {answer : List Exchange → Attempt → Reply} {node : Derivation}
    (tracks : workshop.Tracks seen true id fingerprint log pending) (guarded : workshop.Guarded)
    (bound : workshop.config.retryAttempts.toNat < UInt32.size - 1) (at' : workshop.requests[id]? = some request)
    (open' : request.cancelled = false) (known : request.graph.find? fingerprint = some node)
    (answered : Answered answer log) :
    ∃ full ending, Job.Performs workshop.config node node.phases full ending ∧ Answered answer full ∧
      workshop.Finishes seen id fingerprint full ending := by
  have books := guarded.books request (List.mem_of_getElem? at')
  by_cases going : ∃ job ∈ request.jobs, job.fingerprint = fingerprint ∧ job.place.isAtPhases = true
  · obtain ⟨full, ending, performs, answeredFull, _, finishes⟩ := tracks.finishes guarded bound at' open' known answered
    obtain ⟨job, within, same, atPhases⟩ := going
    obtain ⟨moves, last, final, ended, own, ran, atLast, present, its, calls, replies, isEnd⟩ :=
      finishes job within same atPhases
    refine ⟨full, ending, performs, answeredFull, moves, last, final, own, ran, atLast, calls, replies,
      fun other member alike => ?_⟩
    have booksLast := (guarded.run ran).books final (List.mem_of_getElem? atLast)
    obtain rfl := booksLast.job_eq present member (its.trans alike.symm)
    exact isEnd.past
  · -- a job that is past its phases has made all its calls, as one that was collected has
    have done : pending = none ∧ ∃ ending, Job.Performs workshop.config node node.phases log ending ∧
        ∀ ended ∈ request.jobs, ended.fingerprint = fingerprint → Job.Past ending ended.place := by
      by_cases any : ∃ job ∈ request.jobs, job.fingerprint = fingerprint
      · obtain ⟨job, within, same⟩ := any
        have away : job.place.isAtPhases = false := by
          by_contra atPhases
          exact going ⟨job, within, same, by simpa using atPhases⟩
        obtain ⟨none, ending, performs, past⟩ := (tracks.stands books at' known within same).past away
        refine ⟨none, ending, performs, fun ended member alike => ?_⟩
        exact books.job_eq within member (same.trans alike.symm) ▸ past
      · obtain ⟨none, ending, performs⟩ := tracks.collected at' known fun job within same => any ⟨job, within, same⟩
        exact ⟨none, ending, performs, fun ended member alike => absurd ⟨ended, member, alike⟩ any⟩
    obtain ⟨rfl, ending, performs, past⟩ := done
    have calls := tracks.calls
    rw [Option.toList_none, List.append_nil] at calls
    refine ⟨log, ending, performs, answered, [], workshop, request, by simp, rfl, at', calls, ?_, past⟩
    rw [List.append_nil, tracks.replies]

/-- What finishes with the retries that are made, finishes. -/
theorem Finishes.of_heeding {full : List Exchange} {ending : Option BuildError} (guarded : workshop.Guarded)
    (counted : workshop.Counted) (finishes : workshop.heeding.Finishes seen id fingerprint full ending) :
    workshop.Finishes seen id fingerprint full ending := by
  obtain ⟨moves, last, final, own, ran, atLast, calls, replies, past⟩ := finishes
  obtain ⟨after, ran, requests, same⟩ := run_of_heeding guarded counted ran
  refine ⟨moves, after, final, own, ran, requests ▸ atLast, ?_, replies, past⟩
  rwa [attemptsOf, callsOf, same]

/-- Whatever requests and jobs did before, and whatever happens afterwards, take a job that is about to
    come to a phase that may be tried again, and a runner that lets the phase fail some times, not more
    often than the configuration has retries, and succeed then. The phases before were passed. If the
    number of retries is less than the largest one, or the phase does not fail, it is called once more
    often than it fails, the last time with success, and the calls after these are those for the phases
    after it. With the largest number of retries the limit of the tries has wrapped to zero: the first
    failure is the last call, and the job is over with it. What the job still has to call, it calls by its
    own moves. -/
theorem run_retries {start mid after : Workshop} {earlier later : List Event} {id : RequestId} {request now : Request}
    {job : Job} {outputs : Outputs} {phase : Phase} {rest : List Phase}
    (opens : ∀ request ∈ start.requests, ∃ roots, request.Opens roots) (uncalled : start.calls = [])
    (came : start.run earlier = some mid) (at' : mid.requests[id]? = some request) (member : job ∈ request.jobs)
    (prepared : job.place = .between outputs (phase :: rest)) (retryable : phase.retryable = true)
    (kept : ¬ Job.LeavesOut start.config job.derivation phase) (ran : mid.run later = some after)
    (atNow : after.requests[id]? = some now) (uncancelled : now.cancelled = false) :
    (Job.tries start.config phase).toNat =
      (if start.config.retryAttempts.toNat = UInt32.size - 1 then 0 else 1 + start.config.retryAttempts.toNat) ∧
    ∃ before passed log, ∃ pending : Option Attempt,
      job.derivation.phases = before ++ phase :: rest ∧
      Job.Performs start.config.heeded job.derivation before passed none ∧
      mid.attemptsOf id job.fingerprint = passed.map Prod.fst ∧
      repliesTo id job.fingerprint earlier = passed.map Prod.snd ∧
      after.attemptsOf id job.fingerprint = log.map Prod.fst ++ pending.toList ∧
      repliesTo id job.fingerprint (earlier ++ later) = log.map Prod.snd ∧
      ∀ answer codes, Answered answer log → (∀ code ∈ codes, code ≠ some 0) →
        codes.length ≤ start.config.retryAttempts.toNat →
        Answered answer (passed ++ (failures phase 0 codes ++ [(.after phase codes.length, .exit .success)])) →
        ∃ full ending, Answered answer full ∧ after.attemptsOf id job.fingerprint <+: full.map Prod.fst ∧
          after.Finishes (earlier ++ later) id job.fingerprint full ending ∧
          (start.config.retryAttempts.toNat < UInt32.size - 1 ∨ codes = [] →
            ∃ more, full = passed ++ (failures phase 0 codes ++ [(.after phase codes.length, .exit .success)]) ++ more ∧
              Job.Performs start.config.heeded job.derivation rest more ending) ∧
          (start.config.retryAttempts.toNat = UInt32.size - 1 → ∀ code others, codes = code :: others →
            full = passed ++ [(.after phase 0, .exit ⟨code⟩)] ∧
              ending = some (.phaseFailure job.derivation.name phase.name code)) := by
  have guardedStart : start.Guarded := .opens opens
  have countedStart : start.Counted := .opens opens
  have guardedMid := guardedStart.run came
  have countedMid := countedStart.run guardedStart came
  have guardedAfter := guardedMid.run ran
  have countedAfter := countedMid.run guardedMid ran
  -- the same runs with the retries that are made, where the tries are counted without overflow
  have cameHeeding := run_heeding guardedStart countedStart came
  have ranHeeding := run_heeding guardedMid countedMid ran
  have opening : start.heeding.Guarded := .opens opens
  have bound : start.heeding.config.retryAttempts.toNat < UInt32.size - 1 := start.config.heeded_bound
  have midGuarded := opening.run cameHeeding
  have configMid : mid.heeding.config = start.config.heeded := run_config cameHeeding
  have configAfter : after.heeding.config = start.config.heeded := (run_config ranHeeding).trans configMid
  have openNow (found : Request) (atFound : after.heeding.requests[id]? = some found) : found.cancelled = false := by
    obtain rfl : now = found := Option.some.inj (atNow.symm.trans atFound)
    exact uncancelled
  have openMid (found : Request) (atFound : mid.heeding.requests[id]? = some found) : found.cancelled = false :=
    uncancelled_of_run midGuarded atFound ranHeeding openNow
  have begun : start.heeding.Tracks [] false id job.fingerprint [] none := .start opens uncalled
  obtain ⟨passed, pending₀, tracksMid⟩ := begun.run opening bound cameHeeding openMid
  have books := guardedMid.books request (List.mem_of_getElem? at')
  have stands := tracksMid.follows.stands books at' member
  rw [prepared] at stands
  obtain ⟨rfl, before, split, performs⟩ := stands.of_between
  have begins : mid.heeding.Tracks earlier true id job.fingerprint passed none :=
    ⟨tracksMid.calls, tracksMid.replies, .job at' member rfl (prepared ▸ .between split performs)⟩
  obtain ⟨log, pending, tracks⟩ := begins.run midGuarded (configMid ▸ bound) ranHeeding openNow
  have known := find?_of_run guardedMid.books at' member ran atNow
  rw [configMid] at performs
  have calls : mid.attemptsOf id job.fingerprint = passed.map Prod.fst := begins.calls.trans (List.append_nil _)
  refine ⟨Job.toNat_tries_of_retryable retryable _, before, passed, log, pending, split, performs, calls,
    begins.replies, tracks.calls, tracks.replies, fun answer codes answeredLog failed few answered => ?_⟩
  obtain ⟨full, ending, whole, answeredFull, finishes⟩ :=
    tracks.exists_finishes (midGuarded.run ranHeeding) (configAfter ▸ bound) atNow uncancelled known answeredLog
  rw [configAfter, split] at whole
  have finishes := finishes.of_heeding guardedAfter countedAfter
  refine ⟨full, ending, answeredFull, ?_, finishes,
    Job.Performs.retries performs whole retryable kept failed few answeredFull answered⟩
  obtain ⟨moves, last, final, _, onwards, _, calls, _⟩ := finishes
  exact calls ▸ attemptsOf_run onwards

end Workshop

/-! ### A phase that fails once, with many retries -/

namespace Errand

/-- Variables that ask for the largest number of retries. -/
def tireless : Variables :=
  ⟨[("PKGFIX_CHECK", Bytes.ofText "never"), ("PKGFIX_RETRIES", Bytes.ofText "4294967295"),
    ("PKGFIX_STORE", Bytes.ofText "/")]⟩

/-- A runner that lets the first try of a phase fail. -/
def yielding (_ : List Exchange) (attempt : Attempt) : Reply :=
  if attempt.number = 1 then .exit (.ofCode 2) else .exit .success

/-- A workshop with some number of retries, at the start of its request. -/
def persistent (retries : UInt32) : Workshop := (smithy (ground none) [] desired).withRetries retries

/-- The workshop when the entry is made. -/
def readied (retries : UInt32) : Workshop :=
  (smithy begunDisk [] (occupied (.between place phased.phases))).withRetries retries

theorem opens_persistent (retries : UInt32) :
    ∀ request ∈ (persistent retries).requests, ∃ roots, request.Opens roots := by
  intro request member
  obtain rfl := List.mem_singleton.mp member
  exact ⟨[phased], opens_desired⟩

theorem runs_readied (retries : UInt32) : (persistent retries).run outset = some (readied retries) := by
  have opens : ∀ request ∈ (smithy (ground none) [] desired).requests, ∃ roots, request.Opens roots :=
    opens_persistent 1
  have quiet : ∀ event ∈ outset, event.isReply = false := by decide
  rw [persistent, Workshop.run_withRetries retries (.opens opens) (.opens opens) fun event member replies =>
    absurd replies (by simp [quiet event member]), runs_outset]
  rfl

end Errand

open Errand in
/-- With the largest number of retries, which the variables may give, a phase that fails once fails its
    job. -/
theorem Workshop.retries_wrap : ∃ config mid after,
    BuildConfig.fromVariables 2 tireless = .ok config ∧ config.retryAttempts.toNat = UInt32.size - 1 ∧
      (⟨config, ground none, .empty, [], [desired]⟩ : Workshop).run outset = some mid ∧
      mid.requests = [occupied (.between place phased.phases)] ∧ phased.phases.head? = some crafting ∧
      crafting.retryable = true ∧
      mid.run [work, work, .reply 0 phased.fingerprint (.exit (.ofCode 2)) false] = some after ∧
      after.attemptsOf 0 phased.fingerprint = [.after crafting 0] ∧
      after.requests = [occupied (.finished (.error (.phaseFailure phased.name crafting.name (some 2))))] :=
  ⟨⟨2, .never, 4294967295, true, "/", none⟩, readied 4294967295,
    (smithy begunDisk [⟨0, phased, ⟨crafting, 1⟩, place, []⟩]
      (occupied (.finished (.error (.phaseFailure phased.name crafting.name (some 2)))))).withRetries 4294967295,
    by decide +kernel, rfl, runs_readied 4294967295, rfl, rfl, rfl, rfl, rfl, rfl⟩

open Errand in
/-- With one retry less, the phase is called twice, and the job goes on. -/
theorem Workshop.run_retries_errand : ∃ full more ending,
    (persistent 4294967294).run outset = some (readied 4294967294) ∧
      (readied 4294967294).Finishes outset 0 phased.fingerprint full ending ∧
      full = [(.after crafting 0, .exit (.ofCode 2)), (.after crafting 1, .exit .success)] ++ more ∧
      Job.Performs (persistent 4294967294).config phased [probing, placing] more ending := by
  have kept : ¬ Job.LeavesOut (persistent 4294967294).config phased crafting := by
    rintro ⟨check, _⟩
    cases check
  have at' : (readied 4294967294).requests[0]? = some (occupied (.between place phased.phases)) := rfl
  have stays : (readied 4294967294).run [] = some (readied 4294967294) := rfl
  obtain ⟨_, before, passed, log, pending, split, performs, called, _, calls, _, leads⟩ :=
    Workshop.run_retries (opens_persistent 4294967294) rfl (runs_readied 4294967294) at' (List.mem_singleton_self _) rfl
      rfl kept stays at' rfl
  -- nothing was called before
  obtain rfl : passed = [] := List.map_eq_nil_iff.mp called.symm
  obtain rfl : log = [] := List.map_eq_nil_iff.mp (List.append_eq_nil_iff.mp calls.symm).1
  obtain ⟨full, ending, _, _, finishes, passes, _⟩ :=
    leads yielding [some 2] (.of_forall (by simp)) (by decide) (by decide) (.of_forall (by decide))
  obtain ⟨more, rfl, onwards⟩ := passes (.inl (by decide))
  rw [BuildConfig.heeded_of_ne (by decide)] at onwards
  exact ⟨_, more, ending, runs_readied 4294967294, finishes, rfl, onwards⟩

end Pkgset

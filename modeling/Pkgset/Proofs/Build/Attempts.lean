import Pkgset.Proofs.Build.Causes
import Pkgset.Proofs.Build.Performance

/-!
# The calls of a job

The place of a job tells how far it has come with the calls for its phases: which phases
it has passed, how often it has tried the one it is at, and how it ended. Every move of
the job and every reply to it keeps that so, and at its phases brings it nearer to where
it has passed them all or failed.
-/

namespace Pkgset
open BuildReport BuildGraph

namespace JobPlace

/-- Whether a job has not made its entry yet. -/
def isBeforehand : JobPlace → Bool
  | .queued | .admitted | .claimed | .looking | .preparing => true
  | _ => false

/-- Whether a job is at its phases. -/
def isAtPhases : JobPlace → Bool
  | .between _ _ | .calling _ _ _ | .running _ _ _ => true
  | _ => false

/-- The places after the last phase: the entry is completed, or the store refuses that. -/
inductive IsThrough : JobPlace → Prop
  | committing (outputs : Outputs) : IsThrough (.committing outputs)
  | recording (outputs : Outputs) : IsThrough (.recording outputs)
  | completed (outputs : Outputs) : IsThrough (.finished (.ok ⟨outputs, false⟩))
  | refused (path message : String) : IsThrough (.finished (.error (.store path message)))

end JobPlace

/-! ### The place of a job and its calls -/

namespace Job
variable {config : BuildConfig} {node : Derivation} {begun : Bool} {log : List Exchange} {pending : Option Attempt}

/-- All calls so far, while a phase has been tried a number of times without success and
    is to be tried again: those for the phases before it, and its own. -/
inductive Midst (config : BuildConfig) (node : Derivation) (phase : Phase) (rest : List Phase) :
    Nat → List Exchange → Prop
  | intro {before : List Phase} {log : List Exchange} {codes : List (Option Int)}
      (split : node.phases = before ++ phase :: rest) (performs : Performs config node before log none)
      (kept : ¬ LeavesOut config node phase) (failed : ∀ code ∈ codes, code ≠ some 0)
      (fewer : codes.length < limit config phase) :
      Midst config node phase rest codes.length (log ++ failures phase 0 codes)

/-- What a job somewhere on its way has called and what was replied, and the call that it
    waits for. One that has not begun with its phases may be over without a call. -/
inductive Stands (config : BuildConfig) (node : Derivation) (begun : Bool) :
    JobPlace → List Exchange → Option Attempt → Prop
  | idle {place : JobPlace} (unbegun : begun = false)
      (idle : place.isBeforehand = true ∨ ∃ result, place = .finished result) :
      Stands config node begun place [] none
  | between {outputs : Outputs} {before rest : List Phase} {log : List Exchange}
      (split : node.phases = before ++ rest) (performs : Performs config node before log none) :
      Stands config node begun (.between outputs rest) log none
  | calling {outputs : Outputs} {phase : Phase} {rest : List Phase} {tried : Nat} {log : List Exchange}
      (midst : Midst config node phase rest tried log) :
      Stands config node begun (.calling outputs (.after phase tried) rest) log none
  | running {outputs : Outputs} {phase : Phase} {rest : List Phase} {tried : Nat} {log : List Exchange}
      (midst : Midst config node phase rest tried log) :
      Stands config node begun (.running outputs (.after phase tried) rest) log (some (.after phase tried))
  | passed {place : JobPlace} {log : List Exchange} (through : place.IsThrough)
      (performs : Performs config node node.phases log none) : Stands config node begun place log none
  | failed {error : BuildError} {log : List Exchange} (performs : Performs config node node.phases log (some error)) :
      Stands config node begun (.finished (.error error)) log none

theorem Midst.fewer {phase : Phase} {rest : List Phase} {tried : Nat} (midst : Midst config node phase rest tried log) :
    tried < limit config phase := by
  obtain ⟨_, _, _, _, fewer⟩ := midst
  exact fewer

theorem Midst.start {phase : Phase} {before rest : List Phase} (split : node.phases = before ++ phase :: rest)
    (performs : Performs config node before log none) (kept : ¬ LeavesOut config node phase) :
    Midst config node phase rest 0 log := by
  have midst := @Midst.intro config node phase rest before log [] split performs kept (by simp) (limit_pos config phase)
  rwa [failures, List.append_nil] at midst

/-- A phase that succeeds is passed. -/
theorem Midst.succeeds {phase : Phase} {rest : List Phase} {tried : Nat} (midst : Midst config node phase rest tried log) :
    ∃ before, node.phases = before ++ rest ∧
      Performs config node before (log ++ [(.after phase tried, .exit .success)]) none := by
  obtain ⟨split, performs, kept, failed, fewer⟩ := midst
  have further := performs.append (.pass kept (.intro failed fewer .success) .done)
  rw [List.append_nil] at further
  rw [List.append_assoc]
  exact ⟨_, by rw [split, List.append_assoc]; rfl, further⟩

/-- A reply that ends the tries of a phase without success ends the job. -/
theorem Midst.ends {phase : Phase} {rest : List Phase} {tried : Nat} {reply : Reply} {error : BuildError}
    (midst : Midst config node phase rest tried log) (closes : Closes config node phase tried reply (some error)) :
    Performs config node node.phases (log ++ [(.after phase tried, reply)]) (some error) := by
  obtain ⟨split, performs, kept, failed, fewer⟩ := midst
  rw [List.append_assoc, split]
  exact performs.append (.stop kept (.intro failed fewer closes))

/-- A failure that is not the last leaves a phase to be tried again. -/
theorem Midst.again {phase : Phase} {rest : List Phase} {tried : Nat} {code : Option Int}
    (midst : Midst config node phase rest tried log) (wrong : code ≠ some 0) (fewer : tried + 1 < limit config phase) :
    Midst config node phase rest (tried + 1) (log ++ [(.after phase tried, .exit ⟨code⟩)]) := by
  obtain @⟨_, log, codes, split, performs, kept, failed, _⟩ := midst
  have more := failures_concat phase codes code 0
  rw [Nat.zero_add] at more
  have longer : (codes ++ [code]).length = codes.length + 1 := by simp
  rw [List.append_assoc, ← more, ← longer]
  refine .intro split performs kept ?_ (longer ▸ fewer)
  intro other member
  rcases List.mem_append.mp member with earlier | last
  · exact failed other earlier
  · exact List.mem_singleton.mp last ▸ wrong

/-! What the place of a job at its phases says. -/

theorem Stands.of_between {outputs : Outputs} {rest : List Phase}
    (stands : Stands config node begun (.between outputs rest) log pending) :
    pending = none ∧ ∃ before, node.phases = before ++ rest ∧ Performs config node before log none := by
  cases stands with
  | idle unbegun idle => rcases idle with absurd | ⟨result, absurd⟩ <;> cases absurd
  | passed through performs => cases through
  | between split performs => exact ⟨rfl, _, split, performs⟩

theorem Stands.of_calling {outputs : Outputs} {attempt : Attempt} {rest : List Phase}
    (stands : Stands config node begun (.calling outputs attempt rest) log pending) :
    pending = none ∧ ∃ phase tried, attempt = .after phase tried ∧ Midst config node phase rest tried log := by
  cases stands with
  | idle unbegun idle => rcases idle with absurd | ⟨result, absurd⟩ <;> cases absurd
  | passed through performs => cases through
  | calling midst => exact ⟨rfl, _, _, rfl, midst⟩

theorem Stands.of_running {outputs : Outputs} {attempt : Attempt} {rest : List Phase}
    (stands : Stands config node begun (.running outputs attempt rest) log pending) :
    pending = some attempt ∧ ∃ phase tried, attempt = .after phase tried ∧ Midst config node phase rest tried log := by
  cases stands with
  | idle unbegun idle => rcases idle with absurd | ⟨result, absurd⟩ <;> cases absurd
  | passed through performs => cases through
  | running midst => exact ⟨rfl, _, _, rfl, midst⟩

theorem Stands.proceed {job : Job} {outputs : Outputs} {rest : List Phase}
    (stands : Stands config job.derivation begun (.between outputs rest) log pending) :
    Stands config job.derivation begun (job.proceed config outputs rest).place log pending := by
  obtain ⟨rfl, before, split, performs⟩ := stands.of_between
  cases rest with
  | nil =>
    rw [List.append_nil] at split
    exact .passed (.committing outputs) (split ▸ performs)
  | cons phase rest =>
    rw [Job.proceed]
    split
    next skipped =>
      have further := performs.append (.skip (skips_iff.mp skipped) .done)
      rw [List.append_nil] at further
      exact .between (by rw [split, List.append_assoc]; rfl) further
    next kept =>
      exact .calling (.start split performs fun left => kept (skips_iff.mpr left))

/-- The number of a try does not overflow. -/
theorem toNat_after {phase : Phase} {tried : Nat} (fewer : tried < limit config phase)
    (bound : config.retryAttempts.toNat < UInt32.size - 1) : (Attempt.after phase tried).number.toNat = tried + 1 := by
  have small := limit_lt bound phase
  exact UInt32.toNat_ofNat_of_lt' (by omega)

theorem Stands.replied {job : Job} {outputs : Outputs} {attempt : Attempt} {rest : List Phase}
    (stands : Stands config job.derivation begun (.running outputs attempt rest) log pending)
    (bound : config.retryAttempts.toNat < UInt32.size - 1) (reply : Reply) :
    pending = some attempt ∧
      Stands config job.derivation begun (Workshop.replied config job outputs attempt rest reply).place
        (log ++ [(attempt, reply)]) none ∧
      ∀ error, (Workshop.replied config job outputs attempt rest reply).place = .finished (.error error) →
        Performs config job.derivation job.derivation.phases (log ++ [(attempt, reply)]) (some error) := by
  obtain ⟨rfl, phase, tried, rfl, midst⟩ := stands.of_running
  refine ⟨rfl, ?_⟩
  have breaks {error : BuildError} (closes : Closes config job.derivation phase tried reply (some error)) :
      Stands config job.derivation begun (.finished (.error error)) (log ++ [(.after phase tried, reply)]) none ∧
        ∀ other, JobPlace.finished (.error error) = .finished (.error other) →
          Performs config job.derivation job.derivation.phases (log ++ [(.after phase tried, reply)]) (some other) := by
    refine ⟨.failed (midst.ends closes), fun other same => ?_⟩
    cases same
    exact midst.ends closes
  cases reply with
  | error error => exact breaks (.error error)
  | crash => exact breaks .crash
  | exit exit =>
    obtain ⟨code⟩ := exit
    rw [Workshop.replied, exited]
    split
    next success =>
      obtain rfl : code = some 0 := by simpa [PhaseExit.isSuccess] using success
      obtain ⟨before, split, performs⟩ := midst.succeeds
      exact ⟨.between split performs, fun error absurd => by cases absurd⟩
    next unsuccessful =>
      have wrong : code ≠ some 0 := by simpa [PhaseExit.isSuccess] using unsuccessful
      have number := toNat_after midst.fewer bound
      have tries : (tries config (Attempt.after phase tried).phase).toNat = limit config phase := toNat_tries bound phase
      split
      next again =>
        rw [UInt32.lt_iff_toNat_lt, number, tries] at again
        have next : ({ Attempt.after phase tried with number := (Attempt.after phase tried).number + 1 } : Attempt) =
            .after phase (tried + 1) := by
          simp [Attempt.after, UInt32.ofNat_add]
        rw [next]
        exact ⟨.calling (midst.again wrong again), fun error absurd => by cases absurd⟩
      next last =>
        rw [UInt32.lt_iff_toNat_lt, number, tries] at last
        have fewer := midst.fewer
        exact breaks (.exhausted wrong (by omega))

/-- Before it has made its entry, a job goes anywhere there, or ends. -/
theorem Stands.wander {place place' : JobPlace} (stands : Stands config node begun place log pending)
    (beforehand : place.isBeforehand = true) (onwards : place'.isBeforehand = true ∨ ∃ result, place' = .finished result) :
    Stands config node begun place' log pending := by
  cases stands with
  | idle unbegun idle => exact .idle unbegun onwards
  | passed through performs => cases through <;> cases beforehand
  | _ => cases beforehand

/-- A job that makes its entry is about to go through all its phases. -/
theorem Stands.enter (stands : Stands config node begun .preparing log pending) (outputs : Outputs) :
    Stands config node begun (.between outputs node.phases) log pending := by
  cases stands with
  | idle unbegun idle => exact .between rfl .done
  | passed through performs => cases through

/-- A job that completes its entry has passed all its phases. -/
theorem Stands.through {place : JobPlace} (stands : Stands config node begun place log pending)
    (here : (∃ outputs, place = .committing outputs) ∨ ∃ outputs, place = .recording outputs) :
    pending = none ∧ Performs config node node.phases log none := by
  cases stands with
  | passed through performs => exact ⟨rfl, performs⟩
  | idle unbegun idle =>
    rcases here with ⟨outputs, rfl⟩ | ⟨outputs, rfl⟩ <;> rcases idle with absurd | ⟨result, absurd⟩ <;> cases absurd
  | _ => rcases here with ⟨outputs, absurd⟩ | ⟨outputs, absurd⟩ <;> cases absurd

/-- A job that has begun with its phases and is over has made all its calls. -/
theorem Stands.ended {result : JobResult} (stands : Stands config node begun (.finished result) log pending) :
    pending = none ∧ (begun = true → ∃ ending, Performs config node node.phases log ending) := by
  cases stands with
  | idle unbegun idle => exact ⟨rfl, fun begins => absurd begins (by simp [unbegun])⟩
  | passed through performs => exact ⟨rfl, fun _ => ⟨_, performs⟩⟩
  | failed performs => exact ⟨rfl, fun _ => ⟨_, performs⟩⟩

/-- A job that has begun with its phases is still at them, or it has made all its calls. -/
theorem Stands.complete {place : JobPlace} (stands : Stands config node true place log pending)
    (away : place.isAtPhases = false) : pending = none ∧ ∃ ending, Performs config node node.phases log ending := by
  cases stands with
  | idle unbegun idle => cases unbegun
  | passed through performs => exact ⟨rfl, _, performs⟩
  | failed performs => exact ⟨rfl, _, performs⟩
  | _ => cases away

end Job

namespace Workshop
variable {workshop : Workshop} {request : Request} {job : Job} {begun : Bool} {log : List Exchange}
  {pending : Option Attempt}

/-- A job that moves makes the call that it was about to make, or none. -/
theorem advance_stands (id : RequestId) (stands : Job.Stands workshop.config job.derivation begun job.place log pending)
    (open' : request.cancelled = false) :
    (workshop.advance id request job).1.calls = workshop.calls ∧
        Job.Stands workshop.config job.derivation begun (workshop.advance id request job).2.place log pending ∨
      ∃ attempt outputs, (workshop.advance id request job).1.calls =
          ⟨id, job.derivation, attempt, outputs, job.inputs⟩ :: workshop.calls ∧ pending = none ∧
        Job.Stands workshop.config job.derivation begun (workshop.advance id request job).2.place log (some attempt) := by
  have wander {place : JobPlace} (beforehand : job.place.isBeforehand = true)
      (onwards : place.isBeforehand = true ∨ ∃ result, place = .finished result) :
      Job.Stands workshop.config job.derivation begun place log pending := stands.wander beforehand onwards
  fun_cases Workshop.advance workshop id request job with
  | case1 calledOff => simp [open'] at calledOff
  | case2 waits place free => exact Or.inl ⟨rfl, wander (by rw [place]; rfl) (Or.inl rfl)⟩
  | case5 waits place free => exact Or.inl ⟨rfl, wander (by rw [place]; rfl) (Or.inl rfl)⟩
  | case6 waits place halted => exact Or.inl ⟨rfl, wander (by rw [place]; rfl) (Or.inr ⟨_, rfl⟩)⟩
  | case7 waits place going => exact Or.inl ⟨rfl, wander (by rw [place]; rfl) (Or.inl rfl)⟩
  | case8 waits place after outputs fetched =>
    obtain rfl : (workshop.fetch job.derivation).1 = after := congrArg Prod.fst fetched
    exact Or.inl ⟨rfl, wander (by rw [place]; rfl) (Or.inr ⟨_, rfl⟩)⟩
  | case9 waits place after fetched =>
    obtain rfl : (workshop.fetch job.derivation).1 = after := congrArg Prod.fst fetched
    exact Or.inl ⟨rfl, wander (by rw [place]; rfl) (Or.inl rfl)⟩
  | case10 waits place =>
    unfold Workshop.prepare
    split
    next disk outputs prepared =>
      rw [place] at stands
      exact Or.inl ⟨rfl, stands.enter outputs⟩
    next disk error prepared => exact Or.inl ⟨rfl, wander (by rw [place]; rfl) (Or.inr ⟨_, rfl⟩)⟩
  | case11 waits outputs rest place =>
    rw [place] at stands
    exact Or.inl ⟨rfl, stands.proceed⟩
  | case12 waits outputs attempt rest place =>
    rw [place] at stands
    obtain ⟨rfl, phase, tried, rfl, midst⟩ := stands.of_calling
    exact Or.inr ⟨_, outputs, rfl, rfl, .running midst⟩
  | case14 waits outputs place =>
    obtain ⟨rfl, performs⟩ := stands.through (Or.inl ⟨outputs, place⟩)
    unfold Workshop.commit
    split
    next disk committed => exact Or.inl ⟨rfl, .passed (.recording outputs) performs⟩
    next disk error committed =>
      obtain ⟨path, message, rfl⟩ := Store.commit_error (congrArg Prod.snd committed)
      exact Or.inl ⟨rfl, .passed (.refused path message) performs⟩
  | case15 waits outputs place cache recorded inserted =>
    obtain ⟨rfl, performs⟩ := stands.through (Or.inr ⟨outputs, place⟩)
    exact Or.inl ⟨rfl, .passed (.completed recorded) performs⟩
  | _ => exact Or.inl ⟨rfl, stands⟩

end Workshop

/-! ### The way to the end -/

namespace Job
variable {config : BuildConfig}

/-- The moves and replies that a job has before it at most for some phases. -/
def weight (config : BuildConfig) : List Phase → Nat
  | [] => 0
  | phase :: rest => 2 * limit config phase + 2 + weight config rest

/-- The moves and replies that a job at its phases has before it at most, until it has
    passed them all or failed. -/
def toGo (config : BuildConfig) : JobPlace → Nat
  | .between _ rest => weight config rest + 1
  | .calling _ attempt rest => weight config rest + 2 * (limit config attempt.phase - attempt.number.toNat) + 3
  | .running _ attempt rest => weight config rest + 2 * (limit config attempt.phase - attempt.number.toNat) + 2
  | _ => 0

theorem proceed_nearer (config : BuildConfig) (job : Job) (outputs : Outputs) (rest : List Phase) :
    (job.proceed config outputs rest).place = .committing outputs ∨
      (job.proceed config outputs rest).place.isAtPhases = true ∧
        toGo config (job.proceed config outputs rest).place < toGo config (.between outputs rest) := by
  cases rest with
  | nil => exact Or.inl rfl
  | cons phase rest =>
    have positive := limit_pos config phase
    have first : ((⟨phase, 1⟩ : Attempt).number).toNat = 1 := rfl
    refine Or.inr ?_
    rw [Job.proceed]
    split
    next => exact ⟨rfl, by simp only [toGo, goTo, weight]; omega⟩
    next => exact ⟨rfl, by simp only [toGo, goTo, weight, first]; omega⟩

theorem replied_nearer (bound : config.retryAttempts.toNat < UInt32.size - 1) (job : Job) (outputs : Outputs)
    (attempt : Attempt) (rest : List Phase) (reply : Reply) :
    (∃ error, (Workshop.replied config job outputs attempt rest reply).place = .finished (.error error)) ∨
      (Workshop.replied config job outputs attempt rest reply).place.isAtPhases = true ∧
        toGo config (Workshop.replied config job outputs attempt rest reply).place <
          toGo config (.running outputs attempt rest) := by
  cases reply with
  | error error => exact Or.inl ⟨error, rfl⟩
  | crash => exact Or.inl ⟨_, rfl⟩
  | exit exit =>
    rw [Workshop.replied, exited]
    split
    next => exact Or.inr ⟨rfl, by simp only [toGo, goTo]; omega⟩
    next =>
      split
      next again =>
        rw [UInt32.lt_iff_toNat_lt, toNat_tries bound] at again
        have small := limit_lt bound attempt.phase
        have number : (attempt.number + 1).toNat = attempt.number.toNat + 1 := by
          rw [UInt32.toNat_add, UInt32.toNat_one]
          exact Nat.mod_eq_of_lt (by simp only [UInt32.size] at small; omega)
        exact Or.inr ⟨rfl, by simp only [toGo, goTo, number]; omega⟩
      next last => exact Or.inl ⟨_, rfl⟩

end Job
end Pkgset

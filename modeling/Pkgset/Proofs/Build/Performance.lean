import Pkgset.Build.Workshop
import Pkgset.Derivation.Draft
import Pkgset.Proofs.Derivation.Canonical

/-!
# What a job asks of the runner

The phases of a derivation are gone through in their order, but for those that are left
out. One of them is tried until it succeeds, its tries are used up, or the runner has no
exit status for it; what ends it without success ends the job. So the replies of the
runner tell which calls are made, and a runner that answers by the calls so far is asked
the same every time.
-/

namespace Pkgset

/-! ### The order of phases -/

/-- Phases in the order in which they run: by standard phase, then by slot, and else as
    they were declared. -/
structure Phase.InOrder (declared phases : List Phase) : Prop where
  all : phases.Perm declared
  ranked : phases.Pairwise fun earlier later => earlier.name.phase.rank < later.name.phase.rank ∨
    earlier.name.phase = later.name.phase ∧ earlier.name.slot.rank ≤ later.name.slot.rank
  stable : ∀ name, phases.filter (·.name = name) = declared.filter (·.name = name)

theorem StdPhase.rank_injective : Function.Injective rank := by
  intro phase other same
  cases phase <;> cases other <;> first | rfl | cases same

theorem PhaseName.rank_le {name other : PhaseName} (before : name.rank ≤ other.rank) :
    name.phase.rank < other.phase.rank ∨ name.phase = other.phase ∧ name.slot.rank ≤ other.slot.rank := by
  have few (slot : PhaseSlot) : slot.rank < 3 := by cases slot <;> decide
  have here := few name.slot
  have there := few other.slot
  unfold PhaseName.rank at before
  by_cases same : name.phase = other.phase
  · rw [same] at before
    exact Or.inr ⟨same, by omega⟩
  · have apart : name.phase.rank ≠ other.phase.rank := fun level => same (StdPhase.rank_injective level)
    exact Or.inl (by omega)

/-- A derivation has the phases of its draft in their order. -/
theorem Draft.inOrder (draft : Draft) : Phase.InOrder draft.phases draft.build.phases where
  all := List.mergeSort_perm draft.phases _
  ranked := (Phase.pairwise_sort draft.phases).imp PhaseName.rank_le
  stable := fun name => Phase.under_sort name draft.phases

/-! ### Calls and replies -/

/-- A call of the runner, and its reply. -/
abbrev Exchange := Attempt × Reply

/-- The next try of a phase after some tries. -/
def Attempt.after (phase : Phase) (tried : Nat) : Attempt := ⟨phase, .ofNat (tried + 1)⟩

/-- Tries of a phase that the runner lets end with some exit codes, after others. -/
def failures (phase : Phase) (tried : Nat) : List (Option Int) → List Exchange
  | [] => []
  | code :: rest => (.after phase tried, .exit ⟨code⟩) :: failures phase (tried + 1) rest

theorem failures_concat (phase : Phase) (codes : List (Option Int)) (code : Option Int) (tried : Nat) :
    failures phase tried (codes ++ [code]) =
      failures phase tried codes ++ [(.after phase (tried + codes.length), .exit ⟨code⟩)] := by
  induction codes generalizing tried with
  | nil => rfl
  | cons first rest ih =>
    have shift : tried + 1 + rest.length = tried + (first :: rest).length := by
      rw [List.length_cons]
      omega
    rw [List.cons_append, failures, ih, shift, failures, List.cons_append]

namespace Job
variable {config : BuildConfig} {node : Derivation} {phase : Phase}

/-- A phase of a derivation is left out: it is a hook or the command of the check, and the
    check never runs, or runs only where the results run on the machine that builds them. -/
def LeavesOut (config : BuildConfig) (node : Derivation) (phase : Phase) : Prop :=
  phase.name.phase = .check ∧
    (config.checkPolicy = .never ∨ config.checkPolicy = .nativeOnly ∧ node.isNative = false)

theorem skips_iff : skips config node phase = true ↔ LeavesOut config node phase := by
  cases policy : config.checkPolicy <;> simp [skips, runsCheck, LeavesOut, policy]

/-- The number of calls for a phase that never succeeds. -/
def limit (config : BuildConfig) (phase : Phase) : Nat :=
  if phase.retryable then 1 + config.retryAttempts.toNat else 1

theorem limit_pos (config : BuildConfig) (phase : Phase) : 0 < limit config phase := by
  unfold limit
  split <;> omega

/-- The tries are counted without overflow. -/
theorem toNat_tries (bound : config.retryAttempts.toNat < UInt32.size - 1) (phase : Phase) :
    (tries config phase).toNat = limit config phase := by
  cases retried : phase.retryable with
  | true =>
    simp only [tries, limit, retried, ↓reduceIte, UInt32.toNat_add, UInt32.toNat_one]
    exact Nat.mod_eq_of_lt (by simp only [UInt32.size] at bound; omega)
  | false => simp [tries, limit, retried]

theorem limit_lt (bound : config.retryAttempts.toNat < UInt32.size - 1) (phase : Phase) :
    limit config phase < UInt32.size := by
  rw [← toNat_tries bound]
  exact UInt32.toNat_lt _

/-- What the reply to a call for a phase makes of the job, if the phase is not called again:
    the job goes on, or ends with an error. -/
inductive Closes (config : BuildConfig) (node : Derivation) (phase : Phase) (tried : Nat) :
    Reply → Option BuildError → Prop
  | success : Closes config node phase tried (.exit .success) none
  | exhausted {code : Option Int} (failed : code ≠ some 0) (last : tried + 1 = limit config phase) :
      Closes config node phase tried (.exit ⟨code⟩) (some (.phaseFailure node.name phase.name code))
  | error (error : BuildError) : Closes config node phase tried (.error error) (some error)
  | crash : Closes config node phase tried .crash (some (.crashed node.name))

/-- All calls for one phase: some that fail, fewer than the limit, and the last one. -/
inductive Tries (config : BuildConfig) (node : Derivation) (phase : Phase) : List Exchange → Option BuildError → Prop
  | intro {codes : List (Option Int)} {reply : Reply} {ending : Option BuildError}
      (failed : ∀ code ∈ codes, code ≠ some 0) (fewer : codes.length < limit config phase)
      (closes : Closes config node phase codes.length reply ending) :
      Tries config node phase (failures phase 0 codes ++ [(.after phase codes.length, reply)]) ending

/-- All calls for some phases in their order: those for each that is not left out, up to
    the first that ends without success. -/
inductive Performs (config : BuildConfig) (node : Derivation) : List Phase → List Exchange → Option BuildError → Prop
  | done : Performs config node [] [] none
  | skip {phase : Phase} {rest : List Phase} {log : List Exchange} {ending : Option BuildError}
      (left : LeavesOut config node phase) (onwards : Performs config node rest log ending) :
      Performs config node (phase :: rest) log ending
  | pass {phase : Phase} {rest : List Phase} {log more : List Exchange} {ending : Option BuildError}
      (kept : ¬ LeavesOut config node phase) (tries : Tries config node phase log none)
      (onwards : Performs config node rest more ending) : Performs config node (phase :: rest) (log ++ more) ending
  | stop {phase : Phase} {rest : List Phase} {log : List Exchange} {error : BuildError}
      (kept : ¬ LeavesOut config node phase) (tries : Tries config node phase log (some error)) :
      Performs config node (phase :: rest) log (some error)

/-- Phases that were passed, and those after them. -/
theorem Performs.append {before rest : List Phase} {log more : List Exchange} {ending : Option BuildError}
    (performs : Performs config node before log none) (onwards : Performs config node rest more ending) :
    Performs config node (before ++ rest) (log ++ more) ending := by
  generalize passed : (none : Option BuildError) = none' at performs
  induction performs with
  | done => exact onwards
  | skip left earlier ih => exact .skip left (ih passed)
  | pass kept tries earlier ih =>
    rw [List.append_assoc]
    exact .pass kept tries (ih passed)
  | stop kept tries => cases passed

end Job

/-! ### What the replies determine -/

/-- Where two logs have the same call after the same exchanges, it has the same reply. -/
def Agree (log other : List Exchange) : Prop :=
  ∀ before attempt reply reply', before ++ [(attempt, reply)] <+: log → before ++ [(attempt, reply')] <+: other →
    reply = reply'

/-- The replies of a log are those of a runner that answers by the exchanges so far. -/
def Answered (answer : List Exchange → Attempt → Reply) (log : List Exchange) : Prop :=
  ∀ before attempt reply, before ++ [(attempt, reply)] <+: log → reply = answer before attempt

namespace Answered
variable {answer : List Exchange → Attempt → Reply} {log other : List Exchange}

theorem agree (answered : Answered answer log) (answered' : Answered answer other) : Agree log other :=
  fun before attempt reply reply' first second =>
    (answered before attempt reply first).trans (answered' before attempt reply' second).symm

theorem concat (answered : Answered answer log) (attempt : Attempt) :
    Answered answer (log ++ [(attempt, answer log attempt)]) := by
  intro before attempt' reply within
  rcases List.prefix_concat_iff.mp within with whole | earlier
  · obtain ⟨rfl, same⟩ := List.append_inj' whole rfl
    cases same
    rfl
  · exact answered before attempt' reply earlier

end Answered

namespace Agree
variable {log other : List Exchange}

theorem head {attempt : Attempt} {reply reply' : Reply}
    (agree : Agree ((attempt, reply) :: log) ((attempt, reply') :: other)) : reply = reply' :=
  agree [] attempt reply reply' ⟨log, rfl⟩ ⟨other, rfl⟩

theorem drop (same : List Exchange) (agree : Agree (same ++ log) (same ++ other)) : Agree log other := by
  intro before attempt reply reply' first second
  refine agree (same ++ before) attempt reply reply' ?_ ?_
  · rw [List.append_assoc]
    exact (List.prefix_append_right_inj same).mpr first
  · rw [List.append_assoc]
    exact (List.prefix_append_right_inj same).mpr second

end Agree

namespace Job
variable {config : BuildConfig} {node : Derivation} {phase : Phase}

theorem Closes.unique {tried : Nat} {reply : Reply} {ending ending' : Option BuildError}
    (closes : Closes config node phase tried reply ending) (closes' : Closes config node phase tried reply ending') :
    ending = ending' := by
  cases closes with
  | success =>
    cases closes' with
    | success => rfl
    | exhausted failed last => exact absurd rfl failed
  | exhausted failed last =>
    cases closes' with
    | success => exact absurd rfl failed
    | exhausted failed' last' => rfl
  | error error => cases closes'; rfl
  | crash => cases closes'; rfl

/-- A phase is called again after a failure that is not the last. -/
theorem Closes.last {tried : Nat} {code : Option Int} {ending : Option BuildError} (failed : code ≠ some 0)
    (closes : Closes config node phase tried (.exit ⟨code⟩) ending) : tried + 1 = limit config phase := by
  cases closes with
  | success => exact absurd rfl failed
  | exhausted failed last => exact last

private theorem series_unique {codes codes' : List (Option Int)} {tried : Nat} {reply reply' : Reply}
    {ending ending' : Option BuildError} {more more' : List Exchange} (failed : ∀ code ∈ codes, code ≠ some 0)
    (failed' : ∀ code ∈ codes', code ≠ some 0) (fewer : tried + codes.length < limit config phase)
    (fewer' : tried + codes'.length < limit config phase)
    (closes : Closes config node phase (tried + codes.length) reply ending)
    (closes' : Closes config node phase (tried + codes'.length) reply' ending')
    (agree : Agree (failures phase tried codes ++ (.after phase (tried + codes.length), reply) :: more)
      (failures phase tried codes' ++ (.after phase (tried + codes'.length), reply') :: more')) :
    codes = codes' ∧ reply = reply' := by
  induction codes generalizing tried codes' with
  | nil =>
    cases codes' with
    | nil => exact ⟨rfl, agree.head⟩
    | cons code rest =>
      -- the first call would be the last one here and not the last one there
      obtain rfl : reply = .exit ⟨code⟩ := agree.head
      have last := closes.last (failed' code (by simp))
      simp only [List.length_nil, List.length_cons] at last fewer'
      omega
  | cons code rest ih =>
    cases codes' with
    | nil =>
      obtain rfl : .exit ⟨code⟩ = reply' := agree.head
      have last := closes'.last (failed code (by simp))
      simp only [List.length_nil, List.length_cons] at last fewer
      omega
    | cons code' rest' =>
      have same : Reply.exit ⟨code⟩ = .exit ⟨code'⟩ := agree.head
      cases same
      have shift (codes : List (Option Int)) : tried + (code :: codes).length = tried + 1 + codes.length := by
        rw [List.length_cons]
        omega
      rw [shift] at fewer fewer' closes closes' agree
      rw [shift] at agree
      obtain ⟨rfl, replies⟩ := ih (fun code member => failed code (List.mem_cons_of_mem _ member))
        (fun code member => failed' code (List.mem_cons_of_mem _ member)) fewer fewer' closes closes' (agree.drop [_])
      exact ⟨rfl, replies⟩

theorem Tries.unique {log log' more more' : List Exchange} {ending ending' : Option BuildError}
    (tries : Tries config node phase log ending) (tries' : Tries config node phase log' ending')
    (agree : Agree (log ++ more) (log' ++ more')) : log = log' ∧ ending = ending' := by
  obtain ⟨failed, fewer, closes⟩ := tries
  obtain ⟨failed', fewer', closes'⟩ := tries'
  simp only [List.append_assoc, List.singleton_append] at agree
  rw [← Nat.zero_add (List.length _)] at fewer fewer' closes closes'
  obtain ⟨rfl, rfl⟩ := series_unique failed failed' fewer fewer' closes closes' (by simpa only [Nat.zero_add] using agree)
  exact ⟨rfl, closes.unique closes'⟩

/-- Replies that agree leave one way to go through the phases. -/
theorem Performs.unique {phases : List Phase} {log log' : List Exchange} {ending ending' : Option BuildError}
    (performs : Performs config node phases log ending) (performs' : Performs config node phases log' ending')
    (agree : Agree log log') : log = log' ∧ ending = ending' := by
  have alone {log : List Exchange} : log = log ++ [] := (List.append_nil log).symm
  induction performs generalizing log' with
  | done =>
    cases performs'
    exact ⟨rfl, rfl⟩
  | skip left onwards ih =>
    cases performs' with
    | skip left' onwards' => exact ih onwards' agree
    | pass kept tries onwards' => exact absurd left kept
    | stop kept tries => exact absurd left kept
  | pass kept tries onwards ih =>
    cases performs' with
    | skip left onwards' => exact absurd left kept
    | pass kept' tries' onwards' =>
      obtain ⟨rfl, _⟩ := tries.unique tries' agree
      obtain ⟨rfl, same⟩ := ih onwards' (agree.drop _)
      exact ⟨rfl, same⟩
    | stop kept' tries' =>
      rw [@alone log'] at agree
      cases (tries.unique tries' agree).2
  | @stop phase rest log error kept tries =>
    rw [@alone log] at agree
    cases performs' with
    | skip left onwards' => exact absurd left kept
    | pass kept' tries' onwards' => cases (tries.unique tries' agree).2
    | stop kept' tries' =>
      rw [@alone log'] at agree
      exact tries.unique tries' agree

end Job
end Pkgset

import Pkgset.Build.Request
import Pkgset.Proofs.Build.Graph
import Mathlib.Data.List.Forall2

/-!
# How reports grow

A record that is made stays. A failure is recorded together with those of everything
that depends on it and has no record yet; each of these names an input that failed and
holds that input's error.
-/

namespace Pkgset

namespace BuildReport

/-- Whether a fingerprint has outputs. -/
def succeeded (report : BuildReport) (fingerprint : Fingerprint) : Bool :=
  (report.get? fingerprint).any (·.status.isSucceeded)

/-- Every record of a report is in a later one. -/
def Extends (later report : BuildReport) : Prop :=
  ∀ fingerprint record, report.get? fingerprint = some record → later.get? fingerprint = some record

/-- A fingerprint is recorded with an error. -/
def Failed (report : BuildReport) (fingerprint : Fingerprint) (error : BuildError) : Prop :=
  ∃ name, report.get? fingerprint = some ⟨name, .failed error⟩

/-- Outputs are those recorded for the declared inputs of a derivation, one for each. -/
def Supplies (report : BuildReport) (derivation : Derivation) (inputs : List Outputs) : Prop :=
  List.Forall₂ (fun input outputs =>
    ∃ name cached, report.get? input.fingerprint = some ⟨name, .succeeded outputs cached⟩) derivation.inputs inputs

section
variable {report later last : BuildReport} {fingerprint other : Fingerprint} {error : BuildError}

theorem succeeded_iff :
    report.succeeded fingerprint = true ↔
      ∃ name outputs cached, report.get? fingerprint = some ⟨name, .succeeded outputs cached⟩ := by
  unfold succeeded
  cases report.get? fingerprint with
  | none => simp
  | some record =>
    obtain ⟨name, status⟩ := record
    cases status <;> simp [BuildStatus.isSucceeded]

theorem has_iff : report.has fingerprint = true ↔ ∃ record, report.get? fingerprint = some record := by
  simp [has, Option.isSome_iff_exists]

theorem get?_eq_none : report.get? fingerprint = none ↔ report.has fingerprint = false := by
  simp [has]

theorem has_of_succeeded (done : report.succeeded fingerprint = true) : report.has fingerprint = true := by
  obtain ⟨_, _, _, known⟩ := succeeded_iff.mp done
  exact has_iff.mpr ⟨_, known⟩

theorem Failed.has (failed : report.Failed fingerprint error) : report.has fingerprint = true := by
  obtain ⟨name, known⟩ := failed
  exact has_iff.mpr ⟨_, known⟩

theorem Failed.not_succeeded (failed : report.Failed fingerprint error) : report.succeeded fingerprint = false := by
  obtain ⟨name, known⟩ := failed
  simp [succeeded, known, BuildStatus.isSucceeded]

theorem Extends.refl (report : BuildReport) : report.Extends report := fun _ _ => id

theorem Extends.trans (second : last.Extends later) (first : later.Extends report) : last.Extends report :=
  fun fingerprint record known => second fingerprint record (first fingerprint record known)

theorem Extends.has (grows : later.Extends report) (known : report.has fingerprint = true) :
    later.has fingerprint = true := by
  obtain ⟨record, known⟩ := has_iff.mp known
  exact has_iff.mpr ⟨record, grows _ _ known⟩

theorem Extends.succeeded (grows : later.Extends report) (done : report.succeeded fingerprint = true) :
    later.succeeded fingerprint = true := by
  obtain ⟨name, outputs, cached, known⟩ := succeeded_iff.mp done
  exact succeeded_iff.mpr ⟨name, outputs, cached, grows _ _ known⟩

theorem Extends.failed (grows : later.Extends report) (failed : report.Failed fingerprint error) :
    later.Failed fingerprint error := by
  obtain ⟨name, known⟩ := failed
  exact ⟨name, grows _ _ known⟩

theorem Extends.supplies (grows : later.Extends report) {derivation : Derivation} {inputs : List Outputs}
    (supplies : report.Supplies derivation inputs) : later.Supplies derivation inputs := by
  refine supplies.imp ?_
  rintro input outputs ⟨name, cached, known⟩
  exact ⟨name, cached, grows _ _ known⟩

theorem Supplies.succeeded {derivation : Derivation} {inputs : List Outputs}
    (supplies : report.Supplies derivation inputs) :
    ∀ input ∈ derivation.inputs, report.succeeded input.fingerprint = true := by
  unfold Supplies at supplies
  generalize derivation.inputs = declared at supplies
  induction supplies with
  | nil => simp
  | cons known _ ih =>
    obtain ⟨name, cached, known⟩ := known
    intro input member
    rcases List.mem_cons.mp member with rfl | later
    · exact succeeded_iff.mpr ⟨name, _, cached, known⟩
    · exact ih input later

theorem extends_insert (fresh : report.has fingerprint = false) (record : BuildRecord) :
    (report.insert fingerprint record).Extends report := by
  intro other known found
  have differs : other ≠ fingerprint := by
    rintro rfl
    simp [has, found] at fresh
  simpa [get?_insert, differs] using found

theorem succeeded_insert (report : BuildReport) (fingerprint other : Fingerprint) (record : BuildRecord) :
    (report.insert fingerprint record).succeeded other =
      if other = fingerprint then record.status.isSucceeded else report.succeeded other := by
  by_cases same : other = fingerprint <;> simp [succeeded, get?_insert, same]

end
end BuildReport

namespace Request
open BuildReport

/-- An error that a derivation has from an input: it names the input and holds the
    error that is recorded for it. -/
def HandedDown (graph : BuildGraph) (report : BuildReport) (node : Derivation) (error : BuildError) : Prop :=
  ∃ input cause, input.fingerprint ∈ graph.dependencies node.fingerprint ∧
    graph.find? input.fingerprint = some input ∧ error = .dependencyFailed node.name input.name cause ∧
    report.get? input.fingerprint = some ⟨input.name, .failed cause⟩

theorem HandedDown.mono {graph : BuildGraph} {report later : BuildReport} {node : Derivation} {error : BuildError}
    (grows : later.Extends report) (handed : HandedDown graph report node error) : HandedDown graph later node error := by
  obtain ⟨input, cause, uses, known, rfl, failed⟩ := handed
  exact ⟨input, cause, uses, known, rfl, grows _ _ failed⟩

/-- What a flood of failures makes of a report. -/
structure Flood (graph : BuildGraph) (report later : BuildReport) (stack : List (Fingerprint × BuildError)) :
    Prop where
  grows : later.Extends report
  /-- A new record is a failure of the stack or one handed down by an input. -/
  origin : ∀ fingerprint record, later.get? fingerprint = some record → report.has fingerprint = false →
    ∃ node error, graph.find? fingerprint = some node ∧ record = ⟨node.name, .failed error⟩ ∧
      ((fingerprint, error) ∈ stack ∨ HandedDown graph later node error)
  stacked : ∀ entry ∈ stack, graph.contains entry.1 = true → later.has entry.1 = true
  spread : ∀ fingerprint, later.has fingerprint = true → report.has fingerprint = false →
    ∀ dependent ∈ graph.dependents fingerprint, later.has dependent = true

/-- A failure comes before a flood that records what it is for, if there is such a derivation. -/
private theorem Flood.cons {graph : BuildGraph} {report later : BuildReport} {rest : List (Fingerprint × BuildError)}
    {fingerprint : Fingerprint} (flood : Flood graph report later rest) (error : BuildError)
    (recorded : graph.contains fingerprint = true → later.has fingerprint = true) :
    Flood graph report later ((fingerprint, error) :: rest) := by
  refine ⟨flood.grows, ?_, ?_, flood.spread⟩
  · intro other record known fresh
    obtain ⟨node, cause, found, same, listed | handed⟩ := flood.origin other record known fresh
    · exact ⟨node, cause, found, same, Or.inl (List.mem_cons_of_mem _ listed)⟩
    · exact ⟨node, cause, found, same, Or.inr handed⟩
  · intro entry member within
    rcases List.mem_cons.mp member with rfl | later
    · exact recorded within
    · exact flood.stacked entry later within

private theorem mem_consequences {graph : BuildGraph} {report : BuildReport} {derivation : Derivation}
    {error : BuildError} {entry : Fingerprint × BuildError} :
    entry ∈ consequences graph report derivation error ↔
      entry.1 ∈ graph.dependents derivation.fingerprint ∧ report.has entry.1 = false ∧
        ∃ node, graph.find? entry.1 = some node ∧ entry.2 = .dependencyFailed node.name derivation.name error := by
  obtain ⟨fingerprint, cause⟩ := entry
  simp only [consequences, List.mem_filterMap, List.mem_filter, Option.map_eq_some_iff, Prod.mk.injEq]
  constructor
  · rintro ⟨dependent, ⟨uses, fresh⟩, node, known, rfl, rfl⟩
    exact ⟨uses, by simpa using fresh, node, known, rfl⟩
  · rintro ⟨uses, fresh, node, known, rfl⟩
    exact ⟨fingerprint, ⟨uses, by simpa using fresh⟩, node, known, rfl, rfl⟩

/-- A failure that is not recorded yet is recorded, and then those that follow from it. -/
theorem failAll_of_fresh {graph : BuildGraph} {report : BuildReport} {fingerprint : Fingerprint} {node : Derivation}
    (fresh : report.has fingerprint = false) (found : graph.find? fingerprint = some node) (error : BuildError)
    (rest : List (Fingerprint × BuildError)) :
    failAll graph report ((fingerprint, error) :: rest) =
      failAll graph (report.insert fingerprint ⟨node.name, .failed error⟩)
        ((consequences graph report node error).reverse ++ rest) := by
  rw [failAll, dif_neg (by simp [fresh])]
  split
  next missing => cases missing.symm.trans found
  next twin known =>
    obtain rfl : node = twin := Option.some.inj (found.symm.trans known)
    rfl

theorem failAll_flood {graph : BuildGraph} (closed : graph.Closed) (report : BuildReport)
    (stack : List (Fingerprint × BuildError)) : Flood graph report (failAll graph report stack) stack := by
  fun_induction failAll graph report stack with
  | case1 report =>
    refine ⟨Extends.refl _, ?_, by simp, ?_⟩
    · intro fingerprint record known fresh
      simp [has, known] at fresh
    · intro fingerprint known fresh
      simp [known] at fresh
  | case2 report fingerprint error rest recorded ih => exact ih.cons error fun _ => ih.grows.has recorded
  | case3 report fingerprint error rest unrecorded missing ih =>
    refine ih.cons error fun within => ?_
    obtain ⟨node, found⟩ := BuildGraph.contains_iff.mp within
    simp [missing] at found
  | case4 report fingerprint error rest unrecorded derivation found ih =>
    have fresh : report.has fingerprint = false := by simpa using unrecorded
    have same : derivation.fingerprint = fingerprint := (BuildGraph.find?_some found).2
    have kept := ih.grows fingerprint ⟨derivation.name, .failed error⟩ (by simp [get?_insert])
    refine ⟨ih.grows.trans (extends_insert fresh _), ?_, ?_, ?_⟩
    · intro other record known without
      by_cases here : other = fingerprint
      · subst here
        rw [kept] at known
        exact ⟨derivation, error, found, (Option.some.inj known).symm, Or.inl (by simp)⟩
      · obtain ⟨node, cause, foundNode, shape, listed | handed⟩ :=
          ih.origin other record known (by simp [has_insert, here, without])
        · rcases List.mem_append.mp listed with consequence | later
          · obtain ⟨uses, _, twin, foundTwin, causes⟩ := mem_consequences.mp (List.mem_reverse.mp consequence)
            obtain rfl : node = twin := Option.some.inj (foundNode.symm.trans foundTwin)
            refine ⟨node, cause, foundNode, shape, Or.inr ⟨derivation, error, ?_, ?_, causes, ?_⟩⟩
            · rw [(BuildGraph.find?_some foundNode).2]
              exact closed.mem_dependents.mp uses
            · rw [same, found]
            · rw [same, kept]
          · exact ⟨node, cause, foundNode, shape, Or.inl (List.mem_cons_of_mem _ later)⟩
        · exact ⟨node, cause, foundNode, shape, Or.inr handed⟩
    · intro entry member within
      rcases List.mem_cons.mp member with rfl | later
      · exact has_iff.mpr ⟨_, kept⟩
      · exact ih.stacked entry (List.mem_append_right _ later) within
    · intro other known without dependent uses
      by_cases here : other = fingerprint
      · subst here
        cases recorded : report.has dependent with
        | true => exact ih.grows.has ((extends_insert fresh _).has recorded)
        | false =>
          have uses' := closed.mem_dependents.mp uses
          obtain ⟨node, foundNode⟩ := BuildGraph.contains_iff.mp (BuildGraph.contains_of_mem_dependencies uses')
          refine ih.stacked (dependent, .dependencyFailed node.name derivation.name error) ?_
            (BuildGraph.contains_of_mem_dependencies uses')
          apply List.mem_append_left
          rw [List.mem_reverse, mem_consequences]
          exact ⟨by rw [same]; exact uses, recorded, node, foundNode, rfl⟩
      · exact ih.spread other known (by simp [has_insert, here, without]) dependent uses

end Request
end Pkgset

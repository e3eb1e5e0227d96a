import Pkgset.Derivation
import Pkgset.Proofs.Text.Dict
import Mathlib.Data.List.Sort

/-!
# Canonical order

The outputs of a derivation are listed in ascending order, and its phases in the order in
which they run. So outputs are equal exactly when they are the same set, and phases
exactly when those of each name are equal, in the order in which they were declared.
-/

namespace Pkgset

theorem mem_insertAscending {name other : String} {names : List String} :
    other ∈ insertAscending name names ↔ other = name ∨ other ∈ names := by
  fun_induction insertAscending name names with
  | case1 => simp
  | case2 first rest before => simp
  | case3 rest same => simp
  | case4 first rest before apart ih => simp [ih, or_left_comm]

theorem pairwise_insertAscending {name : String} {names : List String} (ascends : names.Pairwise (· < ·)) :
    (insertAscending name names).Pairwise (· < ·) := by
  fun_induction insertAscending name names with
  | case1 => simp
  | case2 first rest before =>
    refine List.pairwise_cons.mpr ⟨fun other member => ?_, ascends⟩
    rcases List.mem_cons.mp member with rfl | later
    · exact before
    · exact String.lt_trans before ((List.pairwise_cons.mp ascends).1 other later)
  | case3 rest same => exact ascends
  | case4 first rest before apart ih =>
    obtain ⟨above, ascends⟩ := List.pairwise_cons.mp ascends
    refine List.pairwise_cons.mpr ⟨fun other member => ?_, ih ascends⟩
    rcases mem_insertAscending.mp member with rfl | later
    · exact lt_of_not_lt before apart
    · exact above other later

theorem mem_ascending {names : List String} {name : String} : name ∈ ascending names ↔ name ∈ names := by
  have grows (found : List String) : name ∈ names.foldl (fun found name => insertAscending name found) found ↔
      name ∈ names ∨ name ∈ found := by
    induction names generalizing found with
    | nil => simp
    | cons first rest ih => simp [ih, mem_insertAscending, or_assoc, or_left_comm]
  simpa [ascending] using grows []

theorem pairwise_ascending (names : List String) : (ascending names).Pairwise (· < ·) := by
  have keeps (found : List String) (ascends : found.Pairwise (· < ·)) :
      (names.foldl (fun found name => insertAscending name found) found).Pairwise (· < ·) := by
    induction names generalizing found with
    | nil => exact ascends
    | cons first rest ih => exact ih _ (pairwise_insertAscending ascends)
  exact keeps [] List.Pairwise.nil

/-- Lists in ascending order are equal when they have the same members. -/
theorem ascending_inj {names others : List String} :
    ascending names = ascending others ↔ ∀ name, name ∈ names ↔ name ∈ others := by
  constructor
  · intro same name
    rw [← mem_ascending, same, mem_ascending]
  · intro same
    have differ {a b : String} (less : a < b) : a ≠ b := fun equal => String.lt_irrefl b (equal ▸ less)
    have perm : (ascending names).Perm (ascending others) := by
      refine (List.perm_ext_iff_of_nodup ?_ ?_).mpr fun name => ?_
      · exact (pairwise_ascending names).imp differ
      · exact (pairwise_ascending others).imp differ
      · rw [mem_ascending, mem_ascending, same]
    exact perm.eq_of_pairwise (fun _ _ _ _ less more => absurd more (String.lt_asymm less)) (pairwise_ascending names)
      (pairwise_ascending others)

/-! ### Phases -/

namespace PhaseName

theorem rank_injective : Function.Injective rank := by
  rintro ⟨phase, slot⟩ ⟨phase', slot'⟩ same
  cases phase <;> cases slot <;> cases phase' <;> cases slot' <;> first | rfl | (exfalso; revert same; decide)

end PhaseName

namespace Phase

/-- The phases of one name, in their order. -/
def under (name : PhaseName) (phases : List Phase) : List Phase := phases.filter (·.name = name)

theorem pairwise_sort (phases : List Phase) : (sort phases).Pairwise (·.name.rank ≤ ·.name.rank) := by
  have ordered : (sort phases).Pairwise fun a b => decide (a.name.rank ≤ b.name.rank) :=
    List.pairwise_mergeSort (fun a b c first second => by simpa using le_trans (by simpa using first) (by simpa using second))
      (fun a b => by simpa using le_total a.name.rank b.name.rank) phases
  exact ordered.imp fun le => by simpa using le

/-- Phases of one name keep their order. -/
theorem under_sort (name : PhaseName) (phases : List Phase) : under name (sort phases) = under name phases := by
  have level : (under name phases).Pairwise fun a b => decide (a.name.rank ≤ b.name.rank) = true := by
    refine List.pairwise_of_forall_mem_list fun a first b second => ?_
    have a' : a.name = name := by simpa using (List.mem_filter.mp first).2
    have b' : b.name = name := by simpa using (List.mem_filter.mp second).2
    simp [a', b']
  have within : (under name phases).Sublist (sort phases) :=
    List.sublist_mergeSort (fun a b c first second => by simpa using le_trans (by simpa using first) (by simpa using second))
      (fun a b => by simpa using le_total a.name.rank b.name.rank) level List.filter_sublist
  have kept : (under name phases).Sublist (under name (sort phases)) := by
    have filtered := within.filter (·.name = name)
    simpa only [under, List.filter_filter, Bool.and_self] using filtered
  have length : (under name phases).length = (under name (sort phases)).length :=
    ((List.mergeSort_perm phases _).filter _).length_eq.symm
  exact (kept.eq_of_length length).symm

/-- A name that comes before all others has no phases. -/
private theorem under_of_lt {name : PhaseName} {first : Phase} {rest : List Phase}
    (ordered : (first :: rest).Pairwise (·.name.rank ≤ ·.name.rank)) (before : name.rank < first.name.rank) :
    under name (first :: rest) = [] := by
  refine List.filter_eq_nil_iff.mpr fun phase member named => ?_
  have named : phase.name = name := by simpa using named
  rcases List.mem_cons.mp member with rfl | later
  · exact absurd before (by simp [named])
  · have above := (List.pairwise_cons.mp ordered).1 phase later
    rw [named] at above
    omega

/-- Phases in the order of their names are determined by those of each name. -/
theorem eq_of_under {phases others : List Phase} (ordered : phases.Pairwise (·.name.rank ≤ ·.name.rank))
    (ordered' : others.Pairwise (·.name.rank ≤ ·.name.rank)) (same : ∀ name, under name phases = under name others) :
    phases = others := by
  induction phases generalizing others with
  | nil =>
    cases others with
    | nil => rfl
    | cons phase rest => simpa [under] using same phase.name
  | cons phase rest ih =>
    cases others with
    | nil => simpa [under] using same phase.name
    | cons other rest' =>
      have own (phase : Phase) (rest : List Phase) : under phase.name (phase :: rest) = phase :: under phase.name rest := by
        simp [under]
      have alike : phase.name = other.name := by
        rcases Nat.lt_trichotomy phase.name.rank other.name.rank with before | level | before
        · have missing := (same phase.name).trans (under_of_lt ordered' before)
          rw [own] at missing
          cases missing
        · exact PhaseName.rank_injective level
        · have missing := (same other.name).symm.trans (under_of_lt ordered before)
          rw [own] at missing
          cases missing
      have heads := same phase.name
      rw [own, alike, own, List.cons.injEq] at heads
      obtain ⟨rfl, _⟩ := heads
      refine congrArg (phase :: ·) (ih (List.pairwise_cons.mp ordered).2 (List.pairwise_cons.mp ordered').2 fun name => ?_)
      have tails := same name
      by_cases here : phase.name = name
      · simpa [under, here] using tails
      · simpa [under, here] using tails

/-- Phases are put in the same order exactly when those of each name are equal. -/
theorem sort_inj {phases others : List Phase} :
    sort phases = sort others ↔ ∀ name, under name phases = under name others := by
  constructor
  · intro same name
    rw [← under_sort, same, under_sort]
  · intro same
    exact eq_of_under (pairwise_sort phases) (pairwise_sort others) fun name => by rw [under_sort, under_sort, same]

end Phase
end Pkgset

import Pkgset.Compose.Machine
import Mathlib.Data.List.Nodup
import Mathlib.Data.List.Perm.Subperm
import Mathlib.Logic.Relation

/-!
# The table of waits

A thread waits for the owner of the definition that it is recorded with. The table is
acyclic if no thread waits for itself through others. A search along the table is
bounded by its size; in an acyclic table the bound is never what ends it, so a wait
is refused exactly when it would close a cycle.
-/

namespace Pkgset.Waiting
open Pkgset.Machine Relation

/-- A table of waits, by the threads that wait. -/
abbrev Table := List (ThreadId × Wait)

/-- A thread is recorded as waiting for what another one computes. -/
def WaitsFor (waits : Table) (id owner : ThreadId) : Prop :=
  ∃ wait, waitOf? waits id = some wait ∧ wait.owner = owner

/-- No thread waits for itself, directly or through others. -/
def Acyclic (waits : Table) : Prop := ∀ id, ¬ TransGen (WaitsFor waits) id id

/-- Every thread has one entry at most. -/
def Single (waits : Table) : Prop := (waits.map (·.1)).Nodup

/-! ### Changing the table -/

/-- The table with the entry of a thread replaced. -/
def record (waits : Table) (id : ThreadId) (wait : Wait) : Table :=
  (id, wait) :: waits.filter fun entry => entry.1 != id

theorem waitOf?_mem {waits : Table} {id : ThreadId} {wait : Wait} (found : waitOf? waits id = some wait) :
    (id, wait) ∈ waits := by
  induction waits with
  | nil => simp [waitOf?] at found
  | cons entry rest ih =>
    obtain ⟨first, other⟩ := entry
    simp only [waitOf?, List.lookup_cons] at found ih
    split at found
    next same =>
      have : id = first := by simpa using same
      simp_all
    next => exact List.mem_cons_of_mem _ (ih found)

theorem waitOf?_of_mem {waits : Table} (single : Single waits) {id : ThreadId} {wait : Wait}
    (member : (id, wait) ∈ waits) : waitOf? waits id = some wait := by
  induction waits with
  | nil => simp at member
  | cons entry rest ih =>
    obtain ⟨first, other⟩ := entry
    obtain ⟨absent, restSingle⟩ := List.nodup_cons.mp single
    rcases List.mem_cons.mp member with same | later
    · cases same
      simp [waitOf?]
    · have differs : id ≠ first := by
        rintro rfl
        exact absent (List.mem_map.mpr ⟨_, later, rfl⟩)
      have unlike : (id == first) = false := beq_eq_false_iff_ne.mpr differs
      simpa [waitOf?, List.lookup_cons, unlike] using ih restSingle later

theorem single_filter {waits : Table} (single : Single waits) (keep : ThreadId × Wait → Bool) :
    Single (waits.filter keep) := single.sublist (List.filter_sublist.map _)

theorem waitOf?_filter {waits : Table} (single : Single waits) (keep : ThreadId × Wait → Bool) (id : ThreadId) :
    waitOf? (waits.filter keep) id = (waitOf? waits id).filter fun wait => keep (id, wait) := by
  apply Option.ext
  intro wait
  rw [Option.filter_eq_some_iff]
  constructor
  · intro found
    obtain ⟨member, kept⟩ := List.mem_filter.mp (waitOf?_mem found)
    exact ⟨waitOf?_of_mem single member, kept⟩
  · rintro ⟨found, kept⟩
    exact waitOf?_of_mem (single_filter single keep) (List.mem_filter.mpr ⟨waitOf?_mem found, kept⟩)

theorem waitOf?_forget {waits : Table} (single : Single waits) (id other : ThreadId) :
    waitOf? (waits.filter fun entry => entry.1 != id) other = if other = id then none else waitOf? waits other := by
  rw [waitOf?_filter single]
  by_cases same : other = id
  · simp [same]
  · cases waitOf? waits other <;> simp [same, Option.filter]

theorem waitOf?_record {waits : Table} (single : Single waits) (id other : ThreadId) (wait : Wait) :
    waitOf? (record waits id wait) other = if other = id then some wait else waitOf? waits other := by
  by_cases same : other = id
  · simp [record, waitOf?, same]
  · have forgotten := waitOf?_forget single id other
    have unlike : (other == id) = false := beq_eq_false_iff_ne.mpr same
    simpa [record, waitOf?, List.lookup_cons, unlike, same] using forgotten

theorem single_record {waits : Table} (single : Single waits) (id : ThreadId) (wait : Wait) :
    Single (record waits id wait) := by
  refine List.nodup_cons.mpr ⟨?_, single_filter single _⟩
  intro member
  obtain ⟨entry, kept, same⟩ := List.mem_map.mp member
  have := (List.mem_filter.mp kept).2
  simp_all

/-! ### Chains of waits -/

theorem WaitsFor.unique {waits : Table} {id first second : ThreadId} (one : WaitsFor waits id first)
    (other : WaitsFor waits id second) : first = second := by
  obtain ⟨wait, found, rfl⟩ := one
  obtain ⟨wait', found', rfl⟩ := other
  rw [found] at found'
  cases found'
  rfl

/-- Distinct threads with entries are no more than the entries. -/
theorem length_le_of_entries {waits : Table} {ids : List ThreadId} (distinct : ids.Nodup)
    (entries : ∀ id ∈ ids, (waitOf? waits id).isSome) : ids.length ≤ waits.length := by
  have within : ids ⊆ waits.map (·.1) := by
    intro id member
    obtain ⟨wait, found⟩ := Option.isSome_iff_exists.mp (entries id member)
    exact List.mem_map.mpr ⟨_, waitOf?_mem found, rfl⟩
  simpa using (distinct.subperm within).length_le

/-- A chain of waits in an acyclic table passes each thread once. -/
theorem Acyclic.nodup {waits : Table} (acyclic : Acyclic waits) {ids : List ThreadId}
    (chain : ids.IsChain (WaitsFor waits)) : ids.Nodup := by
  have ordered : ids.Pairwise (TransGen (WaitsFor waits)) :=
    List.isChain_iff_pairwise.mp (chain.imp fun _ _ edge => TransGen.single edge)
  refine ordered.imp ?_
  rintro id _ path rfl
  exact acyclic id path

/-- A chain of waits in an acyclic table has one thread more than the table has entries, at
    most. -/
theorem Acyclic.length_le {waits : Table} (acyclic : Acyclic waits) {ids : List ThreadId}
    (chain : ids.IsChain (WaitsFor waits)) : ids.length ≤ waits.length + 1 := by
  have entries : ∀ other ∈ ids.dropLast, (waitOf? waits other).isSome := by
    intro other found
    obtain ⟨place, inside, same⟩ := List.mem_iff_getElem.mp found
    rw [List.length_dropLast] at inside
    obtain ⟨wait, entry, _⟩ := List.isChain_iff_getElem.mp chain place (by omega)
    rw [← same, List.getElem_dropLast, entry]
    rfl
  have short := length_le_of_entries ((acyclic.nodup chain).sublist (List.dropLast_sublist _)) entries
  simp only [List.length_dropLast] at short
  omega

/-- If every thread of a set waits for one of the set, the set has chains of any length. -/
theorem exists_chain {waits : Table} {threads : Set ThreadId}
    (stuck : ∀ id ∈ threads, ∃ owner ∈ threads, WaitsFor waits id owner) (bound : Nat) :
    ∀ id ∈ threads, ∃ rest : List ThreadId, rest.length = bound ∧ (id :: rest).IsChain (WaitsFor waits) := by
  induction bound with
  | zero => exact fun id _ => ⟨[], rfl, by simp⟩
  | succ bound ih =>
    intro id member
    obtain ⟨owner, within, edge⟩ := stuck id member
    obtain ⟨rest, length, chain⟩ := ih owner within
    exact ⟨owner :: rest, by simp [length], List.IsChain.cons_cons edge chain⟩

/-- In an acyclic table, some thread of a set that is not empty waits for none of the set. -/
theorem Acyclic.exists_free {waits : Table} (acyclic : Acyclic waits) {threads : Set ThreadId}
    (inhabited : threads.Nonempty) : ∃ id ∈ threads, ∀ owner ∈ threads, ¬ WaitsFor waits id owner := by
  by_contra missing
  have stuck : ∀ id ∈ threads, ∃ owner ∈ threads, WaitsFor waits id owner := by
    intro id member
    by_contra free
    exact missing ⟨id, member, fun owner within edge => free ⟨owner, within, edge⟩⟩
  obtain ⟨id, member⟩ := inhabited
  obtain ⟨rest, length, chain⟩ := exists_chain stuck (waits.length + 1) id member
  have short := acyclic.length_le chain
  simp only [List.length_cons, length] at short
  omega

/-- In an acyclic table, some thread of a set that is not empty is waited for by none of the
    set. -/
theorem Acyclic.exists_unawaited {waits : Table} (acyclic : Acyclic waits) {threads : Set ThreadId}
    (inhabited : threads.Nonempty) : ∃ id ∈ threads, ∀ other ∈ threads, ¬ WaitsFor waits other id := by
  by_contra missing
  have awaited : ∀ id ∈ threads, ∃ other ∈ threads, WaitsFor waits other id := by
    intro id member
    by_contra free
    exact missing ⟨id, member, fun other within edge => free ⟨other, within, edge⟩⟩
  obtain ⟨id, member⟩ := inhabited
  have chains (bound : Nat) :
      ∃ first ∈ threads, ∃ rest : List ThreadId, rest.length = bound ∧ (first :: rest).IsChain (WaitsFor waits) := by
    induction bound with
    | zero => exact ⟨id, member, [], rfl, by simp⟩
    | succ bound ih =>
      obtain ⟨first, within, rest, length, chain⟩ := ih
      obtain ⟨other, inside, edge⟩ := awaited first within
      exact ⟨other, inside, first :: rest, by simp [length], List.IsChain.cons_cons edge chain⟩
  obtain ⟨first, _, rest, length, chain⟩ := chains (waits.length + 1)
  have short := acyclic.length_le chain
  simp only [List.length_cons, length] at short
  omega

/-! ### The search along the table -/

/-- What the search finds is a chain of waits. -/
theorem path_of_trail {waits : Table} {me : ThreadId} {bound : Nat} {id : ThreadId} {hops : List SlotId}
    (found : trail waits me bound id = some hops) : TransGen (WaitsFor waits) id me := by
  induction bound generalizing id hops with
  | zero => simp [trail] at found
  | succ bound ih =>
    simp only [trail] at found
    cases entry : waitOf? waits id with
    | none => simp [entry] at found
    | some wait =>
      by_cases back : wait.owner = me
      · exact TransGen.single ⟨wait, entry, back⟩
      · simp only [entry, back, ↓reduceIte, Option.map_eq_some_iff] at found
        obtain ⟨later, more, _⟩ := found
        exact TransGen.head ⟨wait, entry, rfl⟩ (ih more)

/-- A search that does not find the way there has gone as far as its bound allows. -/
theorem chain_of_trail_eq_none {waits : Table} {me : ThreadId} {bound : Nat} {id : ThreadId}
    (missed : trail waits me bound id = none) (path : TransGen (WaitsFor waits) id me) :
    ∃ rest : List ThreadId, rest.length = bound ∧ (id :: rest).IsChain (WaitsFor waits) := by
  induction bound generalizing id with
  | zero => exact ⟨[], rfl, by simp⟩
  | succ bound ih =>
    obtain ⟨owner, ⟨wait, entry, rfl⟩, onwards⟩ := TransGen.head'_iff.mp path
    simp only [trail, entry] at missed
    have further : wait.owner ≠ me := by
      intro back
      simp [back] at missed
    simp only [further, ↓reduceIte, Option.map_eq_none_iff] at missed
    have path' : TransGen (WaitsFor waits) wait.owner me := by
      rcases reflTransGen_iff_eq_or_transGen.mp onwards with same | path
      · exact absurd same.symm further
      · exact path
    obtain ⟨rest, length, chain⟩ := ih missed path'
    exact ⟨wait.owner :: rest, by simp [length], List.IsChain.cons_cons ⟨wait, entry, rfl⟩ chain⟩

/-- In an acyclic table, the search finds every way there is. -/
theorem Acyclic.trail_isSome_iff {waits : Table} (acyclic : Acyclic waits) (me id : ThreadId) :
    (trail waits me (waits.length + 1) id).isSome ↔ TransGen (WaitsFor waits) id me := by
  constructor
  · intro found
    obtain ⟨hops, same⟩ := Option.isSome_iff_exists.mp found
    exact path_of_trail same
  · intro path
    by_contra missed
    have nothing : trail waits me (waits.length + 1) id = none := by simpa using missed
    obtain ⟨rest, length, chain⟩ := chain_of_trail_eq_none nothing path
    have short := acyclic.length_le chain
    simp only [List.length_cons, length] at short
    omega

/-! ### Closing a cycle -/

/-- What can be reached with one more wait: what could be before, or what can be
    reached from the owner if its thread can be reached. -/
theorem path_record {waits : Table} (single : Single waits) {me : ThreadId} {wait : Wait} {start target : ThreadId}
    (path : TransGen (WaitsFor (record waits me wait)) start target) :
    TransGen (WaitsFor waits) start target ∨
      ReflTransGen (WaitsFor waits) start me ∧ ReflTransGen (WaitsFor waits) wait.owner target := by
  have edge_cases {one other : ThreadId} (edge : WaitsFor (record waits me wait) one other) :
      one = me ∧ wait.owner = other ∨ WaitsFor waits one other := by
    obtain ⟨entry, found, owner⟩ := edge
    rw [waitOf?_record single] at found
    by_cases same : one = me
    · simp only [same, ↓reduceIte, Option.some.injEq] at found
      exact Or.inl ⟨same, found ▸ owner⟩
    · simp only [same, ↓reduceIte] at found
      exact Or.inr ⟨entry, found, owner⟩
  induction path with
  | single edge =>
    rcases edge_cases edge with ⟨rfl, rfl⟩ | old
    · exact Or.inr ⟨.refl, .refl⟩
    · exact Or.inl (.single old)
  | tail _ edge ih =>
    rcases edge_cases edge with ⟨rfl, rfl⟩ | old
    · rcases ih with before | ⟨before, _⟩
      · exact Or.inr ⟨before.to_reflTransGen, .refl⟩
      · exact Or.inr ⟨before, .refl⟩
    · rcases ih with before | ⟨before, after⟩
      · exact Or.inl (before.tail old)
      · exact Or.inr ⟨before, after.tail old⟩

/-- A wait closes a cycle exactly when its owner waits for the thread, or is the thread. -/
theorem acyclic_record_iff {waits : Table} (single : Single waits) (acyclic : Acyclic waits) {me : ThreadId}
    (free : waitOf? waits me = none) (wait : Wait) :
    Acyclic (record waits me wait) ↔ ¬ ReflTransGen (WaitsFor waits) wait.owner me := by
  constructor
  · intro still path
    have grows {one other : ThreadId} (edge : WaitsFor waits one other) : WaitsFor (record waits me wait) one other := by
      obtain ⟨entry, found, owner⟩ := edge
      have differs : one ≠ me := by
        rintro rfl
        simp [free] at found
      exact ⟨entry, by simp [waitOf?_record single, differs, found], owner⟩
    have back : ReflTransGen (WaitsFor (record waits me wait)) wait.owner me := ReflTransGen.mono (fun _ _ => grows) _ _ path
    exact still me (TransGen.head' ⟨wait, by simp [waitOf?_record single], rfl⟩ back)
  · intro apart id cycle
    rcases path_record single cycle with old | ⟨before, after⟩
    · exact acyclic id old
    · exact apart (after.trans before)

/-- Taking entries out of the table closes no cycle. -/
theorem Acyclic.filter {waits : Table} (single : Single waits) (acyclic : Acyclic waits)
    (keep : ThreadId × Wait → Bool) : Acyclic (waits.filter keep) := by
  intro id cycle
  refine acyclic id (TransGen.mono ?_ _ _ cycle)
  rintro one other ⟨entry, found, owner⟩
  rw [waitOf?_filter single, Option.filter_eq_some_iff] at found
  exact ⟨entry, found.1, owner⟩

/-- A wait for another thread is refused exactly when it would close a cycle. -/
theorem closing?_isSome_iff {waits : Table} (single : Single waits) (acyclic : Acyclic waits) {me owner : ThreadId}
    (free : waitOf? waits me = none) (other : owner ≠ me) (slot : SlotId) :
    (closing? waits me owner slot).isSome ↔ ¬ Acyclic (record waits me ⟨slot, owner⟩) := by
  rw [acyclic_record_iff single acyclic free, not_not, reflTransGen_iff_eq_or_transGen]
  simp only [closing?, Option.isSome_map, acyclic.trail_isSome_iff]
  constructor
  · exact Or.inr
  · rintro (same | path)
    · exact absurd same.symm other
    · exact path

end Pkgset.Waiting

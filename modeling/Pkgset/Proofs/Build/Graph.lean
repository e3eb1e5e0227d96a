import Pkgset.Build.Graph
import Mathlib.Data.List.Nodup
import Mathlib.Data.List.Perm.Subperm
import Mathlib.Data.Set.Finite.Lemmas
import Mathlib.Data.Set.Finite.List

/-!
# Graphs of derivations

The graph of some roots has one node for each fingerprint, and the inputs of its nodes
are nodes. An order with the inputs first carries inductions from inputs to what is
made of them; the layers of a graph, one after another, are such an order.
-/

namespace Pkgset.BuildGraph

/-! ### Fingerprints without repetitions -/

private theorem distinct_foldl (found fingerprints : List Fingerprint) (once : found.Nodup) :
    (fingerprints.foldl (fun found fingerprint =>
      if found.contains fingerprint then found else found ++ [fingerprint]) found).Nodup ∧
    ∀ fingerprint, fingerprint ∈ (fingerprints.foldl (fun found fingerprint =>
      if found.contains fingerprint then found else found ++ [fingerprint]) found) ↔
        fingerprint ∈ found ∨ fingerprint ∈ fingerprints := by
  induction fingerprints generalizing found with
  | nil => simpa using once
  | cons first rest ih =>
    by_cases known : first ∈ found
    · obtain ⟨nodup, members⟩ := ih found once
      simp only [List.foldl_cons, List.contains_iff_mem, known, ↓reduceIte] at nodup members ⊢
      refine ⟨nodup, fun fingerprint => ?_⟩
      rw [members, List.mem_cons]
      constructor
      · rintro (old | later)
        · exact Or.inl old
        · exact Or.inr (Or.inr later)
      · rintro (old | rfl | later)
        · exact Or.inl old
        · exact Or.inl known
        · exact Or.inr later
    · have larger : (found ++ [first]).Nodup := by
        simp [List.nodup_append, once]
        rintro fingerprint member rfl
        exact known member
      obtain ⟨nodup, members⟩ := ih _ larger
      simp only [List.foldl_cons, List.contains_iff_mem, known, ↓reduceIte] at nodup members ⊢
      refine ⟨nodup, fun fingerprint => ?_⟩
      rw [members]
      simp [or_assoc]

theorem nodup_distinct (fingerprints : List Fingerprint) : (distinct fingerprints).Nodup :=
  (distinct_foldl [] fingerprints List.nodup_nil).1

theorem mem_distinct {fingerprints : List Fingerprint} {fingerprint : Fingerprint} :
    fingerprint ∈ distinct fingerprints ↔ fingerprint ∈ fingerprints :=
  ((distinct_foldl [] fingerprints List.nodup_nil).2 fingerprint).trans (by simp)

theorem mem_inputsOf {node : Derivation} {fingerprint : Fingerprint} :
    fingerprint ∈ inputsOf node ↔ ∃ input ∈ node.inputs, input.fingerprint = fingerprint := by
  simp [inputsOf, mem_distinct]

/-! ### Nodes -/

theorem found_iff {nodes : List Derivation} {fingerprint : Fingerprint} :
    found nodes fingerprint = true ↔ ∃ node ∈ nodes, node.fingerprint = fingerprint := by simp [found]

/-- One node for each fingerprint, and the inputs of nodes are nodes. -/
structure Closed (graph : BuildGraph) : Prop where
  distinct : (graph.nodes.map (·.fingerprint)).Nodup
  inputs : ∀ node ∈ graph.nodes, ∀ input ∈ node.inputs, graph.contains input.fingerprint = true

section
variable {graph : BuildGraph} {fingerprint other : Fingerprint} {node : Derivation}

theorem find?_some (known : graph.find? fingerprint = some node) :
    node ∈ graph.nodes ∧ node.fingerprint = fingerprint :=
  ⟨List.mem_of_find?_eq_some known, by simpa using List.find?_some known⟩

theorem contains_iff : graph.contains fingerprint = true ↔ ∃ node, graph.find? fingerprint = some node := by
  rw [contains, found_iff]
  constructor
  · rintro ⟨node, member, same⟩
    apply Option.isSome_iff_exists.mp
    simp only [find?, List.find?_isSome]
    exact ⟨node, member, by simpa using same⟩
  · rintro ⟨node, known⟩
    exact ⟨node, find?_some known⟩

theorem Closed.find?_of_mem (closed : graph.Closed) (member : node ∈ graph.nodes) :
    graph.find? node.fingerprint = some node := by
  obtain ⟨twin, known⟩ := contains_iff.mp (found_iff.mpr ⟨node, member, rfl⟩)
  obtain ⟨within, same⟩ := find?_some known
  rw [known, List.inj_on_of_nodup_map closed.distinct within member same]

theorem mem_dependencies (known : graph.find? fingerprint = some node) :
    other ∈ graph.dependencies fingerprint ↔ ∃ input ∈ node.inputs, input.fingerprint = other := by
  simp [dependencies, known, mem_inputsOf]

theorem nodup_dependencies (graph : BuildGraph) (fingerprint : Fingerprint) :
    (graph.dependencies fingerprint).Nodup := by
  unfold dependencies
  split
  · exact nodup_distinct _
  · exact List.nodup_nil

theorem contains_of_mem_dependencies (member : other ∈ graph.dependencies fingerprint) :
    graph.contains fingerprint = true := by
  unfold dependencies at member
  split at member
  next node known => exact contains_iff.mpr ⟨node, known⟩
  next => simp at member

theorem Closed.contains_dependency (closed : graph.Closed) (member : other ∈ graph.dependencies fingerprint) :
    graph.contains other = true := by
  obtain ⟨node, known⟩ := contains_iff.mp (contains_of_mem_dependencies member)
  obtain ⟨input, declared, rfl⟩ := (mem_dependencies known).mp member
  exact closed.inputs node (find?_some known).1 input declared

theorem Closed.mem_dependents (closed : graph.Closed) :
    other ∈ graph.dependents fingerprint ↔ fingerprint ∈ graph.dependencies other := by
  simp only [dependents, List.mem_map, List.mem_filter, List.contains_iff_mem]
  constructor
  · rintro ⟨node, ⟨member, uses⟩, rfl⟩
    simpa [dependencies, closed.find?_of_mem member] using uses
  · intro uses
    obtain ⟨node, known⟩ := contains_iff.mp (contains_of_mem_dependencies uses)
    obtain ⟨member, same⟩ := find?_some known
    exact ⟨node, ⟨member, by simpa [dependencies, known] using uses⟩, same⟩

theorem Closed.nodup_dependents (closed : graph.Closed) (fingerprint : Fingerprint) :
    (graph.dependents fingerprint).Nodup := closed.distinct.sublist (List.filter_sublist.map _)

end

/-! ### The graph of some roots -/

/-- What going through some derivations adds to the nodes: those and all their inputs,
    one node for each fingerprint. -/
private structure Grown (nodes larger through : List Derivation) : Prop where
  kept : ∀ node ∈ nodes, node ∈ larger
  distinct : (nodes.map (·.fingerprint)).Nodup → (larger.map (·.fingerprint)).Nodup
  reached : ∀ derivation ∈ through, found larger derivation.fingerprint = true
  closed : ∀ node ∈ larger, node ∈ nodes ∨ ∀ input ∈ node.inputs, found larger input.fingerprint = true

private theorem Grown.found {nodes larger through : List Derivation} (grown : Grown nodes larger through)
    {fingerprint : Fingerprint} (known : found nodes fingerprint = true) : found larger fingerprint = true := by
  obtain ⟨node, member, same⟩ := found_iff.mp known
  exact found_iff.mpr ⟨node, grown.kept node member, same⟩

mutual

private theorem visit_grown (nodes : List Derivation) (derivation : Derivation) :
    Grown nodes (visit nodes derivation) [derivation] := by
  match derivation with
  | .mk name platforms inputs phases outputs fingerprint =>
    rw [visit]
    by_cases known : found nodes fingerprint
    · simp only [known, ↓reduceIte]
      refine ⟨fun _ => id, id, ?_, fun node => Or.inl⟩
      intro derivation member
      rw [List.mem_singleton.mp member]
      exact known
    · simp only [known, Bool.false_eq_true, ↓reduceIte]
      have grown := visitAll_grown (nodes ++ [.mk name platforms inputs phases outputs fingerprint]) inputs
      refine ⟨fun node member => grown.kept node (by simp [member]), ?_, ?_, ?_⟩
      · intro once
        apply grown.distinct
        rw [List.map_append, List.nodup_append]
        refine ⟨once, by simp, ?_⟩
        intro first member second single same
        apply known
        obtain ⟨node, inside, rfl⟩ := List.mem_map.mp member
        exact found_iff.mpr ⟨node, inside, same.trans (List.mem_singleton.mp single)⟩
      · intro derivation member
        rw [List.mem_singleton.mp member]
        exact grown.found (by simp [BuildGraph.found, Derivation.fingerprint])
      · intro node member
        rcases grown.closed node member with before | inputsFound
        · rcases List.mem_append.mp before with old | new
          · exact Or.inl old
          · rw [List.mem_singleton.mp new]
            exact Or.inr grown.reached
        · exact Or.inr inputsFound

private theorem visitAll_grown (nodes through : List Derivation) :
    Grown nodes (visitAll nodes through) through := by
  match through with
  | [] => exact ⟨fun _ => id, id, by simp, fun node => Or.inl⟩
  | first :: rest =>
    rw [visitAll]
    have one := visit_grown nodes first
    have more := visitAll_grown (visit nodes first) rest
    refine ⟨fun node member => more.kept node (one.kept node member), fun once => more.distinct (one.distinct once),
      ?_, ?_⟩
    · intro derivation member
      rcases List.mem_cons.mp member with rfl | later
      · exact more.found (one.reached derivation (by simp))
      · exact more.reached derivation later
    · intro node member
      rcases more.closed node member with before | inputsFound
      · rcases one.closed node before with old | inputsFound
        · exact Or.inl old
        · exact Or.inr fun input declared => more.found (inputsFound input declared)
      · exact Or.inr inputsFound

end

theorem closed_ofRoots (roots : List Derivation) : (ofRoots roots).Closed := by
  have grown := visitAll_grown [] roots
  refine ⟨grown.distinct List.nodup_nil, fun node member input declared => ?_⟩
  rcases grown.closed node member with absurd | inputsFound
  · simp at absurd
  · exact inputsFound input declared

/-- What some roots need: the roots, and the inputs of all that they need. -/
inductive Needed (roots : List Derivation) : Derivation → Prop where
  | root {node : Derivation} (member : node ∈ roots) : Needed roots node
  | input {node input : Derivation} (needed : Needed roots node) (declared : input ∈ node.inputs) : Needed roots input

/-- Derivations of one fingerprint have inputs of the same fingerprints, as they do if a
    fingerprint is a digest of a recipe that names the inputs by theirs. -/
def Coherent (roots : List Derivation) : Prop :=
  ∀ node twin, Needed roots node → Needed roots twin → node.fingerprint = twin.fingerprint →
    ∀ input ∈ node.inputs, ∃ other ∈ twin.inputs, other.fingerprint = input.fingerprint

section
variable {roots : List Derivation}

mutual

private theorem visit_needed {nodes : List Derivation} (known : ∀ node ∈ nodes, Needed roots node)
    (derivation : Derivation) (needed : Needed roots derivation) :
    ∀ node ∈ visit nodes derivation, Needed roots node := by
  match derivation with
  | .mk name platforms inputs phases outputs fingerprint =>
    rw [visit]
    split
    · exact known
    · refine visitAll_needed ?_ inputs fun input declared => .input needed declared
      intro node member
      rcases List.mem_append.mp member with old | new
      · exact known node old
      · rw [List.mem_singleton.mp new]
        exact needed

private theorem visitAll_needed {nodes : List Derivation} (known : ∀ node ∈ nodes, Needed roots node)
    (through : List Derivation) (needed : ∀ derivation ∈ through, Needed roots derivation) :
    ∀ node ∈ visitAll nodes through, Needed roots node := by
  match through with
  | [] => exact known
  | first :: rest =>
    rw [visitAll]
    exact visitAll_needed (visit_needed known first (needed first (by simp))) rest
      fun derivation member => needed derivation (List.mem_cons_of_mem _ member)

end

theorem needed_of_mem {node : Derivation} (member : node ∈ (ofRoots roots).nodes) : Needed roots node :=
  visitAll_needed (by simp) roots (fun _ => .root) node member

/-- The graph of some roots has the fingerprints of what they need. -/
theorem contains_ofRoots_iff (coherent : Coherent roots) {fingerprint : Fingerprint} :
    (ofRoots roots).contains fingerprint = true ↔ ∃ node, Needed roots node ∧ node.fingerprint = fingerprint := by
  constructor
  · intro within
    obtain ⟨node, member, same⟩ := found_iff.mp within
    exact ⟨node, needed_of_mem member, same⟩
  · rintro ⟨node, needed, rfl⟩
    induction needed with
    | root member => exact (visitAll_grown [] roots).reached _ member
    | @input node input needed declared ih =>
      obtain ⟨twin, member, same⟩ := found_iff.mp ih
      obtain ⟨other, declared', alike⟩ := coherent node twin needed (needed_of_mem member) same.symm input declared
      rw [← alike]
      exact (closed_ofRoots roots).inputs twin member other declared'

end

theorem Closed.perm {graph other : BuildGraph} (closed : other.Closed) (perm : graph.nodes.Perm other.nodes) :
    graph.Closed := by
  refine ⟨(perm.map _).nodup_iff.mpr closed.distinct, fun node member input declared => ?_⟩
  obtain ⟨twin, within, same⟩ := found_iff.mp (closed.inputs node (perm.mem_iff.mp member) input declared)
  exact found_iff.mpr ⟨twin, perm.mem_iff.mpr within, same⟩

theorem Closed.find?_perm {graph other : BuildGraph} (closed : other.Closed) (perm : graph.nodes.Perm other.nodes)
    (fingerprint : Fingerprint) : graph.find? fingerprint = other.find? fingerprint := by
  cases known : other.find? fingerprint with
  | some node =>
    obtain ⟨member, rfl⟩ := find?_some known
    exact (closed.perm perm).find?_of_mem (perm.mem_iff.mpr member)
  | none =>
    by_contra present
    obtain ⟨node, found⟩ := Option.ne_none_iff_exists'.mp present
    obtain ⟨member, rfl⟩ := find?_some found
    rw [closed.find?_of_mem (perm.mem_iff.mp member)] at known
    cases known

theorem Closed.dependencies_perm {graph other : BuildGraph} (closed : other.Closed)
    (perm : graph.nodes.Perm other.nodes) (fingerprint : Fingerprint) :
    graph.dependencies fingerprint = other.dependencies fingerprint := by
  simp only [dependencies, closed.find?_perm perm]

/-! ### Orders with the inputs first -/

/-- An order has every node once, after its inputs. -/
structure InputsFirst (graph : BuildGraph) (order : List Fingerprint) : Prop where
  nodup : order.Nodup
  covers : ∀ fingerprint, fingerprint ∈ order ↔ graph.contains fingerprint = true
  first : ∀ before fingerprint after, order = before ++ fingerprint :: after →
    ∀ input ∈ graph.dependencies fingerprint, input ∈ before

/-- An order has the inputs first if it lists the nodes so that the inputs of each are
    among those listed before. -/
theorem Closed.inputsFirst_of_perm {graph : BuildGraph} (closed : graph.Closed) {order : List Fingerprint}
    (perm : order.Perm (graph.nodes.map (·.fingerprint)))
    (first : ∀ place (inside : place < order.length), ∀ input ∈ graph.dependencies order[place],
      input ∈ order.take place) : graph.InputsFirst order := by
  refine ⟨perm.nodup_iff.mpr closed.distinct, fun fingerprint => ?_, ?_⟩
  · simp [perm.mem_iff, contains, found_iff]
  · rintro before fingerprint after rfl input uses
    have inside : before.length < (before ++ fingerprint :: after).length := by simp
    simpa using first before.length inside input (by simpa using uses)

/-- What holds of a node whenever it holds of its inputs holds of every node. -/
theorem InputsFirst.induction {graph : BuildGraph} {order : List Fingerprint} (inputsFirst : graph.InputsFirst order)
    {P : Fingerprint → Prop}
    (step : ∀ fingerprint, graph.contains fingerprint = true →
      (∀ input ∈ graph.dependencies fingerprint, P input) → P fingerprint)
    (fingerprint : Fingerprint) (within : graph.contains fingerprint = true) : P fingerprint := by
  -- Every initial part of the order is gone through from its start.
  have initial (length : Nat) : ∀ fingerprint ∈ order.take length, P fingerprint := by
    induction length with
    | zero => simp
    | succ length ih =>
      intro fingerprint member
      rcases Nat.lt_or_ge length order.length with inside | outside
      · rw [List.take_succ_eq_append_getElem inside] at member
        rcases List.mem_append.mp member with earlier | last
        · exact ih fingerprint earlier
        · rw [List.mem_singleton.mp last]
          have split : order = order.take length ++ order[length] :: order.drop (length + 1) := by simp
          exact step _ ((inputsFirst.covers _).mp (List.getElem_mem inside))
            fun input uses => ih input (inputsFirst.first _ _ _ split input uses)
      · rw [List.take_of_length_le (by omega)] at member
        rw [List.take_of_length_le outside] at ih
        exact ih fingerprint member
  have member := (inputsFirst.covers fingerprint).mpr within
  exact initial order.length fingerprint (by simpa using member)

/-- The fingerprints of the derivations that are ready, in ascending order. -/
def firstLayer (remaining : List Derivation) : List Fingerprint :=
  ((ready remaining).map (·.fingerprint)).mergeSort Fingerprint.le

/-- What remains after the first layer. -/
def afterFirst (remaining : List Derivation) : List Derivation :=
  remaining.filter fun node => !(firstLayer remaining).contains node.fingerprint

/-- Where some derivations are ready they are the first layer, and the others follow. -/
theorem layers_of_ready {bound : Nat} {remaining : List Derivation} (inhabited : ready remaining ≠ []) :
    layers (bound + 1) remaining = (layers bound (afterFirst remaining)).map (firstLayer remaining :: ·) := by
  cases remaining with
  | nil => exact absurd rfl inhabited
  | cons node others =>
    have filled : (ready (node :: others)).isEmpty = false := by simpa using inhabited
    simp only [layers, filled, firstLayer, afterFirst]
    rfl

/-- Where none is ready there are no layers. -/
theorem layers_of_stuck {bound : Nat} {remaining : List Derivation} (inhabited : remaining ≠ [])
    (none : ready remaining = []) : layers bound remaining = .error .cycle := by
  cases remaining with
  | nil => exact absurd rfl inhabited
  | cons node others =>
    cases bound with
    | zero => rfl
    | succ bound =>
      simp only [layers, none]
      rfl

theorem layers_succ {bound : Nat} {remaining : List Derivation} {made : List (List Fingerprint)}
    (inhabited : remaining ≠ []) (finished : layers (bound + 1) remaining = .ok made) :
    ready remaining ≠ [] ∧
      ∃ later, layers bound (afterFirst remaining) = .ok later ∧ made = firstLayer remaining :: later := by
  by_cases none : ready remaining = []
  · rw [layers_of_stuck inhabited none] at finished
    cases finished
  · rw [layers_of_ready none] at finished
    cases rest : layers bound (afterFirst remaining) with
    | error error =>
      rw [rest] at finished
      cases finished
    | ok later =>
      rw [rest] at finished
      exact ⟨none, later, rfl, (Except.ok.inj finished).symm⟩

theorem mem_firstLayer {remaining : List Derivation} (once : (remaining.map (·.fingerprint)).Nodup)
    {node : Derivation} (member : node ∈ remaining) :
    node.fingerprint ∈ firstLayer remaining ↔ ∀ input ∈ inputsOf node, ¬ found remaining input = true := by
  have isReady : node ∈ ready remaining ↔ ∀ input ∈ inputsOf node, ¬ found remaining input = true := by
    simp [ready, member]
  rw [firstLayer, List.mem_mergeSort, List.mem_map, ← isReady]
  constructor
  · rintro ⟨twin, twinReady, same⟩
    have within : twin ∈ remaining := List.mem_of_mem_filter twinReady
    rwa [← List.inj_on_of_nodup_map once within member same]
  · exact fun nodeReady => ⟨node, nodeReady, rfl⟩

theorem firstLayer_perm {remaining : List Derivation} (once : (remaining.map (·.fingerprint)).Nodup) :
    (firstLayer remaining ++ (afterFirst remaining).map (·.fingerprint)).Perm (remaining.map (·.fingerprint)) := by
  have same : ready remaining = remaining.filter fun node => (firstLayer remaining).contains node.fingerprint := by
    refine List.filter_congr fun node member => ?_
    rw [Bool.eq_iff_iff, List.contains_iff_mem, mem_firstLayer once member]
    simp
  have sorted : (firstLayer remaining).Perm ((ready remaining).map (·.fingerprint)) := List.mergeSort_perm _ _
  refine (sorted.append_right _).trans ?_
  rw [same, afterFirst, ← List.map_append]
  exact (List.filter_append_perm _ remaining).map _

private theorem layers_spec (bound : Nat) {remaining : List Derivation}
    (once : (remaining.map (·.fingerprint)).Nodup) {made : List (List Fingerprint)}
    (finished : layers bound remaining = .ok made) :
    made.flatten.Perm (remaining.map (·.fingerprint)) ∧
    ∀ before fingerprint after, made.flatten = before ++ fingerprint :: after →
      ∀ node ∈ remaining, node.fingerprint = fingerprint →
        ∀ input ∈ inputsOf node, found remaining input = true → input ∈ before := by
  induction bound generalizing remaining made with
  | zero =>
    cases remaining with
    | nil =>
      cases finished
      simp
    | cons node rest => simp [layers] at finished
  | succ bound ih =>
    by_cases inhabited : remaining = []
    · subst inhabited
      cases finished
      simp
    · obtain ⟨_, later, rest, rfl⟩ := layers_succ inhabited finished
      have perm := firstLayer_perm once
      have onceLater : ((afterFirst remaining).map (·.fingerprint)).Nodup := once.sublist (List.filter_sublist.map _)
      obtain ⟨permLater, firstLater⟩ := ih onceLater rest
      rw [List.flatten_cons]
      refine ⟨(permLater.append_left _).trans perm, ?_⟩
      intro before fingerprint after split node member same input uses known
      have notFirst : node.fingerprint ∉ firstLayer remaining := fun inFirst =>
        (mem_firstLayer once member).mp inFirst input uses known
      -- The node is in a later layer, so the first layer comes before it as a whole.
      obtain ⟨between, rfl, splitLater⟩ : ∃ between, before = firstLayer remaining ++ between ∧
          later.flatten = between ++ fingerprint :: after := by
        rcases List.append_eq_append_iff.mp split with ⟨between, whole, rest⟩ | ⟨between, whole, rest⟩
        · exact ⟨between, whole, rest⟩
        · cases between with
          | nil => exact ⟨[], by simpa using whole.symm, by simpa using rest.symm⟩
          | cons head tail =>
            obtain ⟨rfl, _⟩ := List.cons.inj rest
            exact absurd (by simp [whole, same]) notFirst
      obtain ⟨twin, within, rfl⟩ := found_iff.mp known
      by_cases inFirst : twin.fingerprint ∈ firstLayer remaining
      · exact List.mem_append_left _ inFirst
      · have remains : twin ∈ afterFirst remaining := by simp [afterFirst, within, inFirst]
        have nodeRemains : node ∈ afterFirst remaining := by simp [afterFirst, member, notFirst]
        exact List.mem_append_right _ (firstLater between fingerprint after splitLater node nodeRemains same _ uses
          (found_iff.mpr ⟨twin, remains, rfl⟩))

/-- What is ready does not remain. -/
theorem length_afterFirst {remaining : List Derivation} (isReady : ready remaining ≠ []) :
    (afterFirst remaining).length < remaining.length := by
  obtain ⟨node, member⟩ := List.exists_mem_of_ne_nil _ isReady
  refine List.length_filter_lt_length_iff_exists.mpr ⟨node, List.mem_of_mem_filter member, ?_⟩
  simpa [firstLayer] using ⟨node, member, rfl⟩

/-- A layer that is in order already is the first, if the others follow. -/
theorem layers_of_sorted {bound : Nat} {remaining next : List Derivation} {later : List (List Fingerprint)}
    (first : ready remaining = next) (inhabited : next ≠ [])
    (sorted : (next.map (·.fingerprint)).Pairwise fun one other => Fingerprint.le one other = true)
    (rest : layers bound (remaining.filter fun node => !(next.map (·.fingerprint)).contains node.fingerprint) = .ok later) :
    layers (bound + 1) remaining = .ok (next.map (·.fingerprint) :: later) := by
  subst first
  have alike : firstLayer remaining = (ready remaining).map (·.fingerprint) := List.mergeSort_of_pairwise sorted
  rw [← alike] at rest ⊢
  rw [layers_of_ready inhabited, afterFirst, rest]
  rfl

/-- If a rank falls from what remains to the inputs of it that remain, there are layers. -/
theorem exists_layers {bound : Nat} {remaining : List Derivation} (once : (remaining.map (·.fingerprint)).Nodup)
    (rank : Fingerprint → Nat) (falls : ∀ node ∈ remaining, ∀ input ∈ inputsOf node, found remaining input = true →
      rank input < rank node.fingerprint)
    (short : remaining.length ≤ bound) : ∃ made, layers bound remaining = .ok made := by
  induction bound generalizing remaining with
  | zero =>
    obtain rfl := List.length_eq_zero_iff.mp (Nat.le_zero.mp short)
    exact ⟨[], by simp [layers]⟩
  | succ bound ih =>
    by_cases inhabited : remaining = []
    · exact ⟨[], by simp [inhabited, layers]⟩
    · -- a derivation of the least rank is ready
      obtain ⟨node, member, least⟩ := Set.exists_min_image {node | node ∈ remaining} (fun node => rank node.fingerprint)
        remaining.finite_toSet (List.exists_mem_of_ne_nil remaining inhabited)
      have isFirst : node.fingerprint ∈ firstLayer remaining := by
        refine (mem_firstLayer once member).mpr fun input uses known => ?_
        obtain ⟨twin, within, rfl⟩ := found_iff.mp known
        exact absurd (falls node member _ uses known) (Nat.not_lt.mpr (least twin within))
      have isReady : ready remaining ≠ [] := fun none => by simp [firstLayer, none] at isFirst
      have fewer := length_afterFirst isReady
      have onceLater : ((afterFirst remaining).map (·.fingerprint)).Nodup := once.sublist (List.filter_sublist.map _)
      obtain ⟨later, rest⟩ := ih onceLater (fun node member input uses known => by
        obtain ⟨twin, within, rfl⟩ := found_iff.mp known
        exact falls node (List.mem_of_mem_filter member) _ uses
          (found_iff.mpr ⟨twin, List.mem_of_mem_filter within, rfl⟩)) (by omega)
      exact ⟨firstLayer remaining :: later, by rw [layers_of_ready isReady, rest]; rfl⟩

/-- The layers of a graph, one after another, have the inputs first. -/
theorem Closed.inputsFirst_topological {graph : BuildGraph} (closed : graph.Closed) {order : List Fingerprint}
    (sorted : graph.topological = .ok order) : graph.InputsFirst order := by
  unfold topological waves at sorted
  cases made : layers graph.size graph.nodes with
  | error error => simp [made, Except.map] at sorted
  | ok found =>
    simp only [made, Except.map, Except.ok.injEq] at sorted
    subst sorted
    obtain ⟨perm, first⟩ := layers_spec _ closed.distinct made
    refine ⟨perm.nodup_iff.mpr closed.distinct, ?_, ?_⟩
    · intro fingerprint
      simp [perm.mem_iff, contains, found_iff]
    · intro before fingerprint after split input uses
      obtain ⟨node, known⟩ := contains_iff.mp (contains_of_mem_dependencies uses)
      obtain ⟨member, same⟩ := find?_some known
      refine first before fingerprint after split node member same input ?_ (closed.contains_dependency uses)
      simpa [dependencies, known] using uses

end Pkgset.BuildGraph

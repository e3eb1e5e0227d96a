import Pkgset.Proofs.Build.Planning
import Mathlib.Data.Finset.Card
import Mathlib.Data.Fintype.Card
import Mathlib.Logic.Relation

/-!
# Waves

The waves of a graph lay its nodes out by height: a node without inputs is in the first
wave, and any other one wave above the highest of its inputs. So there are as many waves
as the longest chain of inputs has nodes, and a graph has waves unless its inputs form a
cycle. Counting inputs down makes the same waves in whatever order the nodes of a wave are
visited: what is counted for a node is how many of its inputs are left.
-/

namespace Pkgset

theorem Fingerprint.le_trans {one other third : Fingerprint} (first : le one other = true) (second : le other third = true) :
    le one third = true :=
  decide_eq_true (String.le_trans (of_decide_eq_true first) (of_decide_eq_true second))

theorem Fingerprint.le_total (one other : Fingerprint) : (le one other || le other one) = true := by
  simpa [le] using String.le_total one.text other.text

theorem Fingerprint.le_antisymm {one other : Fingerprint} (first : le one other = true) (second : le other one = true) :
    one = other := by
  have texts : one.text = other.text := String.le_antisymm (of_decide_eq_true first) (of_decide_eq_true second)
  cases one
  exact congrArg mk texts

theorem Fingerprint.pairwise_mergeSort (fingerprints : List Fingerprint) :
    (fingerprints.mergeSort le).Pairwise fun one other => le one other = true := by
  refine List.pairwise_mergeSort ?_ le_total fingerprints
  exact fun _ _ _ => le_trans

/-- Fingerprints have one order. -/
theorem Fingerprint.mergeSort_eq {fingerprints others : List Fingerprint} (perm : fingerprints.Perm others) :
    fingerprints.mergeSort le = others.mergeSort le := by
  have same := (List.mergeSort_perm fingerprints le).trans (perm.trans (List.mergeSort_perm others le).symm)
  refine List.Perm.eq_of_pairwise ?_ (pairwise_mergeSort _) (pairwise_mergeSort _) same
  exact fun _ _ _ _ => le_antisymm

namespace BuildGraph
variable {graph : BuildGraph} {waves : List (List Fingerprint)} {fingerprint other : Fingerprint}

/-! ### Heights -/

/-- The place of the wave that has a fingerprint. -/
def waveOf (waves : List (List Fingerprint)) (fingerprint : Fingerprint) : Nat := waves.findIdx (·.contains fingerprint)

/-- Waves lay a graph out by height. -/
structure LaysOut (graph : BuildGraph) (waves : List (List Fingerprint)) : Prop where
  once : waves.flatten.Nodup
  covers : ∀ fingerprint, fingerprint ∈ waves.flatten ↔ graph.contains fingerprint = true
  bottom : ∀ fingerprint, graph.contains fingerprint = true → graph.dependencies fingerprint = [] → waveOf waves fingerprint = 0
  above : ∀ fingerprint highest, ((graph.dependencies fingerprint).map (waveOf waves)).max? = some highest →
    waveOf waves fingerprint = highest + 1
  filled : ∀ wave ∈ waves, wave ≠ []
  sorted : ∀ wave ∈ waves, wave.Pairwise fun one other => one.text < other.text

theorem waveOf_cons (wave : List Fingerprint) (later : List (List Fingerprint)) (fingerprint : Fingerprint) :
    waveOf (wave :: later) fingerprint = if fingerprint ∈ wave then 0 else waveOf later fingerprint + 1 := by
  simp [waveOf, List.findIdx_cons, Bool.cond_eq_ite]

/-- A wave is sorted strictly, since it has every fingerprint once. -/
private theorem firstLayer_sorted {remaining : List Derivation} (once : (remaining.map (·.fingerprint)).Nodup) :
    (firstLayer remaining).Pairwise fun one other => one.text < other.text := by
  have distinct : (firstLayer remaining).Nodup :=
    (List.mergeSort_perm _ _).nodup_iff.mpr (once.sublist (List.filter_sublist.map _))
  refine ((Fingerprint.pairwise_mergeSort _).and distinct).imp fun ⟨before, apart⟩ => ?_
  refine String.not_le.mp fun after => apart (Fingerprint.le_antisymm before ?_)
  exact decide_eq_true after

/-- How the layers of what remains lie: each input that remains lies below, and unless a node
    is in the first layer one of them lies right below. -/
private structure Rises (remaining : List Derivation) (waves : List (List Fingerprint)) : Prop where
  below : ∀ node ∈ remaining, ∀ input ∈ inputsOf node, found remaining input = true →
    waveOf waves input < waveOf waves node.fingerprint
  near : ∀ node ∈ remaining, waveOf waves node.fingerprint ≠ 0 →
    ∃ input ∈ inputsOf node, found remaining input = true ∧ waveOf waves input + 1 = waveOf waves node.fingerprint
  filled : ∀ wave ∈ waves, wave ≠ []
  sorted : ∀ wave ∈ waves, wave.Pairwise fun one other => one.text < other.text

private theorem found_afterFirst {remaining : List Derivation} {input : Fingerprint} (known : found remaining input = true)
    (later : input ∉ firstLayer remaining) : found (afterFirst remaining) input = true := by
  obtain ⟨twin, within, rfl⟩ := found_iff.mp known
  exact found_iff.mpr ⟨twin, by simp [afterFirst, within, later], rfl⟩

private theorem rises_layers (bound : Nat) {remaining : List Derivation} (once : (remaining.map (·.fingerprint)).Nodup)
    {waves : List (List Fingerprint)} (made : layers bound remaining = .ok waves) : Rises remaining waves := by
  induction bound generalizing remaining waves with
  | zero =>
    cases remaining with
    | nil =>
      cases made
      exact ⟨by simp, by simp, by simp, by simp⟩
    | cons node rest => simp [layers] at made
  | succ bound ih =>
    by_cases inhabited : remaining = []
    · subst inhabited
      cases made
      exact ⟨by simp, by simp, by simp, by simp⟩
    · obtain ⟨filled, later, rest, rfl⟩ := layers_succ inhabited made
      have rises := ih (once.sublist (List.filter_sublist.map _)) rest
      have remains {node : Derivation} (member : node ∈ remaining) (notFirst : node.fingerprint ∉ firstLayer remaining) :
          node ∈ afterFirst remaining := by simp [afterFirst, member, notFirst]
      refine ⟨fun node member input uses known => ?_, fun node member high => ?_, ?_, ?_⟩
      · have notFirst : node.fingerprint ∉ firstLayer remaining := fun inFirst =>
          (mem_firstLayer once member).mp inFirst input uses known
        rw [waveOf_cons, waveOf_cons, if_neg notFirst]
        split
        · exact Nat.succ_pos _
        next late =>
          exact Nat.succ_lt_succ (rises.below node (remains member notFirst) input uses (found_afterFirst known late))
      · have notFirst : node.fingerprint ∉ firstLayer remaining := fun inFirst => by simp [waveOf_cons, inFirst] at high
        rw [waveOf_cons, if_neg notFirst]
        by_cases second : waveOf later node.fingerprint = 0
        · -- a node of the second layer has an input in the first one, or it would be there itself
          obtain ⟨input, uses, known⟩ : ∃ input ∈ inputsOf node, found remaining input = true := by
            by_contra free
            push Not at free
            exact notFirst ((mem_firstLayer once member).mpr free)
          have early : input ∈ firstLayer remaining := by
            by_contra late
            have low := rises.below node (remains member notFirst) input uses (found_afterFirst known late)
            omega
          exact ⟨input, uses, known, by rw [waveOf_cons, if_pos early, second]⟩
        · obtain ⟨input, uses, known, next⟩ := rises.near node (remains member notFirst) second
          obtain ⟨twin, within, rfl⟩ := found_iff.mp known
          obtain ⟨within, late⟩ := List.mem_filter.mp within
          refine ⟨_, uses, found_iff.mpr ⟨twin, within, rfl⟩, ?_⟩
          rw [waveOf_cons, if_neg (by simpa using late), next]
      · refine List.forall_mem_cons.mpr ⟨fun none => filled ?_, rises.filled⟩
        simpa [firstLayer, ← List.length_eq_zero_iff] using none
      · exact List.forall_mem_cons.mpr ⟨firstLayer_sorted once, rises.sorted⟩

theorem Closed.laysOut (closed : graph.Closed) (made : graph.waves = .ok waves) : graph.LaysOut waves := by
  have sorted : graph.topological = .ok waves.flatten := by
    rw [topological, made]
    rfl
  have order := closed.inputsFirst_topological sorted
  have rises := rises_layers _ closed.distinct made
  have inputs {node : Derivation} (member : node ∈ graph.nodes) : graph.dependencies node.fingerprint = inputsOf node := by
    rw [dependencies, closed.find?_of_mem member]
  have known {node : Derivation} {input : Fingerprint} (member : node ∈ graph.nodes) (uses : input ∈ inputsOf node) :
      found graph.nodes input = true := closed.contains_dependency (by rwa [inputs member])
  refine ⟨order.nodup, order.covers, fun fingerprint within none => ?_, fun fingerprint highest greatest => ?_,
    rises.filled, rises.sorted⟩
  · obtain ⟨node, member, rfl⟩ := found_iff.mp within
    by_contra high
    obtain ⟨input, uses, _⟩ := rises.near node member high
    rw [← inputs member, none] at uses
    cases uses
  · obtain ⟨among, all⟩ := List.max?_eq_some_iff.mp greatest
    obtain ⟨top, topUses, rfl⟩ := List.mem_map.mp among
    obtain ⟨node, member, rfl⟩ := found_iff.mp (contains_of_mem_dependencies topUses)
    rw [inputs member] at topUses all
    have below := rises.below node member top topUses (known member topUses)
    obtain ⟨input, uses, _, next⟩ := rises.near node member (by omega)
    have least := all _ (List.mem_map_of_mem uses)
    omega

namespace LaysOut
variable (lays : graph.LaysOut waves)
include lays

theorem waveOf_lt (uses : other ∈ graph.dependencies fingerprint) : waveOf waves other < waveOf waves fingerprint := by
  have some : ((graph.dependencies fingerprint).map (waveOf waves)) ≠ [] :=
    List.ne_nil_of_mem (List.mem_map_of_mem uses)
  obtain ⟨highest, greatest⟩ := Option.isSome_iff_exists.mp (List.isSome_max?_iff.mpr some)
  have least := (List.max?_eq_some_iff.mp greatest).2 _ (List.mem_map_of_mem uses)
  have next := lays.above fingerprint highest greatest
  omega

theorem exists_below {height : Nat} (within : graph.contains fingerprint = true)
    (high : waveOf waves fingerprint = height + 1) : ∃ input ∈ graph.dependencies fingerprint, waveOf waves input = height := by
  cases greatest : ((graph.dependencies fingerprint).map (waveOf waves)).max? with
  | none =>
    have none := lays.bottom fingerprint within (List.map_eq_nil_iff.mp (List.max?_eq_none_iff.mp greatest))
    omega
  | some highest =>
    obtain ⟨input, uses, low⟩ := List.mem_map.mp (List.max?_eq_some_iff.mp greatest).1
    have next := lays.above fingerprint highest greatest
    exact ⟨input, uses, by omega⟩

theorem waveOf_lt_length (within : graph.contains fingerprint = true) : waveOf waves fingerprint < waves.length := by
  obtain ⟨wave, member, inside⟩ := List.mem_flatten.mp ((lays.covers fingerprint).mpr within)
  exact List.findIdx_lt_length_of_exists ⟨wave, member, by simpa using inside⟩

end LaysOut

/-! ### Chains and cycles -/

/-- A chain goes from nodes to inputs of theirs. -/
structure Descends (graph : BuildGraph) (chain : List Fingerprint) : Prop where
  within : ∀ fingerprint ∈ chain, graph.contains fingerprint = true
  inputs : chain.IsChain fun user input => input ∈ graph.dependencies user

/-- No node is needed for itself. -/
def Acyclic (graph : BuildGraph) : Prop :=
  ∀ fingerprint, ¬ Relation.TransGen (fun user input => input ∈ graph.dependencies user) fingerprint fingerprint

namespace LaysOut
variable (lays : graph.LaysOut waves)
include lays

private theorem length_le_waveOf {chain : List Fingerprint} (descends : graph.Descends (fingerprint :: chain)) :
    chain.length ≤ waveOf waves fingerprint := by
  induction chain generalizing fingerprint with
  | nil => exact Nat.zero_le _
  | cons next chain ih =>
    obtain ⟨uses, rest⟩ := List.isChain_cons_cons.mp descends.inputs
    have low := ih ⟨fun other member => descends.within other (List.mem_cons_of_mem _ member), rest⟩
    have down := lays.waveOf_lt uses
    rw [List.length_cons]
    omega

/-- No chain is longer than there are waves. -/
theorem length_le {chain : List Fingerprint} (descends : graph.Descends chain) : chain.length ≤ waves.length := by
  cases chain with
  | nil => exact Nat.zero_le _
  | cons first chain =>
    have short := lays.length_le_waveOf descends
    have low := lays.waveOf_lt_length (descends.within first List.mem_cons_self)
    rw [List.length_cons]
    omega

private theorem exists_descent {height : Nat} (within : graph.contains fingerprint = true)
    (high : waveOf waves fingerprint = height) :
    ∃ chain, graph.Descends (fingerprint :: chain) ∧ chain.length = height := by
  induction height generalizing fingerprint with
  | zero => exact ⟨[], ⟨by simpa using within, .singleton _⟩, rfl⟩
  | succ height ih =>
    obtain ⟨input, uses, low⟩ := lays.exists_below within high
    have there : graph.contains input = true := by
      refine (lays.covers input).mp ?_
      have inside := Nat.lt_trans (lays.waveOf_lt uses) (lays.waveOf_lt_length within)
      obtain ⟨wave, member, holds⟩ := List.findIdx_lt_length.mp inside
      exact List.mem_flatten.mpr ⟨wave, member, by simpa using holds⟩
    obtain ⟨chain, descends, long⟩ := ih there low
    refine ⟨input :: chain, ⟨List.forall_mem_cons.mpr ⟨within, descends.within⟩, ?_⟩, by rw [List.length_cons, long]⟩
    exact List.isChain_cons_cons.mpr ⟨uses, descends.inputs⟩

/-- Some chain has a node in every wave. -/
theorem exists_chain : ∃ chain, graph.Descends chain ∧ chain.length = waves.length := by
  rcases List.eq_nil_or_concat waves with rfl | ⟨earlier, last, shape⟩
  · exact ⟨[], ⟨by simp, .nil⟩, rfl⟩
  · obtain ⟨fingerprint, inside⟩ := List.exists_mem_of_ne_nil last (lays.filled last (by simp [shape]))
    have within := (lays.covers fingerprint).mp (List.mem_flatten.mpr ⟨last, by simp [shape], inside⟩)
    -- a fingerprint of the last wave is in none before
    have high : waveOf waves fingerprint = earlier.length := by
      have once := lays.once
      rw [shape, List.concat_eq_append, List.flatten_append] at once
      have earliest : ∀ wave ∈ earlier, wave.contains fingerprint = false := by
        intro wave member
        by_contra holds
        have before : fingerprint ∈ earlier.flatten := List.mem_flatten.mpr ⟨wave, member, by simpa using holds⟩
        exact List.disjoint_of_nodup_append once before (by simpa using inside)
      rw [waveOf, shape, List.concat_eq_append, List.findIdx_append, List.findIdx_eq_length_of_false earliest]
      simp [inside]
    obtain ⟨chain, descends, long⟩ := lays.exists_descent within high
    exact ⟨fingerprint :: chain, descends, by simp [shape, long]⟩

/-- A node is not needed for itself where waves lay out a graph. -/
theorem acyclic : graph.Acyclic := by
  intro fingerprint circle
  have down {one other : Fingerprint} (leads : Relation.TransGen (fun user input => input ∈ graph.dependencies user) one other) :
      waveOf waves other < waveOf waves one := by
    induction leads with
    | single uses => exact lays.waveOf_lt uses
    | tail _ uses ih => exact Nat.lt_trans (lays.waveOf_lt uses) ih
  exact absurd (down circle) (Nat.lt_irrefl _)

end LaysOut

/-- A closed graph has waves unless its inputs form a cycle. -/
theorem Closed.exists_waves_iff (closed : graph.Closed) : (∃ waves, graph.waves = .ok waves) ↔ graph.Acyclic := by
  refine ⟨fun ⟨waves, made⟩ => (closed.laysOut made).acyclic, fun acyclic => ?_⟩
  -- the rank of a node is the number of nodes that it needs
  classical
  let leads := Relation.TransGen fun user input => input ∈ graph.dependencies user
  let needed (fingerprint : Fingerprint) : Finset Fingerprint :=
    (graph.nodes.map (·.fingerprint)).toFinset.filter (leads fingerprint)
  refine exists_layers closed.distinct (fun fingerprint => (needed fingerprint).card)
    (fun node member input uses known => Finset.card_lt_card (Finset.ssubset_iff_of_subset ?_ |>.mpr ⟨input, ?_, ?_⟩)) le_rfl
  all_goals have uses : input ∈ graph.dependencies node.fingerprint := by rwa [dependencies, closed.find?_of_mem member]
  · exact Finset.monotone_filter_right _ fun other _ needs => Relation.TransGen.head uses needs
  · obtain ⟨twin, within, rfl⟩ := found_iff.mp known
    exact Finset.mem_filter.mpr ⟨by simpa using ⟨twin, within, rfl⟩, .single uses⟩
  · exact fun circle => acyclic input (Finset.mem_filter.mp circle).2

theorem fromRoots_eq_ok_iff {roots : List Derivation} :
    fromRoots roots = .ok graph ↔ graph = ofRoots roots ∧ ∃ waves, graph.waves = .ok waves := by
  cases made : (ofRoots roots).waves with
  | error error =>
    simp only [fromRoots, topological, made, Except.map, bind, Except.bind]
    constructor
    · intro never
      cases never
    · rintro ⟨rfl, waves, done⟩
      cases made.symm.trans done
  | ok waves =>
    simp only [fromRoots, topological, made, Except.map, bind, Except.bind, Except.ok.injEq]
    constructor
    · rintro rfl
      exact ⟨rfl, waves, made⟩
    · rintro ⟨rfl, _⟩
      rfl

/-! ### Counting inputs down -/

/-- What is left of a graph, in an order that says nothing, and for each node a count of its
    inputs that are left. -/
structure Countdown where
  left : List Fingerprint
  counts : Fingerprint → Nat

namespace Countdown

/-- At first everything is left. -/
def start (graph : BuildGraph) : Countdown :=
  ⟨graph.nodes.map (·.fingerprint), fun fingerprint => (graph.dependencies fingerprint).length⟩

/-- What is left with a count of zero. -/
def ready (state : Countdown) : List Fingerprint := state.left.filter (state.counts · = 0)

/-- Takes a node out, and counts down for each node that has it as an input. -/
def release (graph : BuildGraph) (state : Countdown) (fingerprint : Fingerprint) : Countdown :=
  ⟨state.left.erase fingerprint,
    (graph.dependents fingerprint).foldl (fun counts user => Function.update counts user (counts user - 1)) state.counts⟩

/-- One wave after another is taken out, which is all that is ready then. Its nodes are
    visited in some order, and listed in that of their fingerprints. -/
inductive Runs (graph : BuildGraph) : Countdown → Except BuildError (List (List Fingerprint)) → Prop where
  | clear {state : Countdown} (done : state.left = []) : Runs graph state (.ok [])
  | stuck {state : Countdown} (inhabited : state.left ≠ []) (none : state.ready = []) : Runs graph state (.error .cycle)
  | wave {state : Countdown} {visited : List Fingerprint} {result : Except BuildError (List (List Fingerprint))}
      (inhabited : state.ready ≠ []) (visits : visited.Perm state.ready)
      (rest : Runs graph (visited.foldl (release graph) state) result) :
      Runs graph state (result.map (visited.mergeSort Fingerprint.le :: ·))

/-- The count of a node is the number of its inputs that are left. -/
structure Tallies (graph : BuildGraph) (state : Countdown) : Prop where
  once : state.left.Nodup
  counts : ∀ fingerprint, state.counts fingerprint = ((graph.dependencies fingerprint).filter (· ∈ state.left)).length

variable {state : Countdown}

theorem tallies_start (closed : graph.Closed) : Tallies graph (start graph) := by
  refine ⟨closed.distinct, fun fingerprint => ?_⟩
  have all : ∀ input ∈ graph.dependencies fingerprint, decide (input ∈ (start graph).left) = true := by
    intro input uses
    obtain ⟨node, member, same⟩ := found_iff.mp (closed.contains_dependency uses)
    exact decide_eq_true (List.mem_map.mpr ⟨node, member, same⟩)
  rw [List.filter_eq_self.mpr all]
  rfl

private theorem foldl_update (users : List Fingerprint) (once : users.Nodup) (counts : Fingerprint → Nat)
    (fingerprint : Fingerprint) :
    users.foldl (fun counts user => Function.update counts user (counts user - 1)) counts fingerprint =
      if fingerprint ∈ users then counts fingerprint - 1 else counts fingerprint := by
  induction users generalizing counts with
  | nil => simp
  | cons first rest ih =>
    obtain ⟨new, once⟩ := List.nodup_cons.mp once
    rw [List.foldl_cons, ih once]
    by_cases same : fingerprint = first
    · subst same
      simp [new]
    · simp [same]

/-- Taking out one node keeps the counts right. -/
theorem Tallies.released (tallies : Tallies graph state) (closed : graph.Closed) (member : other ∈ state.left) :
    Tallies graph (state.release graph other) := by
  refine ⟨tallies.once.erase other, fun fingerprint => ?_⟩
  have split : (graph.dependencies fingerprint).filter (· ∈ state.left.erase other) =
      ((graph.dependencies fingerprint).filter (· ∈ state.left)).erase other := by
    rw [List.Nodup.erase_eq_filter ((nodup_dependencies _ _).filter _), List.filter_filter]
    refine List.filter_congr fun input _ => ?_
    simp [tallies.once.mem_erase_iff, bne, Bool.beq_eq_decide_eq]
  have counted := foldl_update _ (closed.nodup_dependents other) state.counts fingerprint
  change _ = ((graph.dependencies fingerprint).filter (· ∈ state.left.erase other)).length
  rw [split, List.length_erase]
  refine counted.trans ?_
  simp [closed.mem_dependents, member, tallies.counts fingerprint]

theorem Tallies.visit {visited : List Fingerprint} (tallies : Tallies graph state) (closed : graph.Closed)
    (once : visited.Nodup) (among : ∀ fingerprint ∈ visited, fingerprint ∈ state.left) :
    Tallies graph (visited.foldl (release graph) state) ∧
      ∀ fingerprint, fingerprint ∈ (visited.foldl (release graph) state).left ↔ fingerprint ∈ state.left ∧ fingerprint ∉ visited := by
  induction visited generalizing state with
  | nil => exact ⟨tallies, by simp⟩
  | cons first rest ih =>
    obtain ⟨new, once⟩ := List.nodup_cons.mp once
    obtain ⟨there, among⟩ := List.forall_mem_cons.mp among
    have kept (fingerprint : Fingerprint) : fingerprint ∈ (state.release graph first).left ↔
        fingerprint ∈ state.left ∧ fingerprint ≠ first := by
      rw [release, tallies.once.mem_erase_iff, and_comm]
    obtain ⟨later, members⟩ := ih (tallies.released closed there) once fun fingerprint member =>
      (kept fingerprint).mpr ⟨among fingerprint member, fun same => new (same ▸ member)⟩
    refine ⟨later, fun fingerprint => ?_⟩
    rw [List.foldl_cons, members, kept, List.mem_cons, not_or, and_assoc]

/-- What is left of a graph when the layers of some of its nodes remain to be made. -/
structure Leaves (graph : BuildGraph) (state : Countdown) (remaining : List Derivation) : Prop where
  tallies : Tallies graph state
  nodes : ∀ node ∈ remaining, node ∈ graph.nodes
  once : (remaining.map (·.fingerprint)).Nodup
  left : state.left.Perm (remaining.map (·.fingerprint))

section
variable {remaining : List Derivation} (leaves : Leaves graph state remaining) (closed : graph.Closed)
include leaves closed

/-- What has the count of zero is what is ready for the next layer. -/
theorem Leaves.ready : state.ready.Perm ((BuildGraph.ready remaining).map (·.fingerprint)) := by
  have counted {node : Derivation} (member : node ∈ remaining) :
      state.counts node.fingerprint = 0 ↔ node ∈ BuildGraph.ready remaining := by
    have inputs : graph.dependencies node.fingerprint = inputsOf node := by
      rw [dependencies, closed.find?_of_mem (leaves.nodes node member)]
    rw [leaves.tallies.counts, List.length_eq_zero_iff, inputs]
    simp [BuildGraph.ready, member, leaves.left.mem_iff, found]
  have same : remaining.filter ((fun fingerprint => decide (state.counts fingerprint = 0)) ∘ (·.fingerprint)) =
      BuildGraph.ready remaining := by
    refine List.filter_congr fun node member => ?_
    rw [Bool.eq_iff_iff, Function.comp_apply, decide_eq_true_iff, counted member]
    simp [BuildGraph.ready, member]
  have listed := leaves.left.filter fun fingerprint => decide (state.counts fingerprint = 0)
  rwa [List.filter_map, same] at listed

theorem Leaves.ready_eq_nil : state.ready = [] ↔ BuildGraph.ready remaining = [] := by
  rw [← List.length_eq_zero_iff, (leaves.ready closed).length_eq, List.length_map, List.length_eq_zero_iff]

/-- Visiting what is ready, in whatever order, makes the next layer and leaves what comes after. -/
theorem Leaves.visit {visited : List Fingerprint} (visits : visited.Perm state.ready) :
    visited.mergeSort Fingerprint.le = firstLayer remaining ∧
      Leaves graph (visited.foldl (release graph) state) (afterFirst remaining) := by
  have listed := visits.trans (leaves.ready closed)
  have layer : visited.mergeSort Fingerprint.le = firstLayer remaining := Fingerprint.mergeSort_eq listed
  have among {fingerprint : Fingerprint} : fingerprint ∈ visited ↔ fingerprint ∈ firstLayer remaining := by
    rw [← layer, List.mem_mergeSort]
  have once : visited.Nodup := visits.nodup_iff.mpr (leaves.tallies.once.filter _)
  obtain ⟨tallies, members⟩ := leaves.tallies.visit closed once fun fingerprint member =>
    List.mem_of_mem_filter (visits.mem_iff.mp member)
  have onceLater : ((afterFirst remaining).map (·.fingerprint)).Nodup := leaves.once.sublist (List.filter_sublist.map _)
  refine ⟨layer, tallies, fun node member => leaves.nodes node (List.mem_of_mem_filter member), onceLater, ?_⟩
  refine (List.perm_ext_iff_of_nodup tallies.once onceLater).mpr fun fingerprint => ?_
  rw [members, leaves.left.mem_iff, among]
  simp only [afterFirst, List.mem_map, List.mem_filter, Bool.not_eq_true', List.contains_eq_mem, decide_eq_false_iff_not]
  constructor
  · rintro ⟨⟨node, member, rfl⟩, late⟩
    exact ⟨node, ⟨member, late⟩, rfl⟩
  · rintro ⟨node, ⟨member, late⟩, rfl⟩
    exact ⟨⟨node, member, rfl⟩, late⟩

/-- Every run makes the layers of what remains. -/
theorem Leaves.layers_eq {result : Except BuildError (List (List Fingerprint))} (runs : Runs graph state result) {bound : Nat}
    (short : remaining.length ≤ bound) : layers bound remaining = result := by
  induction runs generalizing remaining bound with
  | clear done =>
    obtain rfl := List.map_eq_nil_iff.mp (List.perm_nil.mp (done ▸ leaves.left).symm)
    simp [layers]
  | stuck inhabited none =>
    refine layers_of_stuck (fun empty => inhabited ?_) ?_
    · rw [empty] at leaves
      exact List.perm_nil.mp leaves.left
    · exact (leaves.ready_eq_nil closed).mp none
  | @wave state visited result inhabited visits rest ih =>
    obtain ⟨layer, later⟩ := leaves.visit closed visits
    have isReady : BuildGraph.ready remaining ≠ [] := fun none => inhabited ((leaves.ready_eq_nil closed).mpr none)
    have fewer := length_afterFirst isReady
    obtain ⟨bound, rfl⟩ : ∃ more, bound = more + 1 := ⟨bound - 1, by omega⟩
    rw [layers_of_ready isReady, ih later (by omega), layer]

/-- Some run comes to an end. -/
theorem Leaves.exists_runs : ∃ result, Runs graph state result := by
  induction size : remaining.length using Nat.strongRecOn generalizing state remaining with
  | ind length ih =>
    by_cases done : state.left = []
    · exact ⟨_, .clear done⟩
    · by_cases none : state.ready = []
      · exact ⟨_, .stuck done none⟩
      · obtain ⟨_, later⟩ := leaves.visit closed (List.Perm.refl _)
        have fewer := length_afterFirst fun stuck => none ((leaves.ready_eq_nil closed).mpr stuck)
        obtain ⟨_, rest⟩ := ih _ (size ▸ fewer) later rfl
        exact ⟨_, .wave none (List.Perm.refl _) rest⟩

end

theorem leaves_start (closed : graph.Closed) : Leaves graph (start graph) graph.nodes :=
  ⟨tallies_start closed, fun _ => id, closed.distinct, List.Perm.refl _⟩

/-- Counting down makes the waves of a graph, or fails as they do, in whatever order the
    nodes of a wave are visited. -/
theorem runs_start_iff (closed : graph.Closed) {result : Except BuildError (List (List Fingerprint))} :
    Runs graph (start graph) result ↔ result = graph.waves := by
  have leaves := leaves_start closed
  have unique {result : Except BuildError (List (List Fingerprint))} (runs : Runs graph (start graph) result) :
      graph.waves = result := leaves.layers_eq closed runs le_rfl
  refine ⟨fun runs => (unique runs).symm, ?_⟩
  rintro rfl
  obtain ⟨result, runs⟩ := leaves.exists_runs closed
  rwa [unique runs]

end Countdown

/-! ### Plans -/

theorem map_fingerprint_planLayers (graph : BuildGraph) (workshop : Workshop) (layers : List (List Fingerprint)) :
    (Workshop.planLayers graph workshop layers).2.map (·.map (·.fingerprint)) = layers.map (·.filter graph.contains) := by
  have found (fingerprints : List Fingerprint) :
      (fingerprints.filterMap graph.find?).map (·.fingerprint) = fingerprints.filter graph.contains := by
    induction fingerprints with
    | nil => rfl
    | cons first rest ih =>
      cases known : graph.find? first with
      | none =>
        have outside : graph.contains first = false := by
          rw [Bool.eq_false_iff, ne_eq, contains_iff]
          simp [known]
        simp [known, outside, ih]
      | some node =>
        have inside : graph.contains first = true := contains_iff.mpr ⟨node, known⟩
        simp [known, inside, ih, (find?_some known).2]
  fun_induction Workshop.planLayers graph workshop layers with
  | case1 workshop => rfl
  | case2 workshop layer rest after first planned last others plannedRest ih =>
    have entries := (Workshop.planLayer_surveys graph workshop layer).2
    rw [plannedRest] at ih
    rw [planned] at entries
    rw [List.map_cons, List.map_cons, ih, ← found layer, show first = _ from entries, List.map_map]
    rfl

/-- A plan has the waves, and in them every derivation of the graph once. -/
theorem Closed.plan_lists {roots : List Derivation} (made : (ofRoots roots).waves = .ok waves) (workshop : Workshop) :
    ∃ later planned, workshop.plan roots = .ok (later, planned) ∧ planned.map (·.map (·.fingerprint)) = waves ∧
      planned.flatten.Perm ((ofRoots roots).nodes.map workshop.entry) := by
  have closed := closed_ofRoots roots
  have lays := closed.laysOut made
  refine ⟨_, _, Workshop.plan_eq made, ?_, ?_⟩
  · rw [map_fingerprint_planLayers]
    refine (List.map_congr_left fun wave member => List.filter_eq_self.mpr fun fingerprint inside => ?_).trans (List.map_id _)
    exact (lays.covers fingerprint).mp (List.mem_flatten.mpr ⟨wave, member, inside⟩)
  · rw [(Workshop.planLayers_eq _ _ _).2, (Workshop.planLayer_surveys _ _ _).2]
    refine List.Perm.map _ ?_
    have listed : waves.flatten.Perm ((ofRoots roots).nodes.map (·.fingerprint)) := by
      refine (List.perm_ext_iff_of_nodup lays.once closed.distinct).mpr fun fingerprint => ?_
      rw [lays.covers, contains, found_iff, List.mem_map]
    refine (listed.filterMap _).trans (List.Perm.of_eq ?_)
    rw [List.filterMap_map]
    refine (List.filterMap_congr fun node member => closed.find?_of_mem member).trans List.filterMap_some

/-! ### The waves of a graph -/

/-- The graph of some roots is made unless their inputs form a cycle. Its waves lay it out by
    height, so that they have the inputs first, one after another, and are as many as the
    longest chain has nodes; counting down makes them in whatever order nodes are visited;
    and a plan has every derivation of the graph once, in its wave. -/
theorem fromRoots_waves (roots : List Derivation) :
    ((∃ graph, fromRoots roots = .ok graph) ↔ (ofRoots roots).Acyclic) ∧
    ∀ graph, fromRoots roots = .ok graph → ∃ waves, graph.waves = .ok waves ∧ graph.LaysOut waves ∧
      graph.InputsFirst waves.flatten ∧
      (∃ chain, graph.Descends chain ∧ chain.length = waves.length) ∧
      (∀ chain, graph.Descends chain → chain.length ≤ waves.length) ∧
      (∀ result, Countdown.Runs graph (.start graph) result ↔ result = .ok waves) ∧
      ∀ workshop : Workshop, ∃ later planned, workshop.plan roots = .ok (later, planned) ∧
        planned.map (·.map (·.fingerprint)) = waves ∧ planned.flatten.Perm (graph.nodes.map workshop.entry) := by
  have closed := closed_ofRoots roots
  refine ⟨?_, fun graph made => ?_⟩
  · rw [← closed.exists_waves_iff]
    simp [fromRoots_eq_ok_iff]
  · obtain ⟨rfl, waves, made⟩ := fromRoots_eq_ok_iff.mp made
    have lays := closed.laysOut made
    have sorted : (ofRoots roots).topological = .ok waves.flatten := by
      rw [topological, made]
      rfl
    refine ⟨waves, made, lays, closed.inputsFirst_topological sorted, lays.exists_chain, fun _ => lays.length_le,
      fun result => ?_, Closed.plan_lists made⟩
    rw [Countdown.runs_start_iff closed, made]

end BuildGraph

/-! ### A diamond -/

namespace Diamond
open BuildGraph

/-- What everything needs. -/
def base : Derivation := .mk "base" none [] [] ["out"] ⟨"d"⟩

/-- One side. -/
def left : Derivation := .mk "left" none [base] [] ["out"] ⟨"b"⟩

/-- The other side, which is given its input twice. -/
def right : Derivation := .mk "right" none [base, base] [] ["out"] ⟨"c"⟩

/-- What needs both sides, and what they need as well. -/
def top : Derivation := .mk "top" none [base, right, left] [] ["out"] ⟨"a"⟩

/-- How far a derivation is above what everything needs. -/
def level (fingerprint : Fingerprint) : Nat :=
  match fingerprint.text with
  | "a" => 2
  | "b" => 1
  | "c" => 1
  | _ => 0

theorem acyclic_top : (ofRoots [top]).Acyclic := by
  refine (closed_ofRoots [top]).exists_waves_iff.mp (exists_layers (closed_ofRoots [top]).distinct level ?_ le_rfl)
  have nodes : (ofRoots [top]).nodes = [top, base, right, left] := rfl
  rw [nodes]
  decide

/-- The sides are above what they need, and below what needs them. -/
theorem fromRoots_waves_top : ∃ graph waves, fromRoots [top] = .ok graph ∧ graph.waves = .ok waves ∧
    waveOf waves base.fingerprint = 0 ∧ waveOf waves left.fingerprint = 1 ∧ waveOf waves right.fingerprint = 1 ∧
    waveOf waves top.fingerprint = 2 := by
  obtain ⟨made, layered⟩ := fromRoots_waves [top]
  obtain ⟨graph, roots⟩ := made.mpr acyclic_top
  obtain ⟨waves, waved, lays, _⟩ := layered graph roots
  obtain ⟨rfl, _⟩ := fromRoots_eq_ok_iff.mp roots
  have lowest : waveOf waves base.fingerprint = 0 := lays.bottom _ rfl rfl
  have side {fingerprint : Fingerprint} (needs : (ofRoots [top]).dependencies fingerprint = [base.fingerprint]) :
      waveOf waves fingerprint = 1 := lays.above fingerprint 0 (by simp [needs, lowest])
  have onLeft : waveOf waves left.fingerprint = 1 := side rfl
  have onRight : waveOf waves right.fingerprint = 1 := side rfl
  have needs : (ofRoots [top]).dependencies top.fingerprint = [base.fingerprint, right.fingerprint, left.fingerprint] := rfl
  exact ⟨_, waves, roots, waved, lowest, onLeft, onRight, lays.above _ 1 (by simp [needs, lowest, onLeft, onRight])⟩

end Diamond
end Pkgset

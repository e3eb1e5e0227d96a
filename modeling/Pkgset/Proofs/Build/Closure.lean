import Pkgset.Proofs.Build.Graph
import Pkgset.Proofs.Derivation.Identity
import Mathlib.Data.List.Induction
import Mathlib.Tactic.Tauto

/-!
# The closure of some roots

Derivations that were put together from others have a graph: a recipe names its inputs by
their fingerprints, so where SHA-256 does not collide a fingerprint stands for one tree of
derivations, and the tree of an input is smaller. The graph holds what the roots need, each
once, and its edges are the direct inputs.
-/

namespace Pkgset
open BuildGraph

namespace Derivation
variable {derivation : Derivation}

theorem sizeOf_lt_of_input {input : Derivation} (declared : input ∈ derivation.inputs) : sizeOf input < sizeOf derivation := by
  cases derivation with
  | mk name platforms inputs phases outputs fingerprint =>
    have smaller : sizeOf input < sizeOf inputs := List.sizeOf_lt_of_mem declared
    rw [mk.sizeOf_spec]
    omega

theorem Built.input {input : Derivation} (built : derivation.Built) (declared : input ∈ derivation.inputs) : input.Built := by
  cases built with
  | build name declarations inputs => exact inputs input (by rwa [Draft.inputs_build] at declared)

end Derivation

namespace BuildGraph
variable {roots : List Derivation} {node twin : Derivation}

/-! ### The order of roots -/

private theorem distinct_concat (fingerprints : List Fingerprint) (last : Fingerprint) :
    distinct (fingerprints ++ [last]) =
      if last ∈ fingerprints then distinct fingerprints else distinct fingerprints ++ [last] := by
  rw [distinct, List.foldl_append, ← distinct, List.foldl_cons, List.foldl_nil]
  simp only [List.contains_iff_mem, mem_distinct]

/-- Fingerprints without repetitions stand in the order of their first occurrences. -/
theorem distinct_inOrder (fingerprints : List Fingerprint) :
    (distinct fingerprints).Pairwise fun one other => fingerprints.idxOf one < fingerprints.idxOf other := by
  induction fingerprints using List.reverseRecOn with
  | nil => exact .nil
  | append_singleton fingerprints last ih =>
    have kept : (distinct fingerprints).Pairwise fun one other =>
        (fingerprints ++ [last]).idxOf one < (fingerprints ++ [last]).idxOf other := by
      refine ih.imp_of_mem fun one other before => ?_
      rwa [List.idxOf_append_of_mem (mem_distinct.mp one), List.idxOf_append_of_mem (mem_distinct.mp other)]
    rw [distinct_concat]
    split
    · exact kept
    next new =>
      refine List.pairwise_append.mpr ⟨kept, List.pairwise_singleton _ _, fun one member other single => ?_⟩
      obtain rfl := List.mem_singleton.mp single
      have known := mem_distinct.mp member
      rw [List.idxOf_append_of_mem known, List.idxOf_append_of_notMem new]
      have inside := List.idxOf_lt_length_of_mem known
      omega

/-! ### One derivation for each fingerprint -/

theorem Needed.built (built : ∀ root ∈ roots, root.Built) (needed : Needed roots node) : node.Built := by
  induction needed with
  | root member => exact built _ member
  | input _ declared ih => exact ih.input declared

theorem Needed.within (needed : Needed roots node) (within : node.Within twin) : Needed roots twin := by
  induction within with
  | refl => exact needed
  | tail _ declared ih => exact .input ih declared

/-- SHA-256 does not collide on what some roots need. -/
def Separate (roots : List Derivation) : Prop :=
  ∀ node twin, Needed roots node → Needed roots twin → Sha256.Apart node.encoding twin.encoding

/-- One fingerprint means one derivation. -/
def Identified (roots : List Derivation) : Prop :=
  ∀ node twin, Needed roots node → Needed roots twin → node.fingerprint = twin.fingerprint → node = twin

theorem Separate.identified (separate : Separate roots) (built : ∀ root ∈ roots, root.Built) : Identified roots :=
  fun _ _ needed needed' same => (needed.built built).eq_of_fingerprint (needed'.built built)
    (fun one other within within' => separate one other (needed.within within) (needed'.within within')) same

section
variable (identified : Identified roots)
include identified

theorem Identified.coherent : Coherent roots := fun node twin needed needed' same input declared =>
  ⟨input, identified node twin needed needed' same ▸ declared, rfl⟩

theorem Identified.mem_nodes : node ∈ (ofRoots roots).nodes ↔ Needed roots node := by
  refine ⟨needed_of_mem, fun needed => ?_⟩
  obtain ⟨twin, member, same⟩ := found_iff.mp ((contains_ofRoots_iff identified.coherent).mpr ⟨node, needed, rfl⟩)
  rwa [← identified twin node (needed_of_mem member) needed same]

theorem Identified.find?_eq_some {fingerprint : Fingerprint} :
    (ofRoots roots).find? fingerprint = some node ↔ Needed roots node ∧ node.fingerprint = fingerprint := by
  refine ⟨fun known => ⟨needed_of_mem (find?_some known).1, (find?_some known).2⟩, ?_⟩
  rintro ⟨needed, rfl⟩
  exact (closed_ofRoots roots).find?_of_mem (identified.mem_nodes.mpr needed)

/-- The inputs of a derivation are smaller than it, so what is needed has layers. -/
theorem Identified.fromRoots_eq : fromRoots roots = .ok (ofRoots roots) := by
  let rank (fingerprint : Fingerprint) : Nat := ((ofRoots roots).find? fingerprint).elim 0 sizeOf
  have ranked {node : Derivation} (needed : Needed roots node) : rank node.fingerprint = sizeOf node := by
    simp only [rank, identified.find?_eq_some.mpr ⟨needed, rfl⟩, Option.elim_some]
  obtain ⟨found, waves⟩ : ∃ found, (ofRoots roots).waves = .ok found := by
    refine exists_layers (closed_ofRoots roots).distinct rank (fun node member input uses _ => ?_) le_rfl
    obtain ⟨source, declared, rfl⟩ := mem_inputsOf.mp uses
    have needed := needed_of_mem member
    rw [ranked needed, ranked (.input needed declared)]
    exact Derivation.sizeOf_lt_of_input declared
  have sorted : (ofRoots roots).topological = .ok found.flatten := by
    rw [topological, waves]
    rfl
  simp [fromRoots, sorted, bind, Except.bind]

end

/-! ### The graph -/

/-- A graph is that of what some roots need: it has each derivation once, its edges are the
    direct inputs, and its roots stand in the order in which they are first asked for. -/
structure Closes (roots : List Derivation) (graph : BuildGraph) : Prop where
  once : (graph.nodes.map (·.fingerprint)).Nodup
  nodes : ∀ node, node ∈ graph.nodes ↔ Needed roots node
  contains : ∀ fingerprint, graph.contains fingerprint = true ↔ ∃ node, Needed roots node ∧ node.fingerprint = fingerprint
  derivation : ∀ fingerprint node, graph.find? fingerprint = some node ↔ Needed roots node ∧ node.fingerprint = fingerprint
  dependencies : ∀ fingerprint, (graph.dependencies fingerprint).Nodup ∧
    ∀ other, other ∈ graph.dependencies fingerprint ↔ ∃ node, Needed roots node ∧ node.fingerprint = fingerprint ∧
      ∃ input ∈ node.inputs, input.fingerprint = other
  dependents : ∀ fingerprint, (graph.dependents fingerprint).Nodup ∧
    ∀ other, other ∈ graph.dependents fingerprint ↔ fingerprint ∈ graph.dependencies other
  roots : graph.roots.Nodup ∧ (∀ fingerprint, fingerprint ∈ graph.roots ↔ ∃ root ∈ roots, root.fingerprint = fingerprint) ∧
    graph.roots.Pairwise fun one other =>
      (roots.map (·.fingerprint)).idxOf one < (roots.map (·.fingerprint)).idxOf other

theorem Identified.closes (identified : Identified roots) : Closes roots (ofRoots roots) := by
  have closed := closed_ofRoots roots
  refine ⟨closed.distinct, fun node => identified.mem_nodes, fun fingerprint => contains_ofRoots_iff identified.coherent,
    fun fingerprint node => identified.find?_eq_some, fun fingerprint => ⟨nodup_dependencies _ _, fun other => ?_⟩,
    fun fingerprint => ⟨closed.nodup_dependents _, fun other => closed.mem_dependents⟩,
    nodup_distinct _, fun fingerprint => mem_distinct.trans List.mem_map, distinct_inOrder _⟩
  constructor
  · intro uses
    obtain ⟨node, known⟩ := contains_iff.mp (contains_of_mem_dependencies uses)
    obtain ⟨needed, same⟩ := identified.find?_eq_some.mp known
    exact ⟨node, needed, same, (mem_dependencies known).mp uses⟩
  · rintro ⟨node, needed, same, declares⟩
    exact (mem_dependencies (identified.find?_eq_some.mpr ⟨needed, same⟩)).mpr declares

/-- Roots that were put together by declarations have a graph, which is that of all they need,
    if SHA-256 does not collide on it. No cycle is ever found. -/
theorem fromRoots_closes (built : ∀ root ∈ roots, root.Built) (separate : Separate roots) :
    ∃ graph, fromRoots roots = .ok graph ∧ Closes roots graph := by
  have identified := separate.identified built
  exact ⟨ofRoots roots, identified.fromRoots_eq, identified.closes⟩

end BuildGraph

/-! ### One recipe, written down twice -/

namespace Draft

/-- An input. -/
def plainTool : Derivation := (of "tool" []).build

/-- The same input, which declares the output that it has anyway. -/
def namedTool : Derivation := (of "tool" [.output "out"]).build

/-- A derivation that has both for inputs. -/
def doubled : Derivation := (of "app" [.inputs [plainTool, namedTool]]).build

/-- Roots of which one stands there twice and the others are its input. -/
def repeated : List Derivation := [doubled, namedTool, doubled, plainTool]

theorem namedTool_eq : namedTool = plainTool := rfl

theorem inputs_doubled : doubled.inputs = [plainTool, plainTool] := inputs_build

theorem needed_repeated {node : Derivation} (needed : Needed repeated node) : node = doubled ∨ node = plainTool := by
  induction needed with
  | root member =>
    simp only [repeated, namedTool_eq, List.mem_cons, List.not_mem_nil, or_false] at member
    tauto
  | input _ declared ih =>
    rcases ih with rfl | rfl
    · exact Or.inr (by simpa [inputs_doubled] using declared)
    · cases declared

theorem built_repeated : ∀ root ∈ repeated, root.Built := by
  have tool : plainTool.Built := .build "tool" [] (by simp)
  have app : doubled.Built := .build "app" _ (by simpa [Declaration.derivations, namedTool_eq] using tool)
  simp [repeated, namedTool_eq, tool, app]

theorem separate_repeated : Separate repeated := by
  have apart : Sha256.Apart doubled.encoding plainTool.encoding := by
    rw [Sha256.Apart]
    decide +kernel
  intro node twin needed needed'
  rcases needed_repeated needed with rfl | rfl <;> rcases needed_repeated needed' with rfl | rfl
  · exact fun _ => rfl
  · exact apart
  · exact fun same => (apart same.symm).symm
  · exact fun _ => rfl

/-- The graph of the roots has two nodes, with one edge between them. -/
theorem fromRoots_closes_repeated : ∃ graph, fromRoots repeated = .ok graph ∧
    (∀ node, node ∈ graph.nodes ↔ node = doubled ∨ node = plainTool) ∧
    graph.dependencies doubled.fingerprint = [plainTool.fingerprint] := by
  obtain ⟨graph, made, closes⟩ := fromRoots_closes built_repeated separate_repeated
  have application : Needed repeated doubled := .root (by simp [repeated])
  refine ⟨graph, made, fun node => (closes.nodes node).trans ⟨needed_repeated, ?_⟩, ?_⟩
  · rintro (rfl | rfl)
    · exact application
    · exact .root (by simp [repeated])
  · simp [dependencies, (closes.derivation _ _).mpr ⟨application, rfl⟩, inputsOf, inputs_doubled, distinct]

end Draft
end Pkgset

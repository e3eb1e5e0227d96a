import Pkgset.Build.Error
import Pkgset.Derivation

/-!
# Build graphs

The graph of a request: its roots and everything that can be reached from them
through inputs, one derivation for each fingerprint.
-/

namespace Pkgset

/-- A graph: the fingerprints of its roots, and its derivations in the order in which
    they were found. -/
structure BuildGraph where
  roots : List Fingerprint
  nodes : List Derivation

namespace BuildGraph

/-- Whether a list has a derivation of a fingerprint. -/
def found (nodes : List Derivation) (fingerprint : Fingerprint) : Bool := nodes.any (·.fingerprint = fingerprint)

mutual

/-- The derivations found so far, and those found through one more, which comes
    before its inputs. -/
def visit (nodes : List Derivation) : Derivation → List Derivation
  | .mk name platforms inputs phases outputs fingerprint =>
    if found nodes fingerprint then nodes
    else visitAll (nodes ++ [.mk name platforms inputs phases outputs fingerprint]) inputs

/-- The derivations found so far, and those found through several more in turn. -/
def visitAll (nodes : List Derivation) : List Derivation → List Derivation
  | [] => nodes
  | first :: rest => visitAll (visit nodes first) rest

end

/-- Fingerprints without repetitions, in the order in which they first occur. -/
def distinct (fingerprints : List Fingerprint) : List Fingerprint :=
  fingerprints.foldl (fun found fingerprint => if found.contains fingerprint then found else found ++ [fingerprint]) []

/-- The graph of some roots. -/
def ofRoots (roots : List Derivation) : BuildGraph := ⟨distinct (roots.map (·.fingerprint)), visitAll [] roots⟩

/-- The derivation of a fingerprint. -/
def find? (graph : BuildGraph) (fingerprint : Fingerprint) : Option Derivation :=
  graph.nodes.find? (·.fingerprint = fingerprint)

/-- Whether a fingerprint is in the graph. -/
def contains (graph : BuildGraph) (fingerprint : Fingerprint) : Bool := found graph.nodes fingerprint

/-- The number of derivations. -/
def size (graph : BuildGraph) : Nat := graph.nodes.length

/-- The fingerprints of the direct inputs of a derivation, without repetitions. -/
def inputsOf (derivation : Derivation) : List Fingerprint := distinct (derivation.inputs.map (·.fingerprint))

/-- The direct inputs of a fingerprint. -/
def dependencies (graph : BuildGraph) (fingerprint : Fingerprint) : List Fingerprint :=
  match graph.find? fingerprint with
  | some derivation => inputsOf derivation
  | none => []

/-- The derivations of the graph that have a fingerprint as a direct input. -/
def dependents (graph : BuildGraph) (fingerprint : Fingerprint) : List Fingerprint :=
  (graph.nodes.filter fun node => (inputsOf node).contains fingerprint).map (·.fingerprint)

/-- The derivations of which no direct input is among some. -/
def ready (remaining : List Derivation) : List Derivation :=
  remaining.filter fun node => (inputsOf node).all fun input => !found remaining input

/-- The layers of what remains, within a number of layers: in each, the derivations
    whose inputs are all in earlier ones, in the order of their fingerprints. -/
def layers : Nat → List Derivation → Except BuildError (List (List Fingerprint))
  | _, [] => .ok []
  | 0, _ :: _ => .error .cycle
  | bound + 1, remaining => do
    let next := ready remaining
    if next.isEmpty then .error .cycle
    else
      let layer := (next.map (·.fingerprint)).mergeSort Fingerprint.le
      let later ← layers bound (remaining.filter fun node => !layer.contains node.fingerprint)
      .ok (layer :: later)

/-- The layers of the graph. -/
def waves (graph : BuildGraph) : Except BuildError (List (List Fingerprint)) := layers graph.size graph.nodes

/-- The derivations in an order in which inputs come first. -/
def topological (graph : BuildGraph) : Except BuildError (List Fingerprint) := graph.waves.map List.flatten

/-- The graph of some roots, unless their inputs form a cycle. -/
def fromRoots (roots : List Derivation) : Except BuildError BuildGraph := do
  let graph := ofRoots roots
  let _ ← graph.topological
  .ok graph

/-- Whether a list has every derivation of the graph once, inputs first. -/
def isTopological (graph : BuildGraph) (order : List Fingerprint) : Bool :=
  order.length = graph.size &&
    order.zipIdx.all fun (fingerprint, place) =>
      graph.contains fingerprint && !(order.take place).contains fingerprint &&
        (graph.dependencies fingerprint).all (order.take place).contains

end BuildGraph
end Pkgset

import Pkgset.Proofs.Files.Listing
import Pkgset.Proofs.Files.Ways

/-!
# Trees that are told apart by their hashes

Two trees of one hash hold the same at the same places, if SHA-256 does not collide and no
name has a line feed in it that is followed by a letter that starts a line. Such a line
feed makes one name look like two lines, so two folders can have the hash of a single one.
-/

namespace Pkgset
open Node

namespace Node

/-- No name in a tree is excluded. -/
def Clear (exclude : List String) (node : Node) : Prop :=
  ∀ place found, node.at? place = some found → Open exclude place

variable {named : String → Prop} {exclude : List String} {entries : Dict Node} {name : String} {child : Node}

theorem Clear.parts (clear : (Node.folder entries).Clear exclude) (held : Dict.get? entries name = some child) :
    name ∉ exclude ∧ child.Clear exclude := by
  have below {place : Place} {found : Node} (there : child.at? place = some found) : Open exclude (name :: place) :=
    clear (name :: place) found (at?_cons.mpr ⟨child, held, there⟩)
  have here : child.at? [] = some child := rfl
  exact ⟨(open_cons.mp (below here)).1, fun place found there => (open_cons.mp (below there)).2⟩

end Node

namespace TreeHash
variable {named : String → Prop} {exclude : List String} {node : Node} {entries : Dict Node}

private theorem entryLines_congr {exclude other : List String} {folder : String}
    (same : ∀ name child, (name, child) ∈ entries → name ∉ exclude ∧ name ∉ other ∧
      lines exclude (within folder name) child = lines other (within folder name) child) :
    entryLines exclude folder entries = entryLines other folder entries := by
  induction entries with
  | nil => rfl
  | cons entry rest ih =>
    obtain ⟨name, child⟩ := entry
    obtain ⟨shown, shown', alike⟩ := same name child List.mem_cons_self
    rw [entryLines, entryLines, if_neg (by simpa using shown), if_neg (by simpa using shown'), alike,
      ih fun name child member => same name child (List.mem_cons_of_mem _ member)]

/-- Where no name is excluded, nothing is left out. -/
theorem lines_of_clear {node : Node} (lists : node.Lists named []) (clear : node.Clear exclude) (path : String) :
    lines exclude path node = lines [] path node := by
  match node with
  | .file content traits => rw [lines, lines]
  | .link target => rw [lines, lines]
  | .folder entries =>
    rw [lines, lines, entryLines_congr fun name child member => ?_]
    have held := lists.parts.1.get?_of_mem member
    obtain ⟨shown, below⟩ := clear.parts held
    exact ⟨shown, List.not_mem_nil, lines_of_clear (lists.of_get? held List.not_mem_nil) below _⟩
termination_by sizeOf node
decreasing_by exact sizeOf_lt_of_mem member

theorem ofNode_of_clear (lists : (Node.folder entries).Lists named []) (clear : (Node.folder entries).Clear exclude) :
    ofNode exclude (.folder entries) = ofNode [] (.folder entries) := by
  have same := lines_of_clear lists clear ""
  rw [lines, lines, List.cons.injEq] at same
  rw [ofNode, ofNode, rootLines, rootLines, same.2]

end TreeHash

namespace Disk
variable {disk disk' : Disk} {root root' : String} {exclude exclude' : List String} {entries entries' : Dict Node}

theorem treeHash_of_node {node : Node} (leads : disk.node true root = .ok node)
    (shown : (Path.fileName? root).getD root ∉ exclude) :
    disk.treeHash root exclude = .ok (TreeHash.ofNode exclude node) := by
  rw [treeHash, leads]
  exact if_neg (by simpa using shown)

/-- Folders without excluded names have hashes. Where SHA-256 does not collide on them, and
    no name in them has a line feed before a letter that starts a line, the hashes are the
    same exactly when every place shows the same in both: nothing, a folder, a file with its
    content, or a link with its target. -/
theorem treeHash_eq_iff (leads : disk.node true root = .ok (.folder entries))
    (leads' : disk'.node true root' = .ok (.folder entries')) (shown : (Path.fileName? root).getD root ∉ exclude)
    (shown' : (Path.fileName? root').getD root' ∉ exclude') (clear : (Node.folder entries).Clear exclude)
    (clear' : (Node.folder entries').Clear exclude') (lists : (Node.folder entries).Lists Tellable [])
    (lists' : (Node.folder entries').Lists Tellable []) (apart : TreeHash.Apart [] (.folder entries) (.folder entries')) :
    ∃ hash hash', disk.treeHash root exclude = .ok hash ∧ disk'.treeHash root' exclude' = .ok hash' ∧
      (hash = hash' ↔ ∀ place, (Node.folder entries).face? place = (Node.folder entries').face? place) := by
  refine ⟨_, _, treeHash_of_node leads shown, treeHash_of_node leads' shown', ?_⟩
  rw [TreeHash.ofNode_of_clear lists clear, TreeHash.ofNode_of_clear lists' clear',
    TreeHash.ofNode_eq_iff_of_tellable lists lists' apart]
  exact ⟨fun faces place => faces place fun _ _ => List.not_mem_nil, fun faces place _ => faces place⟩

end Disk

/-! ### Names of several lines -/

namespace Feeds
open Disk

/-- A disk with a folder `t`. -/
def disk (entries : Dict Node) : Disk := ⟨.folder [("t", .folder entries)]⟩

/-- A file whose name has a line feed in it. -/
def note (content : Bytes) : Dict Node := [("a\nb", .file content .ordinary)]

/-- Two empty folders. -/
def two : Dict Node := [("x", .empty), ("y", .empty)]

/-- One empty folder, whose name looks like the lines of both. -/
def one : Dict Node := [("x\nD:y", .empty)]

theorem node_disk (entries : Dict Node) : (disk entries).node true "/t" = .ok (.folder entries) := by
  have spells : Path.Spells "/t" ["t"] := ⟨by decide +kernel, [], "t", by decide +kernel, by decide, rfl⟩
  have legal : Legal "/t" := by
    refine ⟨?_, by decide⟩
    simp only [String.any, String.contains_prop_eq]
    decide
  have short : ¬ nameLimit < "t".utf8ByteSize := by decide
  have found : (disk entries).target true "/t" = .ok (.found ["t"]) := by
    rw [target_of_legal spells legal, walk]
    simp [disk, Node.at?, Dict.get?, short, walk]
  rw [node, place, found]
  simp [bind, Except.bind, disk, Node.at?, Dict.get?]

theorem shows_all (node : Node) : node.Clear [] := fun _ _ _ _ _ => List.not_mem_nil

theorem lists_empty (named : String → Prop) : Node.empty.Lists named [] := .folder .nil fun _ _ held => by cases held

theorem payload_empties {entries : Dict Node} {place : Place} {found : Node} (empties : ∀ entry ∈ entries, entry.2 = .empty)
    (there : (Node.folder entries).at? place = some found) : found.payload = [] := by
  cases place with
  | nil =>
    cases there
    rfl
  | cons name rest =>
    obtain ⟨child, held, there⟩ := at?_cons.mp there
    cases empties _ (Dict.mem_of_get? held)
    cases rest with
    | nil =>
      cases there
      rfl
    | cons second rest => cases there

theorem lists_note (content : Bytes) : (Node.folder (note content)).Lists Tellable [] := by
  refine .folder (List.pairwise_singleton _ _) fun name child held _ => ?_
  obtain ⟨rfl, rfl⟩ := List.mem_singleton.mp (Dict.mem_of_get? held) |> Prod.mk.inj
  refine ⟨⟨by decide, by decide, ?_⟩, ?_⟩
  · simp [Unbroken, StartsLine]
  · intro place entries _ there
    cases place with
    | nil => cases there
    | cons name rest => cases there

theorem apart_notes : TreeHash.Apart [] (.folder (note [1])) (.folder (note [2])) := by
  refine ⟨?_, fun place found found' _ there there' => ?_⟩
  · rw [Sha256.Apart]
    decide +kernel
  · match place with
    | [] =>
      cases there
      cases there'
      exact fun _ => rfl
    | name :: rest =>
      obtain ⟨child, held, there⟩ := at?_cons.mp there
      obtain ⟨child', held', there'⟩ := at?_cons.mp there'
      obtain ⟨_, rfl⟩ := List.mem_singleton.mp (Dict.mem_of_get? held) |> Prod.mk.inj
      obtain ⟨_, rfl⟩ := List.mem_singleton.mp (Dict.mem_of_get? held') |> Prod.mk.inj
      cases rest with
      | nil =>
        cases there
        cases there'
        have apart : Sha256.Apart [1] [2] := by
          rw [Sha256.Apart]
          decide +kernel
        exact apart
      | cons second rest => simp [at?] at there

end Feeds

open Feeds in
/-- Files of one name that is two lines long are told apart by their contents. -/
theorem Disk.treeHash_eq_iff_note : ∃ hash hash', (disk (note [1])).treeHash "/t" [] = .ok hash ∧
    (disk (note [2])).treeHash "/t" [] = .ok hash' ∧ hash ≠ hash' := by
  obtain ⟨hash, hash', hashes, hashes', same⟩ := Disk.treeHash_eq_iff (node_disk _) (node_disk _) List.not_mem_nil
    List.not_mem_nil (shows_all _) (shows_all _) (lists_note [1]) (lists_note [2]) apart_notes
  refine ⟨hash, hash', hashes, hashes', fun equal => ?_⟩
  have faces := same.mp equal ["a\nb"]
  simp [face?, note, face, at?, Dict.get?] at faces

open Feeds in
/-- Two folders have the hash of a single one whose name holds a line feed: the lines of the
    trees are the same text, so SHA-256 has no part in it. -/
theorem Disk.treeHash_confuses : ∃ hash, (disk two).treeHash "/t" [] = .ok hash ∧ (disk one).treeHash "/t" [] = .ok hash ∧
    (disk two).node true "/t" = .ok (.folder two) ∧ (disk one).node true "/t" = .ok (.folder one) ∧
    (Node.folder two).Lists (fun name => name ≠ "" ∧ '/' ∉ name.toList) [] ∧
    (Node.folder one).Lists (fun name => name ≠ "" ∧ '/' ∉ name.toList) [] ∧
    TreeHash.Apart [] (.folder two) (.folder one) ∧
    (Node.folder two).face? ["y"] = some .empty ∧ (Node.folder one).face? ["y"] = none := by
  have text : TreeHash.encode (TreeHash.rootLines [] (.folder two)) = TreeHash.encode (TreeHash.rootLines [] (.folder one)) := by
    have lines : TreeHash.rootLines [] (.folder two) = ["D:x", "D:y"] := rfl
    have lines' : TreeHash.rootLines [] (.folder one) = ["D:x\nD:y"] := rfl
    rw [lines, lines']
    decide +kernel
  have hashes : (disk two).treeHash "/t" [] = .ok (TreeHash.ofNode [] (.folder one)) := by
    rw [Disk.treeHash_of_node (node_disk two) List.not_mem_nil, TreeHash.ofNode, text, TreeHash.ofNode]
  have ascends : (Dict.keys two).Pairwise (· < ·) := by decide
  refine ⟨_, hashes, Disk.treeHash_of_node (node_disk one) List.not_mem_nil, node_disk two, node_disk one, ?_, ?_, ?_, ?_, ?_⟩
  · refine .folder ascends fun name child held _ => ?_
    rcases List.mem_cons.mp (Dict.mem_of_get? held) with first | member
    · cases first
      exact ⟨by decide, lists_empty _⟩
    · cases List.mem_singleton.mp member
      exact ⟨by decide, lists_empty _⟩
  · refine .folder (List.pairwise_singleton _ _) fun name child held _ => ?_
    cases List.mem_singleton.mp (Dict.mem_of_get? held)
    exact ⟨by decide, lists_empty _⟩
  · refine ⟨fun _ => text, fun place found found' _ there there' _ => ?_⟩
    rw [payload_empties (by simp [two]) there, payload_empties (by simp [one]) there']
  · rfl
  · rfl

end Pkgset

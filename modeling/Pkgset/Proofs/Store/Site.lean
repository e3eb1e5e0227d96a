import Pkgset.Proofs.Files.Ways
import Pkgset.Store
import Mathlib.Logic.Relation

/-!
# The site of a store

A store stands where the path of its root leads. As far as the way is there, it is known
from a bare tree without the entries, and every tree of interest shows what the bare tree
shows. The rest of the way are plain names of folders that are made with the first entry.
-/

namespace Pkgset
open Disk Node Pkgset.Path

namespace Store

/-- The name of the entry of a derivation. -/
def entryName (derivation : Derivation) : String := derivation.fingerprint.short ++ "-" ++ derivation.name

/-- The names of entries and outputs are plain, no output is named like the marker or a
    scratch folder, and no two derivations share an entry. -/
structure Proper (nodes : List Derivation) : Prop where
  names : ∀ node ∈ nodes, Plain (entryName node)
  outputs : ∀ node ∈ nodes, ∀ output ∈ node.outputs, Plain output ∧ output ∉ exclusions
  apart : ∀ node ∈ nodes, ∀ other ∈ nodes, entryName node = entryName other → node = other

/-- Where a store stands: names that lead to a folder of a bare tree, and plain names from
    there, none of which is there unless all are; the entries are not there. -/
structure Site (store : Store) (nodes : List Derivation) where
  names : List String
  base : Place
  rest : List String
  bare : Node
  way : Path.way store.root = names ++ rest
  leads : ∃ links, Leads bare linkLimit [] names links base
  folder : FolderAt bare base
  plain : ∀ name ∈ rest, Plain name
  unmade : ∀ before after, rest = before ++ after → before ≠ [] → bare.at? (base ++ before) = none
  free : ∀ node ∈ nodes, bare.at? (base ++ (rest ++ [entryName node])) = none
  proper : Proper nodes

namespace Site
variable {store : Store} {nodes : List Derivation} {site : store.Site nodes} {root after : Node} {node other : Derivation}

/-- The place of an entry. -/
def home (site : store.Site nodes) (node : Derivation) : Place := site.base ++ (site.rest ++ [entryName node])

/-- A tree shows what the bare tree shows, and the rest of the way is clear. -/
structure Holds (site : store.Site nodes) (root : Node) : Prop where
  within : site.bare.Within root
  clear : Clear root site.base site.rest

theorem Holds.folder (holds : site.Holds root) : FolderAt root site.base := holds.within _ _ site.folder

/-- A path of the site leads along it. -/
theorem Holds.descent {disk : Disk} (holds : site.Holds disk.root) {path : String} {names : List String} {follow : Bool}
    (spells : Spells path (site.names ++ names)) (filled : names ≠ []) (plain : ∀ name ∈ names, Plain name)
    (direct : Direct disk.root site.base follow names) :
    Descent disk.root site.base names (disk.target follow path) := by
  rcases target_cases spells with walks | ⟨error, other, refused⟩
  · obtain ⟨links, leads⟩ := site.leads
    rw [walks, (leads.mono holds.within).walk (Or.inr filled)]
    exact Disk.descent holds.folder filled plain direct
  · rw [refused]
    exact .refused other

/-! ### Changes of one entry -/

/-- The tree changes within the entry of a derivation, or a folder is made on the way. -/
inductive Changes (site : store.Site nodes) (node : Derivation) (root : Node) : Node → Prop where
  | entry (below : Place) (content : Option Node) : Changes site node root (root.replace (site.home node ++ below) content)
  | way {before after : List String} (split : site.rest = before ++ after) (filled : before ≠ [])
      (absent : root.at? (site.base ++ before) = none) :
      Changes site node root (root.replace (site.base ++ before) (some .empty))

theorem Changes.whole (content : Option Node) : site.Changes node root (root.replace (site.home node) content) := by
  have changes : site.Changes node root (root.replace (site.home node ++ []) content) := .entry [] content
  rwa [List.append_nil] at changes

/-- The tree changes several times within the entry of a derivation, or folders are made
    on the way. -/
def Works (site : store.Site nodes) (node : Derivation) : Node → Node → Prop := Relation.ReflTransGen (site.Changes node)

/-- Nothing stands in the place of an entry, or a folder without a marker. -/
structure Unmarked (site : store.Site nodes) (root : Node) (node : Derivation) : Prop where
  entry : root.at? (site.home node) = none ∨ FolderAt root (site.home node)
  marker : root.at? (site.home node ++ [StoreMarker.fileName]) = none

theorem home_eq (site : store.Site nodes) (node : Derivation) :
    site.home node = site.base ++ site.rest ++ [entryName node] := by simp [home]

/-- Entries of different derivations are beside each other. -/
theorem home_append_ne (member : node ∈ nodes) (member' : other ∈ nodes) (apart : node ≠ other) (below rest : Place) :
    site.home node ++ below ≠ site.home other ++ rest := by
  intro same
  simp only [home, List.append_assoc, List.append_cancel_left_eq, List.cons_append, List.cons.injEq] at same
  exact apart (site.proper.apart node member other member' same.1)

theorem at?_replace_home (member : node ∈ nodes) (member' : other ∈ nodes) (apart : node ≠ other) (below rest : Place)
    (content : Option Node) :
    (root.replace (site.home node ++ below) content).at? (site.home other ++ rest) = root.at? (site.home other ++ rest) := by
  refine at?_replace ?_ ?_
  · rintro ⟨more, same⟩
    exact home_append_ne member member' apart (below ++ more) rest (by rw [← List.append_assoc, same])
  · rintro ⟨more, same⟩
    exact home_append_ne member member' apart below (rest ++ more) (by rw [← List.append_assoc, same])

/-- An entry is below the way to the site. -/
theorem home_not_below {before rest : List String} (split : site.rest = before ++ rest) (below : Place) :
    ¬ site.home node ++ below <+: site.base ++ before := by
  intro reaches
  have longer := reaches.length_le
  simp only [home, split, List.length_append, List.length_singleton] at longer
  omega

theorem Changes.holds (changes : site.Changes node root after) (member : node ∈ nodes) (holds : site.Holds root) :
    site.Holds after := by
  cases changes with
  | entry below content =>
    refine ⟨holds.within.replace (at?_append_of_none (site.free node member) below) content, ?_⟩
    intro before rest split filled
    have same : (root.replace (site.home node ++ below) content).seen? (site.base ++ before) =
        root.seen? (site.base ++ before) := seen?_replace (home_not_below split below)
    rw [FolderAt, ← seen?_eq_none, same, seen?_eq_none]
    exact holds.clear before rest split filled
  | @way before more split filled absent =>
    refine ⟨holds.within.replace (site.unmade before more split filled) _, ?_⟩
    intro before' rest split' filled'
    by_cases reaches : site.base ++ before <+: site.base ++ before'
    · obtain ⟨below, same⟩ := reaches
      rw [← same]
      rcases at?_replace_empty absent below with gone | ⟨rfl, made⟩
      · exact Or.inl gone
      · rw [List.append_nil]
        exact Or.inr (by rw [FolderAt, seen?, made]; rfl)
    · rw [FolderAt, ← seen?_eq_none, seen?_replace reaches, seen?_eq_none]
      exact holds.clear before' rest split' filled'

theorem Works.holds (works : site.Works node root after) (member : node ∈ nodes) (holds : site.Holds root) :
    site.Holds after := by
  induction works with
  | refl => exact holds
  | tail _ changes ih => exact changes.holds member ih

/-- On the way to the site nothing of an entry changes. -/
theorem at?_replace_way (node : Derivation) {before rest : List String} (split : site.rest = before ++ rest)
    (absent : root.at? (site.base ++ before) = none) (below : Place) :
    root.at? (site.home node ++ below) = none ∧
      (root.replace (site.base ++ before) (some .empty)).at? (site.home node ++ below) = none := by
  have deeper : site.home node ++ below = site.base ++ before ++ (rest ++ [entryName node] ++ below) := by
    simp [home, split]
  rw [deeper]
  refine ⟨at?_append_of_none absent _, ?_⟩
  rcases at?_replace_empty absent (rest ++ [entryName node] ++ below) with gone | ⟨empty, _⟩
  · exact gone
  · simp at empty

/-- What one derivation does leaves the entries of the others as they are. -/
theorem Changes.at?_eq (changes : site.Changes node root after) (member : node ∈ nodes) (member' : other ∈ nodes)
    (apart : node ≠ other) (below : Place) : after.at? (site.home other ++ below) = root.at? (site.home other ++ below) := by
  cases changes with
  | entry place content => exact at?_replace_home member member' apart place below content
  | way split filled absent =>
    obtain ⟨before, later⟩ := at?_replace_way other split absent below
    rw [before, later]

theorem Works.at?_eq (works : site.Works node root after) (member : node ∈ nodes) (member' : other ∈ nodes)
    (apart : node ≠ other) (below : Place) : after.at? (site.home other ++ below) = root.at? (site.home other ++ below) := by
  induction works with
  | refl => rfl
  | tail _ changes ih => rw [changes.at?_eq member member' apart below, ih]

/-- A change in an entry is not seen at the place of the entry. -/
theorem seen?_replace_part (part : String) (below : Place) (content : Option Node) :
    (root.replace (site.home node ++ part :: below) content).seen? (site.home node) = root.seen? (site.home node) :=
  seen?_replace fun reaches => absurd reaches.length_le (by simp)

/-- A change in one part of an entry leaves the others. -/
theorem at?_replace_part {part other : String} (apart : part ≠ other) (below rest : Place) (content : Option Node) :
    (root.replace (site.home node ++ part :: below) content).at? (site.home node ++ other :: rest) =
      root.at? (site.home node ++ other :: rest) := by
  refine at?_replace (fun reaches => ?_) fun reaches => ?_
  all_goals
    have same := (List.prefix_append_right_inj _).mp reaches
    rw [List.cons_prefix_cons] at same
  · exact apart same.1
  · exact apart same.1.symm

/-- An entry that shows the same, with the same in the place of its marker, is unmarked if it was. -/
theorem Unmarked.alike (unmarked : site.Unmarked root node)
    (shown : after.seen? (site.home node) = root.seen? (site.home node))
    (marker : after.at? (site.home node ++ [StoreMarker.fileName]) = root.at? (site.home node ++ [StoreMarker.fileName])) :
    site.Unmarked after node := by
  refine ⟨?_, marker.trans unmarked.marker⟩
  rw [FolderAt, ← seen?_eq_none, shown, seen?_eq_none]
  exact unmarked.entry

/-- Something else than the marker changes in an entry. -/
theorem Unmarked.inside (unmarked : site.Unmarked root node) {part : String} (other : part ≠ StoreMarker.fileName)
    (below : Place) (content : Option Node) : site.Unmarked (root.replace (site.home node ++ part :: below) content) node :=
  unmarked.alike (seen?_replace_part part below content) (at?_replace_part other below [] content)

theorem seen?_home (same : ∀ below, after.at? (site.home node ++ below) = root.at? (site.home node ++ below)) :
    after.seen? (site.home node) = root.seen? (site.home node) := by
  have here := same []
  rw [List.append_nil] at here
  rw [seen?, here, seen?]

theorem Unmarked.congr (unmarked : site.Unmarked root node)
    (same : ∀ below, after.at? (site.home node ++ below) = root.at? (site.home node ++ below)) :
    site.Unmarked after node := unmarked.alike (seen?_home same) (same _)

/-- No link stands in the place of an entry or in that of its marker. -/
structure Unlinked (site : store.Site nodes) (root : Node) (node : Derivation) : Prop where
  entry : ∀ target, root.at? (site.home node) ≠ some (.link target)
  marker : ∀ target, root.at? (site.home node ++ [StoreMarker.fileName]) ≠ some (.link target)

theorem Unmarked.unlinked (unmarked : site.Unmarked root node) : site.Unlinked root node := by
  refine ⟨fun target linked => ?_, by simp [unmarked.marker]⟩
  rcases unmarked.entry with absent | folder
  · simp [absent] at linked
  · rw [FolderAt, seen?, linked] at folder
    cases folder

theorem Unlinked.alike (unlinked : site.Unlinked root node)
    (shown : after.seen? (site.home node) = root.seen? (site.home node))
    (marker : after.at? (site.home node ++ [StoreMarker.fileName]) = root.at? (site.home node ++ [StoreMarker.fileName])) :
    site.Unlinked after node := by
  refine ⟨fun target => ?_, by rw [marker]; exact unlinked.marker⟩
  rw [Ne, ← seen?_eq_link, shown, seen?_eq_link]
  exact unlinked.entry target

theorem Unlinked.congr (unlinked : site.Unlinked root node)
    (same : ∀ below, after.at? (site.home node ++ below) = root.at? (site.home node ++ below)) :
    site.Unlinked after node := unlinked.alike (seen?_home same) (same _)

end Site
end Store
end Pkgset

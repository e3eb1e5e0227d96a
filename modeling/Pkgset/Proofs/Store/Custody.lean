import Pkgset.Proofs.Store.Keeping

/-!
# How entries stand

While derivations are built in a store, an entry is as it was at the start, or it has no
marker, or it is complete. A custody is what is known of the files meanwhile: what each
standing says of the entry, and what making, working in and completing one entry does to
it; the other entries stand as they stood. It does not matter to a build how this is known.
-/

namespace Pkgset.Store

/-- How an entry stands: as it was at the start, without a marker, or complete. -/
inductive Standing where
  | kept | bare | complete

/-- The files change in an output or scratch folder of an entry. -/
def Reworks (store : Store) (node : Derivation) (disk disk' : Disk) : Prop :=
  ∃ entry, disk.target true (store.entryPath node) = .ok (.found entry) ∧
    ∃ part ∈ node.outputs ++ scratch, ∃ below content, disk'.root = disk.root.replace (entry ++ part :: below) content

/-- What is known of files at all times, and of how entries stand in them. -/
structure Tally where
  Sound : Disk → Prop
  Stands : Disk → Derivation → Standing → Prop

/-- One derivation changes the files, and the entries of the others stand as they stood. -/
structure Tally.Spares (tally : Tally) (nodes : List Derivation) (node : Derivation) (disk disk' : Disk) : Prop where
  sound : tally.Sound disk'
  others : ∀ other ∈ nodes, other ≠ node → ∀ standing, tally.Stands disk other standing → tally.Stands disk' other standing

/-- A tally that is right about what is accepted and about what is done to entries. -/
structure Custody (store : Store) (nodes : List Derivation) (start : Disk) extends Tally where
  sound : Sound start
  kept : ∀ node ∈ nodes, Stands start node .kept
  accepts_kept : ∀ {disk node}, node ∈ nodes → Sound disk → Stands disk node .kept →
    (store.Accepts disk node ↔ store.Accepts start node)
  not_accepts : ∀ {disk node}, node ∈ nodes → Sound disk → Stands disk node .bare → ¬ store.Accepts disk node
  accepts : ∀ {disk node}, node ∈ nodes → Sound disk → Stands disk node .complete → store.Accepts disk node
  prepares : ∀ {disk node}, node ∈ nodes → Sound disk →
    toTally.Spares nodes node disk (store.prepare disk node).1 ∧
      ((store.prepare disk node).1 = disk ∨ Stands (store.prepare disk node).1 node .bare) ∧
      ∀ outputs, (store.prepare disk node).2 = .ok outputs →
        outputs = store.outputsFor node ∧ Stands (store.prepare disk node).1 node .bare
  reworks : ∀ {disk disk' node}, node ∈ nodes → Sound disk → Stands disk node .bare → store.Reworks node disk disk' →
    toTally.Spares nodes node disk disk' ∧ Stands disk' node .bare
  commits : ∀ {disk node}, node ∈ nodes → Sound disk → Stands disk node .bare →
    toTally.Spares nodes node disk (commit disk node (store.outputsFor node)).1 ∧
      (∀ error, (commit disk node (store.outputsFor node)).2 = .error error →
        Stands (commit disk node (store.outputsFor node)).1 node .bare) ∧
      ((commit disk node (store.outputsFor node)).2 = .ok () →
        Stands (commit disk node (store.outputsFor node)).1 node .complete)

namespace Custody
variable {store : Store} {nodes : List Derivation} {start disk disk' : Disk} {node : Derivation}
  {custody : store.Custody nodes start}

/-- An entry is as it was, or nobody wanted it as it was and it has no marker. -/
def Open (custody : store.Custody nodes start) (disk : Disk) (node : Derivation) : Prop :=
  custody.Stands disk node .kept ∨ custody.Stands disk node .bare ∧ ¬ store.Accepts start node

/-- An entry is as it was and accepted, or complete. -/
def Firm (custody : store.Custody nodes start) (disk : Disk) (node : Derivation) : Prop :=
  custody.Stands disk node .kept ∧ store.Accepts start node ∨ custody.Stands disk node .complete

theorem Open.accepts_iff (opened : custody.Open disk node) (member : node ∈ nodes) (sound : custody.Sound disk) :
    store.Accepts disk node ↔ store.Accepts start node := by
  rcases opened with kept | ⟨bare, unwanted⟩
  · exact custody.accepts_kept member sound kept
  · exact iff_of_false (custody.not_accepts member sound bare) unwanted

theorem Firm.accepts (firm : custody.Firm disk node) (member : node ∈ nodes) (sound : custody.Sound disk) :
    store.Accepts disk node := by
  rcases firm with ⟨kept, accepted⟩ | complete
  · exact (custody.accepts_kept member sound kept).mpr accepted
  · exact custody.accepts member sound complete

/-- What is open and accepted is firm. -/
theorem Open.firm (opened : custody.Open disk node) (member : node ∈ nodes) (sound : custody.Sound disk)
    (accepted : store.Accepts disk node) : custody.Firm disk node := by
  rcases opened with kept | ⟨bare, _⟩
  · exact Or.inl ⟨kept, (custody.accepts_kept member sound kept).mp accepted⟩
  · exact absurd accepted (custody.not_accepts member sound bare)

/-! ### Another start -/

/-- The tally in which entries are kept if they stand as they do now. -/
def anew (tally : Tally) (disk : Disk) : Tally where
  Sound := tally.Sound
  Stands disk' node
    | .kept => ∃ standing, tally.Stands disk node standing ∧ tally.Stands disk' node standing
    | standing => tally.Stands disk' node standing

theorem spares_anew {tally : Tally} {fewer : List Derivation} {later later' : Disk} (within : fewer ⊆ nodes)
    (spares : tally.Spares nodes node later later') : (anew tally disk).Spares fewer node later later' := by
  refine ⟨spares.sound, fun other member apart standing => ?_⟩
  have steady := spares.others other (within member) apart
  cases standing with
  | kept => exact fun ⟨before, then', now⟩ => ⟨before, then', steady _ now⟩
  | bare => exact steady _
  | complete => exact steady _

/-- A custody of some of the derivations that starts with their entries as they stand now. -/
def renew (custody : store.Custody nodes start) {fewer : List Derivation} (within : fewer ⊆ nodes)
    (sound : custody.Sound disk) (stands : ∀ node ∈ fewer, ∃ standing, custody.Stands disk node standing) :
    store.Custody fewer disk where
  toTally := anew custody.toTally disk
  sound := sound
  kept := fun node member => (stands node member).imp fun _ here => ⟨here, here⟩
  accepts_kept := by
    rintro disk' node member sound' ⟨standing, before, now⟩
    have member := within member
    cases standing with
    | kept => exact (custody.accepts_kept member sound' now).trans (custody.accepts_kept member sound before).symm
    | bare => exact iff_of_false (custody.not_accepts member sound' now) (custody.not_accepts member sound before)
    | complete => exact iff_of_true (custody.accepts member sound' now) (custody.accepts member sound before)
  not_accepts := fun member => custody.not_accepts (within member)
  accepts := fun member => custody.accepts (within member)
  prepares := fun member sound => (custody.prepares (within member) sound).imp_left (spares_anew within)
  reworks := fun member sound bare reworks =>
    (custody.reworks (within member) sound bare reworks).imp_left (spares_anew within)
  commits := fun member sound bare => (custody.commits (within member) sound bare).imp_left (spares_anew within)

end Custody
end Pkgset.Store

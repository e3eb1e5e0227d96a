import Pkgset.Proofs.Store.Custody

/-!
# Stores whose entries are separate

Whether an entry is accepted may depend on more than the entry, and the way to the store
may go through an entry, but only by links and by steps upwards. Where neither is so, there
is a custody of the store: its root leads to a folder, or folders are missing on the way and
are made with the first entry, or the way is blocked and nothing is ever made.
-/

namespace Pkgset.Store
open Disk Node Pkgset.Path

variable {store : Store} {nodes : List Derivation} {disk : Disk} {node : Derivation}

/-! ### Where the way is blocked -/

section Blocked
variable {path : String} {names more after : List String}

/-- A path into a store leads nowhere where the way to the store is blocked. -/
theorem exists_refused (blocked : Blocked disk.root linkLimit [] (way store.root))
    (spells : Spells path (way store.root ++ names)) (filled : names ≠ []) (follow : Bool) :
    ∃ error, disk.target follow path = .error error := by
  rcases target_cases spells with walks | ⟨error, _, refused⟩
  · obtain ⟨error, refused⟩ := blocked.refused follow names filled
    exact ⟨error, (walks disk follow).trans refused⟩
  · exact ⟨error, refused disk follow⟩

/-- No folder can be made on the way to something in a store where the way is blocked. -/
theorem makeFolder_of_blocked (blocked : Blocked disk.root linkLimit [] (way store.root)) (spells : Spells path names)
    (split : way store.root ++ more = names ++ after) (filled : names ≠ []) :
    ∃ error, disk.makeFolder path = .error error := by
  have unfree : ∀ folder name, disk.target false path ≠ .ok (.vacant folder name) := by
    intro folder name vacant
    rcases target_cases spells with walks | ⟨error, _, refused⟩
    · rw [walks] at vacant
      rcases List.append_eq_append_iff.mp split with ⟨beyond, rfl, _⟩ | ⟨rest, within, _⟩
      · by_cases nothing : beyond = []
        · subst nothing
          rw [List.append_nil] at vacant filled
          exact blocked.unfree _ [] (List.append_nil _).symm filled folder name vacant
        · obtain ⟨error, refused⟩ := blocked.refused false beyond nothing
          cases vacant.symm.trans refused
      · exact blocked.unfree names rest within filled folder name vacant
    · cases vacant.symm.trans (refused disk false)
  unfold makeFolder create
  rw [spells.trimmed]
  cases outcome : disk.target false path with
  | error error => exact ⟨error, rfl⟩
  | ok target =>
    cases target with
    | found place => exact ⟨.occupied, rfl⟩
    | vacant folder name => exact absurd outcome (unfree folder name)

/-- Above a folder that a path with one name leads to, no folder is missing. -/
theorem makeFolder_of_single {name : String} (spells : Spells path [name]) : disk.makeFolder path ≠ .error .notFound := by
  have lost : disk.target false path ≠ .error .notFound := by
    rcases target_cases spells with walks | ⟨error, other, refused⟩
    · rw [walks]
      exact walk_single _ _ _ _
    · rw [refused]
      simpa using other
  intro unmade
  unfold makeFolder create at unmade
  rw [spells.trimmed] at unmade
  cases outcome : disk.target false path with
  | error error =>
    rw [outcome] at unmade lost
    cases unmade
    exact lost rfl
  | ok target => cases target <;> simp [outcome, bind, Except.bind] at unmade

theorem makeFoldersWithin_of_blocked (blocked : Blocked disk.root linkLimit [] (way store.root)) (levels : Nat)
    (spells : Spells path names) (split : way store.root ++ more = names ++ after) (filled : names ≠ []) :
    (makeFoldersWithin levels path disk).1 = disk ∧
      (disk.isFolder path = false → ∃ error, (makeFoldersWithin levels path disk).2 = .error error) := by
  induction levels generalizing path names after with
  | zero => exact ⟨rfl, fun _ => ⟨_, rfl⟩⟩
  | succ levels ih =>
    obtain ⟨error, unmade⟩ := makeFolder_of_blocked blocked spells split filled
    unfold makeFoldersWithin
    simp only [spells.nonempty, Bool.false_eq_true, ↓reduceIte, unmade]
    split
    next parent missing above =>
      cases missing
      obtain ⟨before, last, rfl⟩ : ∃ before last, names = before ++ [last] :=
        ⟨_, _, (List.dropLast_append_getLast filled).symm⟩
      have several : before ≠ [] := by
        rintro rfl
        exact makeFolder_of_single spells unmade
      obtain ⟨parent', found, spells'⟩ := spells.parent several
      obtain rfl : parent = parent' := Option.some.inj (above.symm.trans found)
      have upper := ih spells' (split.trans (List.append_assoc ..)) several
      split
      next disk' made =>
        obtain rfl : disk' = disk := by simpa [made] using upper.1
        rw [unmade]
        exact ⟨rfl, fun noFolder => ⟨.notFound, by simp [orFolder, noFolder]⟩⟩
      next failed =>
        refine ⟨upper.1, fun _ => ?_⟩
        generalize makeFoldersWithin levels parent disk = result at failed
        obtain ⟨disk', error | _⟩ := result
        · exact ⟨error, rfl⟩
        · exact absurd rfl (failed disk')
    next => exact ⟨rfl, fun noFolder => ⟨error, by simp [orFolder, noFolder]⟩⟩

/-- No entry can be made in a store where the way is blocked. -/
theorem prepare_of_blocked (blocked : Blocked disk.root linkLimit [] (way store.root)) (proper : Proper nodes)
    (member : node ∈ nodes) : ∃ error, store.prepare disk node = (disk, .error error) := by
  have nowhere {path : String} {names : List String} (spells : Spells path (way store.root ++ names)) (filled : names ≠ []) :
      ∃ error, disk.node true path = .error error := by
    obtain ⟨error, refused⟩ := exists_refused blocked spells filled true
    exact ⟨error, by simp [Disk.node, Disk.place, refused, bind, Except.bind]⟩
  have spells := spells_join store.root (proper.names node member)
  have lost : disk.leadsToNode (store.entryPath node) = false := by
    obtain ⟨error, lost⟩ := nowhere spells (by simp)
    have entry : store.entryPath node = Path.join store.root (entryName node) := rfl
    rw [leadsToNode, entry, lost]
    rfl
  obtain ⟨parts, declared, paths⟩ := Site.exists_parts store node
  have folders : Dict.values (store.outputsFor node).paths ++ scratch.map (Path.join (store.entryPath node)) =
      (parts ++ scratch).map (Path.join (store.entryPath node)) := by rw [paths, List.map_append]
  obtain ⟨first, rest, shape⟩ : ∃ first rest, parts ++ scratch = first :: rest :=
    List.exists_cons_of_ne_nil (by simp [scratch])
  have plain : Plain first := by
    have present : first ∈ parts ++ scratch := by simp [shape]
    rcases List.mem_append.mp present with output | aside
    · exact (proper.outputs node member first (declared first output)).1
    · exact (Site.plain_scratch first aside).1
  have inside := spells.join plain
  rw [List.append_assoc] at inside
  have noFolder : disk.isFolder (Path.join (store.entryPath node) first) = false := by
    obtain ⟨error, lost⟩ := nowhere inside (by simp)
    have entry : store.entryPath node = Path.join store.root (entryName node) := rfl
    rw [Disk.isFolder, entry, lost]
  obtain ⟨same, fails⟩ := makeFoldersWithin_of_blocked blocked
    ((Path.components (Path.join (store.entryPath node) first)).length + 1) inside (List.append_nil _).symm (by simp)
  obtain ⟨error, failed⟩ := fails noFolder
  have unmade : disk.makeFolders (Path.join (store.entryPath node) first) = (disk, .error error) := Prod.ext same failed
  refine ⟨failure (Path.join (store.entryPath node) first) error, ?_⟩
  unfold Store.prepare
  have entry : (store.outputsFor node).storePath = store.entryPath node := rfl
  simp only [entry, lost, folders, shape, List.map_cons, makeAll, Bool.false_eq_true, ↓reduceIte, unmade]
  rfl

/-- Where the way is blocked, nothing ever changes. -/
def custodyOfBlocked (blocked : Blocked disk.root linkLimit [] (way store.root)) (proper : Proper nodes) :
    store.Custody nodes disk where
  Sound later := later = disk
  Stands _ _ standing := standing = .kept
  sound := rfl
  kept _ _ := rfl
  accepts_kept := by
    rintro later node member rfl _
    rfl
  not_accepts := by simp
  accepts := by simp
  prepares := by
    rintro later node member rfl
    obtain ⟨error, unmade⟩ := prepare_of_blocked blocked proper member
    rw [unmade]
    exact ⟨⟨rfl, fun _ _ _ _ => id⟩, Or.inl rfl, by simp⟩
  reworks := by simp
  commits := by simp

end Blocked

/-! ### Where entries can be made -/

namespace Site
variable {site : store.Site nodes} {root root' : Node} {disk' : Disk}

/-- Others change their entries, or folders are made on the way. -/
def Altered (site : store.Site nodes) (node : Derivation) : Node → Node → Prop :=
  Relation.ReflTransGen fun root root' => ∃ other ∈ nodes, other ≠ node ∧ site.Changes other root root'

theorem Works.altered {other : Derivation} (works : site.Works other root root') (member : other ∈ nodes) (apart : other ≠ node) :
    site.Altered node root root' :=
  Relation.ReflTransGen.mono (fun _ _ changes => ⟨other, member, apart, changes⟩) _ _ works

theorem Altered.holds (altered : site.Altered node root root') (holds : site.Holds root) : site.Holds root' := by
  induction altered with
  | refl => exact holds
  | tail _ changes ih =>
    obtain ⟨other, member, _, changes⟩ := changes
    exact changes.holds member ih

theorem Altered.at?_eq (altered : site.Altered node root root') (member : node ∈ nodes) (below : Place) :
    root'.at? (site.home node ++ below) = root.at? (site.home node ++ below) := by
  induction altered with
  | refl => rfl
  | tail _ changes ih =>
    obtain ⟨other, member', apart, changes⟩ := changes
    exact (changes.at?_eq member' member apart below).trans ih

/-- Whether a derivation is accepted does not depend on what others do. -/
def Independent (site : store.Site nodes) (start : Disk) : Prop :=
  ∀ node ∈ nodes, ∀ disk : Disk, site.Altered node start.root disk.root → (store.Accepts disk node ↔ store.Accepts start node)

/-- A phase that runs works in its entry. -/
theorem Unmarked.reworks (unmarked : site.Unmarked disk.root node) (holds : site.Holds disk.root) (member : node ∈ nodes)
    (reworks : store.Reworks node disk disk') : site.Changes node disk.root disk'.root ∧ site.Unmarked disk'.root node := by
  obtain ⟨entry, led, part, inside, below, content, shape⟩ := reworks
  have direct : Direct disk.root site.base true (site.rest ++ [entryName node]) :=
    direct_entry holds unmarked.unlinked.entry
  have descent := holds.descent (site.spells_entry member) (by simp) (site.plain_entry member) direct
  have place : entry = site.home node := by
    rw [led] at descent
    cases descent
    rfl
  have other : part ≠ StoreMarker.fileName := by
    rcases List.mem_append.mp inside with output | aside
    · rintro rfl
      exact (site.proper.outputs node member _ output).2 (by simp [exclusions])
    · exact (plain_scratch part aside).2
  rw [shape, place]
  exact ⟨.entry _ _, unmarked.inside other below content⟩

/-- An entry stands as at the start, without a marker, or with one that was written. -/
def tally (site : store.Site nodes) (start : Disk) : Tally where
  Sound disk := site.Holds disk.root
  Stands disk node
    | .kept => site.Altered node start.root disk.root
    | .bare => site.Unmarked disk.root node
    | .complete => site.Sealed disk node

theorem spares_of_works {start : Disk} (works : site.Works node disk.root disk'.root) (member : node ∈ nodes)
    (holds : site.Holds disk.root) : (site.tally start).Spares nodes node disk disk' := by
  have holds' := works.holds member holds
  refine ⟨holds', fun other member' apart standing => ?_⟩
  have same := works.at?_eq member member' (Ne.symm apart)
  cases standing with
  | kept => exact fun altered => Relation.ReflTransGen.trans altered (works.altered member (Ne.symm apart))
  | bare => exact fun unmarked => Unmarked.congr unmarked same
  | complete => exact fun complete => Sealed.congr complete holds holds' member' same

/-- The custody of a store in which entries can be made. -/
def custody (site : store.Site nodes) (holds : site.Holds disk.root) (independent : site.Independent disk) :
    store.Custody nodes disk where
  toTally := site.tally disk
  sound := holds
  kept _ _ := .refl
  accepts_kept member _ kept := independent _ member _ kept
  not_accepts member sound bare := not_accepts sound member bare
  accepts _ _ complete := complete.accepted
  prepares member sound := by
    obtain ⟨works, left, made⟩ := prepared sound member
    exact ⟨spares_of_works works member sound, left, made⟩
  reworks member sound bare reworks := by
    obtain ⟨changes, unmarked⟩ := Unmarked.reworks bare sound member reworks
    exact ⟨spares_of_works (.single changes) member sound, unmarked⟩
  commits member sound bare := by
    have done := committed sound member bare.unlinked
    exact ⟨spares_of_works done.works member sound, fun error failed => done.failed error failed bare, done.sound⟩

end Site

/-! ### Separate entries -/

/-- The tree without the entries of derivations in a folder. -/
def without (base : Place) (nodes : List Derivation) (root : Node) : Node :=
  nodes.foldl (fun root node => root.replace (base ++ [entryName node]) none) root

/-- The tree changes within the entries, in a folder, of other derivations. -/
def Disturbed (base : Place) (nodes : List Derivation) (node : Derivation) : Node → Node → Prop :=
  Relation.ReflTransGen fun root root' => ∃ other ∈ nodes, other ≠ node ∧ ∃ below content,
    root' = root.replace (base ++ entryName other :: below) content

/-- Derivations have proper names, the way to the store does not go through their entries,
    no step leads upwards where folders have to be made on it, and whether one of them is
    accepted does not depend on what stands in the entries of the others. -/
structure Separate (store : Store) (nodes : List Derivation) (disk : Disk) : Prop where
  proper : Proper nodes
  aside : ∀ links base, Leads disk.root linkLimit [] (way store.root) links base → FolderAt disk.root base →
    ∃ links', Leads (without base nodes disk.root) linkLimit [] (way store.root) links' base
  onward : ∀ before name after links base, way store.root = before ++ name :: after →
    Leads disk.root linkLimit [] before links base → Free disk.root base name → ".." ∉ after
  independent : ∀ links base, Leads disk.root linkLimit [] (way store.root) links base → FolderAt disk.root base →
    ∀ node ∈ nodes, ∀ later : Disk, Disturbed base nodes node disk.root later.root →
      (store.Accepts later node ↔ store.Accepts disk node)

section
variable {base : Place} {root : Node}

theorem within_without (base : Place) (nodes : List Derivation) (root : Node) : (without base nodes root).Within root := by
  induction nodes generalizing root with
  | nil => exact .refl root
  | cons node nodes ih => exact (ih _).trans (within_remove root base (entryName node))

theorem folderAt_without (folder : FolderAt root base) (nodes : List Derivation) :
    FolderAt (without base nodes root) base := by
  induction nodes generalizing root with
  | nil => exact folder
  | cons node nodes ih =>
    refine ih ?_
    rw [FolderAt, seen?_replace fun reaches => absurd reaches.length_le (by simp)]
    exact folder

theorem at?_without (member : node ∈ nodes) : (without base nodes root).at? (base ++ [entryName node]) = none := by
  induction nodes generalizing root with
  | nil => cases member
  | cons other nodes ih =>
    rcases List.mem_cons.mp member with rfl | later
    · exact (within_without base nodes _).absent (at?_remove_self root base (entryName node))
    · exact ih later

/-- The site of a store whose root leads to a folder. -/
def siteOfFolder (proper : Proper nodes) (folder : FolderAt root base)
    (leads : ∃ links, Leads (without base nodes root) linkLimit [] (way store.root) links base) : store.Site nodes where
  names := way store.root
  base := base
  rest := []
  bare := without base nodes root
  way := (List.append_nil _).symm
  leads := leads
  folder := folderAt_without folder nodes
  plain := by simp
  unmade := by simp_all
  free _ member := at?_without member
  proper := proper

/-- The site of a store whose root is missing in a folder. -/
def siteOfMissing {before after : List String} {name : String} (proper : Proper nodes)
    (split : way store.root = before ++ name :: after) (leads : ∃ links, Leads root linkLimit [] before links base)
    (free : Free root base name) (onward : ".." ∉ after) : store.Site nodes where
  names := before
  base := base
  rest := name :: after
  bare := root
  way := split
  leads := leads
  folder := free.folder
  plain := by
    intro other later
    have present : other ∈ way store.root := by simp [split, later]
    obtain ⟨named, moves⟩ := List.mem_filter.mp present
    obtain ⟨piece, filled⟩ := List.mem_filter.mp named
    refine ⟨not_mem_of_mem_pieces piece, of_decide_eq_true filled, of_decide_eq_true moves, ?_⟩
    rcases List.mem_cons.mp later with rfl | last
    · exact free.descends
    · rintro rfl
      exact onward last
  unmade := by
    intro first rest split filled
    obtain ⟨other, first, rfl⟩ := List.exists_cons_of_ne_nil filled
    obtain ⟨rfl, -⟩ := List.cons.inj split
    have deeper : base ++ name :: first = base ++ [name] ++ first := by simp
    rw [deeper]
    exact at?_append_of_none free.absent first
  free := by
    intro node _
    have deeper : base ++ (name :: after ++ [entryName node]) = base ++ [name] ++ (after ++ [entryName node]) := by simp
    rw [deeper]
    exact at?_append_of_none free.absent _
  proper := proper

end

/-- Of a store whose entries are separate there is a custody. -/
theorem Separate.custody (separate : store.Separate nodes disk) : Nonempty (store.Custody nodes disk) := by
  rcases way_cases disk.root linkLimit [] (way store.root) with
    ⟨links, base, leads, folder⟩ | ⟨before, name, after, links, base, split, leads, free⟩ | blocked
  · let site : store.Site nodes := siteOfFolder separate.proper folder (separate.aside links base leads folder)
    have holds : site.Holds disk.root := ⟨within_without base nodes disk.root, .nil⟩
    refine ⟨site.custody holds fun node member later altered => ?_⟩
    refine separate.independent links base leads folder node member later (Relation.ReflTransGen.mono ?_ _ _ altered)
    rintro root root' ⟨other, member', apart, changes⟩
    cases changes with
    | entry below content => exact ⟨other, member', apart, below, content, by simp [site, siteOfFolder, Site.home]⟩
    | way split filled => simp_all [site, siteOfFolder]
  · let site : store.Site nodes := siteOfMissing separate.proper split ⟨links, leads⟩ free
      (separate.onward before name after links base split leads free)
    have missing : ∀ first rest, site.rest = first ++ rest → first ≠ [] → disk.root.at? (site.base ++ first) = none :=
      site.unmade
    have holds : site.Holds disk.root := ⟨.refl _, fun first rest split filled => Or.inl (missing first rest split filled)⟩
    refine ⟨site.custody holds fun node member later altered => ?_⟩
    have absent : disk.root.at? (site.home node) = none := site.free node member
    have absent' : later.root.at? (site.home node) = none := by
      have same := altered.at?_eq member []
      rw [List.append_nil] at same
      exact same.trans absent
    exact iff_of_false (Site.not_accepts (altered.holds holds) member (Site.unmarked_of_absent absent'))
      (Site.not_accepts holds member (Site.unmarked_of_absent absent))
  · exact ⟨custodyOfBlocked blocked separate.proper⟩

/-- Derivations have proper names, the way to the store does not go through their entries,
    no step leads upwards where folders have to be made on it, and no link stands in the place
    of an entry or a marker. -/
structure Clean (store : Store) (nodes : List Derivation) (disk : Disk) : Prop where
  proper : Proper nodes
  aside : ∀ links base, Leads disk.root linkLimit [] (way store.root) links base → FolderAt disk.root base →
    ∃ links', Leads (without base nodes disk.root) linkLimit [] (way store.root) links' base
  onward : ∀ before name after links base, way store.root = before ++ name :: after →
    Leads disk.root linkLimit [] before links base → Free disk.root base name → ".." ∉ after
  unlinked : ∀ links base, Leads disk.root linkLimit [] (way store.root) links base → ∀ node ∈ nodes, ∀ target,
    disk.root.at? (base ++ [entryName node]) ≠ some (.link target) ∧
      disk.root.at? (base ++ [entryName node] ++ [StoreMarker.fileName]) ≠ some (.link target)

/-- Entries are separate if no link stands in the place of an entry or a marker. -/
theorem Clean.separate (clean : store.Clean nodes disk) : store.Separate nodes disk := by
  obtain ⟨proper, aside, onward, unlinked⟩ := clean
  refine ⟨proper, aside, onward, fun links base leads folder node member later disturbed => ?_⟩
  let site : store.Site nodes := siteOfFolder proper folder (aside links base leads folder)
  have holds : site.Holds disk.root := ⟨within_without base nodes disk.root, .nil⟩
  have altered : site.Altered node disk.root later.root := by
    refine Relation.ReflTransGen.mono ?_ _ _ disturbed
    rintro root root' ⟨other, member', apart, below, content, rfl⟩
    have place : base ++ entryName other :: below = site.home other ++ below := by simp [site, siteOfFolder, Site.home]
    exact ⟨other, member', apart, place ▸ .entry below content⟩
  have plain := unlinked links base leads node member
  exact Site.accepts_congr holds (altered.holds holds) member (altered.at?_eq member)
    ⟨fun target => (plain target).1, fun target => (plain target).2⟩

end Pkgset.Store

import Pkgset.Proofs.Store.Site

/-!
# Making a fresh entry

To prepare an entry, what is there is removed, and folders are made for the outputs and
for scratch, with the folders above them that are missing. However far this comes, nothing
else changes, and what is left in the place of the entry has no marker, unless nothing was
changed at all.
-/

namespace Pkgset
open Disk Node Pkgset.Path

namespace Store.Site
variable {store : Store} {nodes : List Derivation} {site : store.Site nodes} {disk disk' : Disk} {node : Derivation}
  {path part : String} {names after : List String}

/-- The names from the base of a site to something in an entry. -/
def route (site : store.Site nodes) (node : Derivation) (part : String) : List String :=
  site.rest ++ [entryName node] ++ [part]

theorem plain_entry (site : store.Site nodes) (member : node ∈ nodes) : ∀ name ∈ site.rest ++ [entryName node], Plain name := by
  intro name present
  rcases List.mem_append.mp present with rest | entry
  · exact site.plain name rest
  · exact List.mem_singleton.mp entry ▸ site.proper.names node member

theorem plain_route (site : store.Site nodes) (member : node ∈ nodes) (plain : Plain part) :
    ∀ name ∈ site.route node part, Plain name := by
  intro name present
  rcases List.mem_append.mp present with entry | last
  · exact site.plain_entry member name entry
  · exact List.mem_singleton.mp last ▸ plain

theorem clear_entry (holds : site.Holds disk.root) (unmarked : site.Unmarked disk.root node) :
    Clear disk.root site.base (site.rest ++ [entryName node]) := holds.clear.concat unmarked.entry

/-- No link stands on the way to something in an entry without a marker. -/
theorem direct_route (holds : site.Holds disk.root) (unmarked : site.Unmarked disk.root node)
    (split : site.route node part = names ++ after) : Direct disk.root site.base false names := by
  have clear := clear_entry holds unmarked
  rcases List.eq_nil_or_concat after with rfl | ⟨after, last, rfl⟩
  · rw [List.append_nil] at split
    exact split ▸ clear.direct.concat (by simp)
  · rw [List.concat_eq_append, ← List.append_assoc] at split
    have shorter := List.append_inj_left' split rfl
    rw [shorter] at clear
    exact clear.left.direct

/-- A path to something in an entry ends at the site, at the entry or there. -/
theorem route_cases (split : site.route node part = names ++ after) :
    (∃ rest, site.rest = names ++ rest) ∨ site.base ++ names = site.home node ∨
      site.base ++ names = site.home node ++ [part] := by
  rcases List.eq_nil_or_concat after with rfl | ⟨after, last, rfl⟩
  · rw [List.append_nil] at split
    exact Or.inr (Or.inr (by simp [← split, route, home]))
  · rw [List.concat_eq_append, ← List.append_assoc] at split
    have shorter := List.append_inj_left' split rfl
    rcases List.eq_nil_or_concat after with rfl | ⟨after, last', rfl⟩
    · rw [List.append_nil] at shorter
      exact Or.inr (Or.inl (by simp [← shorter, home]))
    · rw [List.concat_eq_append, ← List.append_assoc] at shorter
      exact Or.inl ⟨after, List.append_inj_left' shorter rfl⟩

/-- A folder that is made on the way to something in an entry. -/
theorem raise (unmarked : site.Unmarked disk.root node) (other : part ≠ StoreMarker.fileName)
    (split : site.route node part = names ++ after) (filled : names ≠ [])
    (absent : disk.root.at? (site.base ++ names) = none) :
    site.Changes node disk.root (disk.root.replace (site.base ++ names) (some .empty)) ∧
      site.Unmarked (disk.root.replace (site.base ++ names) (some .empty)) node := by
  rcases route_cases split with ⟨rest, onWay⟩ | atEntry | inside
  · refine ⟨.way onWay filled absent, ?_, ?_⟩
    · have gone := (at?_replace_way node onWay absent []).2
      rw [List.append_nil] at gone
      exact Or.inl gone
    · exact (at?_replace_way node onWay absent [StoreMarker.fileName]).2
  · rw [atEntry] at absent ⊢
    refine ⟨.whole _, ?_, ?_⟩
    · rcases at?_replace_empty absent [] with gone | ⟨_, made⟩
      · rw [List.append_nil] at gone
        exact Or.inl gone
      · exact Or.inr (by rw [FolderAt, seen?, made]; rfl)
    · rcases at?_replace_empty absent [StoreMarker.fileName] with gone | ⟨empty, _⟩
      · exact gone
      · cases empty
  · rw [inside]
    refine ⟨.entry [part] (some .empty), ?_⟩
    exact unmarked.inside other [] _

/-- To make one folder on the way to something in an entry, only the last step may have
    nothing to go to. -/
theorem makeFolder_cases (holds : site.Holds disk.root) (member : node ∈ nodes) (plain : Plain part)
    (unmarked : site.Unmarked disk.root node) (spells : Spells path (site.names ++ names))
    (split : site.route node part = names ++ after) (filled : names ≠ []) :
    disk.root.at? (site.base ++ names) = none ∧ disk.makeFolder path = .ok (disk.put (site.base ++ names) .empty) ∨
      disk.makeFolder path = .error .notFound ∧ 2 ≤ names.length ∨
      ∃ error, error ≠ .notFound ∧ disk.makeFolder path = .error error := by
  have plains : ∀ name ∈ names, Plain name := fun name present =>
    site.plain_route member plain name (by rw [split]; exact List.mem_append_left _ present)
  have descent := holds.descent spells filled plains (direct_route holds unmarked split)
  unfold makeFolder create
  rw [spells.trimmed]
  generalize disk.target false path = target at descent
  cases descent with
  | found present => exact Or.inr (Or.inr ⟨.occupied, by simp, rfl⟩)
  | @vacant before last shape folder absent short =>
    refine Or.inl ⟨absent, ?_⟩
    rw [shape, ← List.append_assoc]
    rfl
  | missing several absent => exact Or.inr (Or.inl ⟨rfl, several⟩)
  | @refused error other => exact Or.inr (Or.inr ⟨error, other, rfl⟩)

/-- What is done for one entry, which has no marker after it. -/
def Readies (site : store.Site nodes) (node : Derivation) (disk disk' : Disk) : Prop :=
  site.Works node disk.root disk'.root ∧ site.Unmarked disk'.root node

/-- Whether or not a folder was made, and whatever is said of it. -/
private theorem readies_orFolder (holds : site.Holds disk.root) (member : node ∈ nodes) (plain : Plain part)
    (other : part ≠ StoreMarker.fileName) (unmarked : site.Unmarked disk.root node)
    (spells : Spells path (site.names ++ names)) (split : site.route node part = names ++ after) (filled : names ≠ []) :
    site.Readies node disk (disk.orFolder path (disk.makeFolder path)).1 := by
  rcases makeFolder_cases holds member plain unmarked spells split filled with
    ⟨absent, made⟩ | ⟨missing, _⟩ | ⟨error, _, failed⟩
  · rw [made]
    obtain ⟨changes, ready⟩ := raise unmarked other split filled absent
    exact ⟨.single changes, ready⟩
  · rw [missing]
    exact ⟨.refl, unmarked⟩
  · rw [failed]
    exact ⟨.refl, unmarked⟩

theorem readies_makeFoldersWithin (levels : Nat) (holds : site.Holds disk.root) (member : node ∈ nodes) (plain : Plain part)
    (other : part ≠ StoreMarker.fileName) (unmarked : site.Unmarked disk.root node)
    (spells : Spells path (site.names ++ names)) (split : site.route node part = names ++ after) (filled : names ≠ []) :
    site.Readies node disk (makeFoldersWithin levels path disk).1 := by
  induction levels generalizing path names after with
  | zero => exact ⟨.refl, unmarked⟩
  | succ levels ih =>
    have direct := readies_orFolder holds member plain other unmarked spells split filled
    unfold makeFoldersWithin
    simp only [spells.nonempty, Bool.false_eq_true, ↓reduceIte]
    split
    next parent missing above =>
      -- the way breaks off before the last name, so the folder above is made first
      have several : 2 ≤ names.length := by
        rcases makeFolder_cases holds member plain unmarked spells split filled with
          ⟨_, made⟩ | ⟨_, several⟩ | ⟨error, other', failed⟩
        · rw [missing] at made
          cases made
        · exact several
        · rw [missing] at failed
          cases failed
          exact absurd rfl other'
      obtain ⟨before, last, rfl⟩ : ∃ before last, names = before ++ [last] :=
        ⟨_, _, (List.dropLast_append_getLast filled).symm⟩
      have higher : before ≠ [] := by
        rintro rfl
        simp at several
      rw [← List.append_assoc] at spells
      obtain ⟨parent', found, spells'⟩ := spells.parent (by simp [higher])
      obtain rfl : parent = parent' := Option.some.inj (above.symm.trans found)
      have upper := ih spells' (by rw [split, List.append_assoc]) higher
      split
      next disk' made =>
        rw [made] at upper
        obtain ⟨works, ready⟩ := upper
        rw [List.append_assoc] at spells
        obtain ⟨more, ready'⟩ :=
          readies_orFolder (works.holds member holds) member plain other ready spells split filled
        exact ⟨works.trans more, ready'⟩
      next failed => exact upper
    next => exact direct

/-- How something in an entry is spelt. -/
theorem spells_entry (site : store.Site nodes) (member : node ∈ nodes) :
    Spells (store.entryPath node) (site.names ++ (site.rest ++ [entryName node])) := by
  have entry := spells_join store.root (site.proper.names node member)
  rwa [site.way, List.append_assoc] at entry

theorem spells_part (site : store.Site nodes) (member : node ∈ nodes) (plain : Plain part) :
    Spells (Path.join (store.entryPath node) part) (site.names ++ site.route node part) := by
  have inside := (site.spells_entry member).join plain
  rwa [List.append_assoc] at inside

theorem readies_makeFolders (holds : site.Holds disk.root) (member : node ∈ nodes) (plain : Plain part)
    (other : part ≠ StoreMarker.fileName) (unmarked : site.Unmarked disk.root node) :
    site.Readies node disk (disk.makeFolders (Path.join (store.entryPath node) part)).1 :=
  readies_makeFoldersWithin _ holds member plain other unmarked (site.spells_part member plain)
    (List.append_nil _).symm (by simp [route])

/-- Several folders are made in an entry. -/
theorem readies_makeAll {parts : List String} (holds : site.Holds disk.root) (member : node ∈ nodes)
    (plain : ∀ part ∈ parts, Plain part ∧ part ≠ StoreMarker.fileName) (unmarked : site.Unmarked disk.root node) :
    site.Readies node disk (makeAll (parts.map (Path.join (store.entryPath node))) disk).1 := by
  induction parts generalizing disk with
  | nil => exact ⟨.refl, unmarked⟩
  | cons part parts ih =>
    obtain ⟨plainPart, other⟩ := plain part (by simp)
    have first := readies_makeFolders holds member plainPart other unmarked
    rw [List.map_cons, makeAll]
    split
    next disk' made =>
      rw [made] at first
      obtain ⟨works, ready⟩ := first
      obtain ⟨more, ready'⟩ := ih (works.holds member holds) (fun part present => plain part (by simp [present])) ready
      exact ⟨works.trans more, ready'⟩
    next disk' error failed =>
      rw [failed] at first
      exact first

/-! ### Where nothing can be made -/

theorem leadsToNode_of_leads {links : Nat} {place : Place} (spells : Spells path names) (legal : Legal path)
    (leads : Leads disk.root linkLimit [] names links place) (folder : FolderAt disk.root place) :
    disk.leadsToNode path = true := by
  have found : disk.target true path = .ok (.found place) := by
    have walks : walk disk.root true linkLimit [] (names ++ []) = walk disk.root true links place [] :=
      leads.walk (Or.inl rfl)
    rw [List.append_nil, walk_nil] at walks
    rw [target_of_legal spells legal, walks]
  obtain ⟨entries, present⟩ := folderAt_iff.mp folder
  simp [leadsToNode, Disk.node, Disk.place, found, present, bind, Except.bind, Except.toBool]

/-- What is in an entry is led to through the entry. -/
theorem leadsToNode_of_target {follow : Bool} {target : Target} (site : store.Site nodes) (member : node ∈ nodes)
    (plain : Plain part) (found : disk.target follow (Path.join (store.entryPath node) part) = .ok target) :
    disk.leadsToNode (store.entryPath node) = true := by
  have spells := site.spells_part member plain
  by_cases legal : Legal (Path.join (store.entryPath node) part)
  · rw [target_of_legal spells legal, route, ← List.append_assoc] at found
    obtain ⟨links, place, leads⟩ := leads_of_walk found (Or.inl (by simp))
    rw [leads.walk (Or.inr (by simp))] at found
    have folder : FolderAt disk.root place := by
      by_contra closed
      rw [walk_of_not_folder closed] at found
      cases found
    exact leadsToNode_of_leads (site.spells_entry member) (legal.of_join (site.spells_entry member) plain) leads folder
  · obtain ⟨error, _, refused⟩ := target_of_not_legal legal spells.nonempty
    rw [refused] at found
    cases found

theorem exists_target_of_isFolder (folder : disk.isFolder path = true) :
    ∃ place, disk.target true path = .ok (.found place) ∧ FolderAt disk.root place := by
  unfold Disk.isFolder at folder
  split at folder
  next found known =>
    unfold Disk.node at known
    cases led : disk.place true path with
    | error error => simp [led, bind, Except.bind] at known
    | ok place =>
      simp only [led, bind, Except.bind] at known
      split at known
      next present =>
        cases known
        unfold Disk.place at led
        cases target : disk.target true path with
        | error error => simp [target, bind, Except.bind] at led
        | ok target' =>
          cases target' with
          | vacant folder name => simp [target, bind, Except.bind] at led
          | found place' =>
            obtain rfl : place' = place := by simpa [target, bind, Except.bind] using led
            refine ⟨place', rfl, ?_⟩
            rw [FolderAt, seen?, present]
            cases found with
            | folder entries => rfl
            | file bytes traits => cases folder
            | link target => cases folder
      next => cases known
  next => cases folder

/-- No folder can be made where something is. -/
theorem makeFolder_of_present (holds : site.Holds disk.root) (member : node ∈ nodes)
    (present : disk.root.at? (site.home node) ≠ none) (spells : Spells path (site.names ++ (site.rest ++ [entryName node]))) :
    ∃ error, error ≠ .notFound ∧ disk.makeFolder path = .error error := by
  have direct : Direct disk.root site.base false (site.rest ++ [entryName node]) := holds.clear.direct.concat (by simp)
  have descent := holds.descent spells (by simp) (site.plain_entry member) direct
  unfold makeFolder create
  rw [spells.trimmed]
  generalize disk.target false path = target at descent
  cases descent with
  | found _ => exact ⟨.occupied, by simp, rfl⟩
  | vacant _ _ absent _ => exact absurd absent present
  | missing _ absent => exact absurd absent present
  | @refused error other => exact ⟨error, other, rfl⟩

/-- An entry that leads nowhere is no folder, however the path to it is spelled. -/
private theorem isFolder_of_lost (member : node ∈ nodes) (plain : Plain part)
    (spells : Spells path (site.names ++ (site.rest ++ [entryName node])))
    (legal : Legal (Path.join (store.entryPath node) part)) (lost : disk.leadsToNode (store.entryPath node) = false) :
    disk.isFolder path = false := by
  by_contra folder
  obtain ⟨place, led, folder⟩ := exists_target_of_isFolder (by simpa using folder)
  rcases target_cases spells with walks | ⟨error, _, refused⟩
  · rw [walks, ← List.append_nil (site.names ++ _)] at led
    obtain ⟨links, place', leads⟩ := leads_of_walk led (Or.inr ⟨rfl, place, rfl⟩)
    rw [leads.walk (Or.inl rfl), walk_nil] at led
    cases led
    have entry := site.spells_entry member
    rw [leadsToNode_of_leads entry (legal.of_join entry plain) leads folder] at lost
    cases lost
  · rw [refused] at led
    cases led

/-- Where something leads nowhere, as a link may do, nothing can be made. -/
theorem makeFolders_of_lost (holds : site.Holds disk.root) (member : node ∈ nodes) (plain : Plain part)
    (present : disk.root.at? (site.home node) ≠ none) (lost : disk.leadsToNode (store.entryPath node) = false) :
    ∃ error, disk.makeFolders (Path.join (store.entryPath node) part) = (disk, .error error) := by
  have spells := site.spells_part member plain
  have nowhere {follow : Bool} {target : Target} :
      disk.target follow (Path.join (store.entryPath node) part) ≠ .ok target := by
    intro found
    rw [leadsToNode_of_target site member plain found] at lost
    cases lost
  have noFolder : disk.isFolder (Path.join (store.entryPath node) part) = false := by
    by_contra folder
    obtain ⟨place, found, _⟩ := exists_target_of_isFolder (by simpa using folder)
    exact nowhere found
  obtain ⟨error, failed⟩ : ∃ error, disk.target false (Path.join (store.entryPath node) part) = .error error := by
    cases outcome : disk.target false (Path.join (store.entryPath node) part) with
    | error error => exact ⟨error, rfl⟩
    | ok target => exact absurd outcome nowhere
  have unmade : disk.makeFolder (Path.join (store.entryPath node) part) = .error error := by
    simp [makeFolder, spells.trimmed, create, failed, bind, Except.bind]
  unfold makeFolders makeFoldersWithin
  simp only [spells.nonempty, Bool.false_eq_true, ↓reduceIte, unmade]
  split
  next parent missing above =>
    -- the folder above is the entry, which is there, but not as a folder
    cases missing
    have legal : Legal (Path.join (store.entryPath node) part) := by
      by_contra spoilt
      obtain ⟨error, other, refused⟩ := target_of_not_legal spoilt spells.nonempty
      rw [refused] at failed
      cases failed
      exact other rfl
    rw [route, ← List.append_assoc] at spells
    obtain ⟨parent', found, spells'⟩ := spells.parent (by simp)
    obtain rfl : parent = parent' := Option.some.inj (above.symm.trans found)
    obtain ⟨error', other, unmade'⟩ := makeFolder_of_present holds member present spells'
    have noEntry : disk.isFolder parent = false := isFolder_of_lost member plain spells' legal lost
    have blocked (levels : Nat) : ∃ error, makeFoldersWithin levels parent disk = (disk, .error error) := by
      cases levels with
      | zero => exact ⟨_, rfl⟩
      | succ levels => exact ⟨error', makeFoldersWithin_of_refused spells'.nonempty unmade' other noEntry levels⟩
    obtain ⟨error, stopped⟩ := blocked (Path.components (Path.join (store.entryPath node) part)).length
    exact ⟨error, by rw [stopped]⟩
  next => exact ⟨error, by simp [orFolder, noFolder]⟩

/-! ### Preparing -/

/-- What a path of the site leads to without links is taken away as a whole, or it stays. -/
theorem removeTree_cases (holds : site.Holds disk.root) (spells : Spells path (site.names ++ names)) (filled : names ≠ [])
    (plain : ∀ name ∈ names, Plain name) (direct : Direct disk.root site.base false names) :
    (∃ error, disk.removeTree path = (disk, .error error)) ∨
      disk.removeTree path = (⟨disk.root.replace (site.base ++ names) none⟩, .ok ()) := by
  have descent := holds.descent spells filled plain direct
  obtain ⟨last, final⟩ : ∃ last, ((Path.pieces path).filter (· ≠ "")).getLast? = some last ∧ Plain last := by
    have same := spells.getLast?
    obtain ⟨before, last, rfl⟩ : ∃ before last, names = before ++ [last] :=
      ⟨_, _, (List.dropLast_append_getLast filled).symm⟩
    exact ⟨last, by simpa [Path.names] using same, plain last (by simp)⟩
  unfold removeTree Disk.place
  generalize disk.target false path = target at descent
  cases descent with
  | found present =>
    simp only [bind, Except.bind]
    split
    next => exact Or.inl ⟨_, rfl⟩
    next point => exact absurd (Option.some.inj (final.1.symm.trans point)) final.2.moves
    next up => exact absurd (Option.some.inj (final.1.symm.trans up)) final.2.descends
    next => exact Or.inr rfl
  | vacant => exact Or.inl ⟨_, rfl⟩
  | missing => exact Or.inl ⟨_, rfl⟩
  | refused => exact Or.inl ⟨_, rfl⟩

theorem exists_parts (store : Store) (node : Derivation) : ∃ parts : List String,
    (∀ part ∈ parts, part ∈ node.outputs) ∧
      Dict.values (store.outputsFor node).paths = parts.map (Path.join (store.entryPath node)) := by
  refine ⟨Dict.keys (store.outputsFor node).paths, ?_, ?_⟩
  · intro part present
    obtain ⟨entry, held, rfl⟩ := List.mem_map.mp present
    obtain ⟨output, declared, rfl⟩ := List.mem_map.mp (Dict.mem_of_mem_ofList held)
    exact declared
  · rw [Dict.values, Dict.keys, List.map_map]
    refine List.map_congr_left fun entry held => ?_
    obtain ⟨output, declared, rfl⟩ := List.mem_map.mp (Dict.mem_of_mem_ofList held)
    rfl

theorem plain_scratch : ∀ part ∈ scratch, Plain part ∧ part ≠ StoreMarker.fileName := by
  intro part aside
  rcases List.mem_cons.mp aside with rfl | aside
  · exact ⟨⟨by decide, by decide, by decide, by decide⟩, by decide⟩
  · obtain rfl := List.mem_singleton.mp aside
    exact ⟨⟨by decide, by decide, by decide, by decide⟩, by decide⟩

/-- Nothing stands in the place of an entry that was taken away. -/
theorem unmarked_of_absent (absent : disk.root.at? (site.home node) = none) : site.Unmarked disk.root node :=
  ⟨Or.inl absent, at?_append_of_none absent _⟩

/-- What preparing an entry may come to: nothing else changes, a fresh entry has no marker,
    and what is left of one that could not be made has none either, unless all is as it was. -/
structure Prepared (site : store.Site nodes) (node : Derivation) (disk : Disk) (done : Disk × Except BuildError Outputs) :
    Prop where
  works : site.Works node disk.root done.1.root
  left : done.1 = disk ∨ site.Unmarked done.1.root node
  made : ∀ outputs, done.2 = .ok outputs → outputs = store.outputsFor node ∧ site.Unmarked done.1.root node

private theorem Prepared.stops (error : BuildError) : site.Prepared node disk (disk, .error error) :=
  ⟨.refl, Or.inl rfl, fun _ absurd => by cases absurd⟩

/-- Folders are made where an entry is unmarked. -/
private theorem prepared_makeAll {parts : List String} {cleared : Disk} (holds : site.Holds disk.root) (member : node ∈ nodes)
    (plain : ∀ part ∈ parts, Plain part ∧ part ≠ StoreMarker.fileName) (works : site.Works node disk.root cleared.root)
    (unmarked : site.Unmarked cleared.root node) :
    site.Prepared node disk ((makeAll (parts.map (Path.join (store.entryPath node))) cleared).1,
      (makeAll (parts.map (Path.join (store.entryPath node))) cleared).2.map fun _ => store.outputsFor node) := by
  obtain ⟨more, ready⟩ := readies_makeAll (works.holds member holds) member plain unmarked
  refine ⟨works.trans more, Or.inr ready, fun outputs made => ⟨?_, ready⟩⟩
  generalize (makeAll (parts.map (Path.join (store.entryPath node))) cleared).2 = result at made
  cases result with
  | error error => cases made
  | ok value => exact (Except.ok.inj made).symm

theorem prepared (holds : site.Holds disk.root) (member : node ∈ nodes) :
    site.Prepared node disk (store.prepare disk node) := by
  obtain ⟨parts, declared, paths⟩ := exists_parts store node
  have folders : Dict.values (store.outputsFor node).paths ++ scratch.map (Path.join (store.entryPath node)) =
      (parts ++ scratch).map (Path.join (store.entryPath node)) := by rw [paths, List.map_append]
  have plain : ∀ part ∈ parts ++ scratch, Plain part ∧ part ≠ StoreMarker.fileName := by
    intro part present
    rcases List.mem_append.mp present with output | aside
    · obtain ⟨plain, other⟩ := site.proper.outputs node member part (declared part output)
      exact ⟨plain, fun same => other (by simp [same, exclusions])⟩
    · exact plain_scratch part aside
  have entry : (store.outputsFor node).storePath = store.entryPath node := rfl
  unfold Store.prepare
  simp only [entry, folders]
  cases there : disk.leadsToNode (store.entryPath node) with
  | true =>
    rcases removeTree_cases holds (site.spells_entry member) (by simp) (site.plain_entry member)
      (holds.clear.direct.concat (by simp)) with ⟨error, failed⟩ | removed
    · simp only [↓reduceIte, failed]
      exact .stops _
    · simp only [↓reduceIte, removed]
      have gone : (disk.root.replace (site.home node) none).at? (site.home node) = none := by
        rw [home_eq]
        exact at?_remove_self _ _ _
      exact prepared_makeAll holds member plain (.single (.whole none)) (unmarked_of_absent gone)
  | false =>
    simp only [Bool.false_eq_true, ↓reduceIte]
    by_cases unmarked : site.Unmarked disk.root node
    · exact prepared_makeAll holds member plain .refl unmarked
    · have present : disk.root.at? (site.home node) ≠ none := fun absent => unmarked (unmarked_of_absent absent)
      obtain ⟨first, rest, shape⟩ : ∃ first rest, parts ++ scratch = first :: rest :=
        List.exists_cons_of_ne_nil (by simp [scratch])
      obtain ⟨error, failed⟩ := makeFolders_of_lost holds member (plain first (by simp [shape])).1 present there
      simp only [shape, List.map_cons, makeAll, failed]
      exact .stops _

end Store.Site
end Pkgset

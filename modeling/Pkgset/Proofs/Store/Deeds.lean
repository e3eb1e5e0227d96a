import Pkgset.Proofs.Build.Conservation

/-!
# What is done to a store

Entries are prepared, worked in below their outputs, and completed, in any order and for
any number of derivations. An entry that was prepared is not found until it is completed;
one that was completed is found until something in it changes; and what is done for one
derivation is nothing to the others.
-/

namespace Pkgset
open Disk Node Pkgset.Path

/-- Something that is done to a store: an entry is prepared or completed, or what stands at
    or below an output is replaced or taken away. -/
inductive Deed where
  | prepare (node : Derivation)
  | commit (node : Derivation)
  | alter (node : Derivation) (output : String) (below : Place) (content : Option Node)

namespace Deed

/-- The derivation that it is done for. -/
def node : Deed → Derivation
  | .prepare node | .commit node | .alter node _ _ _ => node

/-- It is done for one of some derivations; only declared outputs are altered. -/
def Among (nodes : List Derivation) : Deed → Prop
  | .prepare node | .commit node => node ∈ nodes
  | .alter node output _ _ => node ∈ nodes ∧ output ∈ node.outputs

theorem Among.member {nodes : List Derivation} {deed : Deed} (among : deed.Among nodes) : deed.node ∈ nodes := by
  cases deed with
  | prepare node => exact among
  | commit node => exact among
  | alter node output below content => exact among.1

end Deed

namespace Store
variable {store : Store} {nodes : List Derivation} {start disk : Disk} {node : Derivation} {deed : Deed}

/-- The files after a deed. -/
def act (store : Store) (disk : Disk) : Deed → Disk
  | .prepare node => (store.prepare disk node).1
  | .commit node => (Store.commit disk node (store.outputsFor node)).1
  | .alter node output below content =>
    match disk.target true (store.entryPath node) with
    | .ok (.found entry) => ⟨disk.root.replace (entry ++ output :: below) content⟩
    | _ => disk

/-- The files after several deeds. -/
def acts (store : Store) (disk : Disk) (deeds : List Deed) : Disk := deeds.foldl store.act disk

theorem acts_cons (store : Store) (disk : Disk) (deed : Deed) (deeds : List Deed) :
    store.acts disk (deed :: deeds) = store.acts (store.act disk deed) deeds := rfl

theorem acts_append (store : Store) (disk : Disk) (deeds more : List Deed) :
    store.acts disk (deeds ++ more) = store.acts (store.acts disk deeds) more := List.foldl_append

/-! ### One deed -/

namespace Site
variable {site : store.Site nodes}

/-- The files of a site, of which no entry and no marker is a link. -/
structure Tidy (site : store.Site nodes) (disk : Disk) : Prop where
  holds : site.Holds disk.root
  unlinked : ∀ node ∈ nodes, site.Unlinked disk.root node

theorem Tidy.descent (tidy : site.Tidy disk) (member : node ∈ nodes) :
    Descent disk.root site.base (site.rest ++ [entryName node]) (disk.target true (store.entryPath node)) :=
  tidy.holds.descent (site.spells_entry member) (by simp) (site.plain_entry member)
    (direct_entry tidy.holds (tidy.unlinked node member).entry)

theorem act_alter (tidy : site.Tidy disk) (member : node ∈ nodes) (output : String) (below : Place) (content : Option Node) :
    store.act disk (.alter node output below content) = disk ∨
      store.act disk (.alter node output below content) = ⟨disk.root.replace (site.home node ++ output :: below) content⟩ := by
  have descent := tidy.descent member
  simp only [act]
  generalize disk.target true (store.entryPath node) = target at descent
  cases descent with
  | found present => exact Or.inr rfl
  | vacant => exact Or.inl rfl
  | missing => exact Or.inl rfl
  | refused => exact Or.inl rfl

theorem output_ne (site : store.Site nodes) (member : node ∈ nodes) {output : String} (declared : output ∈ node.outputs) :
    output ≠ StoreMarker.fileName := by
  rintro rfl
  exact (site.proper.outputs node member _ declared).2 (by simp [exclusions])

/-- A deed changes the entry of its derivation alone, and puts no link there or in the place
    of the marker. -/
theorem works_act (tidy : site.Tidy disk) (among : deed.Among nodes) :
    site.Works deed.node disk.root (store.act disk deed).root ∧ site.Unlinked (store.act disk deed).root deed.node := by
  cases deed with
  | prepare node =>
    have done := prepared tidy.holds among
    refine ⟨done.works, ?_⟩
    rcases done.left with same | unmarked
    · rw [act, same]
      exact tidy.unlinked node among
    · exact unmarked.unlinked
  | commit node =>
    have done := committed tidy.holds among (tidy.unlinked node among)
    exact ⟨done.works, done.unlinked⟩
  | alter node output below content =>
    obtain ⟨member, declared⟩ := among
    rcases act_alter tidy member output below content with same | changed
    · rw [same]
      exact ⟨.refl, tidy.unlinked node member⟩
    · rw [changed]
      refine ⟨.single (.entry _ _), (tidy.unlinked node member).alike (seen?_replace_part output below content) ?_⟩
      exact at?_replace_part (site.output_ne member declared) below [] content

theorem Tidy.act (tidy : site.Tidy disk) (among : deed.Among nodes) : site.Tidy (store.act disk deed) := by
  obtain ⟨works, unlinked⟩ := works_act tidy among
  refine ⟨works.holds among.member tidy.holds, fun node member => ?_⟩
  by_cases own : deed.node = node
  · exact own ▸ unlinked
  · exact (tidy.unlinked node member).congr (works.at?_eq among.member member own)

/-- A deed leaves an entry without a marker so, unless it completes it. -/
theorem Unmarked.act (unmarked : site.Unmarked disk.root node) (tidy : site.Tidy disk) (member : node ∈ nodes)
    (among : deed.Among nodes)
    (fails : deed = .commit node → ∃ error, (Store.commit disk node (store.outputsFor node)).2 = .error error) :
    site.Unmarked (store.act disk deed).root node := by
  -- what is done for others is no change of this entry
  by_cases own : deed.node = node
  · cases deed with
    | prepare other =>
      obtain rfl : other = node := own
      rcases (prepared tidy.holds member).left with same | unmarked'
      · rw [Store.act, same]
        exact unmarked
      · exact unmarked'
    | commit other =>
      obtain rfl : other = node := own
      obtain ⟨error, failed⟩ := fails rfl
      exact (committed tidy.holds member (tidy.unlinked other member)).failed error failed unmarked
    | alter other output below content =>
      obtain rfl : other = node := own
      rcases act_alter tidy member output below content with same | changed
      · rw [same]
        exact unmarked
      · rw [changed]
        exact unmarked.inside (site.output_ne member among.2) below content
  · exact unmarked.congr ((works_act tidy among).1.at?_eq among.member member own)

/-- The node that the path of an entry leads to stands in the place of the entry. -/
theorem at?_of_node (tidy : site.Tidy disk) (member : node ∈ nodes) {found : Node}
    (leads : disk.node true (store.entryPath node) = .ok found) : disk.root.at? (site.home node) = some found := by
  have descent := tidy.descent member
  unfold Disk.node Disk.place at leads
  generalize disk.target true (store.entryPath node) = target at descent leads
  cases descent with
  | found present =>
    simp only [bind, Except.bind] at leads
    split at leads
    next other there =>
      cases leads
      exact there
    next => cases leads
  | vacant => cases leads
  | missing => cases leads
  | refused => cases leads

/-- What is done for others is nothing to a derivation. -/
theorem act_aside (tidy : site.Tidy disk) (member : node ∈ nodes) (among : deed.Among nodes) (apart : deed.node ≠ node) :
    store.lookup (store.act disk deed) node = store.lookup disk node ∧
      ∀ found, disk.node true (store.entryPath node) = .ok found →
        (store.act disk deed).node true (store.entryPath node) = .ok found := by
  have works := (works_act tidy among).1
  have same := works.at?_eq among.member member apart
  have holds := works.holds among.member tidy.holds
  refine ⟨lookup_congr (accepts_congr tidy.holds holds member same (tidy.unlinked node member)), fun found leads => ?_⟩
  have there := at?_of_node tidy member leads
  have here := same []
  rw [List.append_nil] at here
  rw [← leads]
  exact node_entry_congr tidy.holds holds member (by simp [there]) here (tidy.unlinked node member).entry

/-! ### Several deeds -/

theorem Tidy.acts {deeds : List Deed} (tidy : site.Tidy disk) (among : ∀ deed ∈ deeds, deed.Among nodes) :
    site.Tidy (store.acts disk deeds) := by
  induction deeds generalizing disk with
  | nil => exact tidy
  | cons deed deeds ih => exact ih (tidy.act (among deed (by simp))) fun other later => among other (by simp [later])

theorem Unmarked.acts {deeds : List Deed} (unmarked : site.Unmarked disk.root node) (tidy : site.Tidy disk)
    (member : node ∈ nodes) (among : ∀ deed ∈ deeds, deed.Among nodes)
    (fails : ∀ before after, deeds = before ++ .commit node :: after →
      ∃ error, (Store.commit (store.acts disk before) node (store.outputsFor node)).2 = .error error) :
    site.Unmarked (store.acts disk deeds).root node := by
  induction deeds generalizing disk with
  | nil => exact unmarked
  | cons deed deeds ih =>
    have first := among deed (by simp)
    refine ih (unmarked.act tidy member first ?_) (tidy.act first) (fun other later => among other (by simp [later])) ?_
    · rintro rfl
      exact fails [] deeds rfl
    · rintro before after rfl
      exact fails (deed :: before) after rfl

/-- An entry that was completed is found as long as it stays as it is, with its outputs as
    they were before, and without what could be taken away. -/
theorem kept_of_committed {later : Disk} (tidy : site.Tidy disk) (member : node ∈ nodes)
    (complete : (Store.commit disk node (store.outputsFor node)).2 = .ok ()) (tidyLater : site.Tidy later)
    (same : later.node true (store.entryPath node) =
      (store.act disk (.commit node)).node true (store.entryPath node)) :
    store.lookup later node = some (store.outputsFor node) ∧
      (∀ output ∈ node.outputs, later.node false (Path.join (store.entryPath node) output) =
        disk.node false (Path.join (store.entryPath node) output)) ∧
      ∀ before part after, scratch = before ++ part :: after →
        ((Site.clearing store node before disk).removeTree (Path.join (store.entryPath node) part)).2 = .ok () →
          later.leadsToNode (Path.join (store.entryPath node) part) = false := by
  have unlinked := tidy.unlinked node member
  have committed := committed tidy.holds member unlinked
  have done : site.Tidy (store.act disk (.commit node)) := tidy.act member
  have complete := committed.sound complete
  -- the entry stands in its place at both moments, and it is the same
  obtain ⟨found, leads⟩ : ∃ found, (store.act disk (.commit node)).node true (store.entryPath node) = .ok found :=
    complete.accepted.exists_entry
  have there := at?_of_node done member leads
  have thereLater := at?_of_node tidyLater member (same.trans leads)
  have alike (below : Place) : later.root.at? (site.home node ++ below) =
      (store.act disk (.commit node)).root.at? (site.home node ++ below) := by
    rw [at?_append, thereLater, at?_append, there]
  have present : disk.root.at? (site.home node) ≠ none := by
    rw [Ne, ← seen?_eq_none, ← committed.shown, seen?_eq_none]
    exact fun absent => Option.some_ne_none _ (there.symm.trans absent)
  refine ⟨lookup_of_accepts ?_, fun output declared => ?_, fun before part after split removed => ?_⟩
  · exact (accepts_congr done.holds tidyLater.holds member alike complete.unlinked).mpr complete.accepted
  · obtain ⟨plain, other⟩ := site.proper.outputs node member output declared
    exact node_part_congr tidy.holds tidyLater.holds member plain present ((seen?_home alike).trans committed.shown)
      ((alike _).trans (committed.others output other [])) (direct_part tidy.holds unlinked.entry output)
  · have aside : part ∈ scratch := by simp [split]
    exact lost_of_absent tidyLater.holds member (plain_scratch part aside).1 (tidyLater.unlinked node member).entry
      ((alike _).trans (committed.gone before part after split removed))

end Site

/-! ### Where the way is blocked -/

/-- Nothing is ever done to a store where the way is blocked. -/
theorem act_of_blocked (blocked : Blocked disk.root linkLimit [] (way store.root)) (proper : Proper nodes)
    (among : deed.Among nodes) : store.act disk deed = disk ∧
      (∃ error, (store.prepare disk deed.node).2 = .error error) ∧
        ∃ error, (Store.commit disk deed.node (store.outputsFor deed.node)).2 = .error error := by
  have member := among.member
  obtain ⟨refusal, unprepared⟩ := prepare_of_blocked blocked proper member
  have entry : (store.outputsFor deed.node).storePath = store.entryPath deed.node := rfl
  have spells : Spells (store.entryPath deed.node) (way store.root ++ [entryName deed.node]) :=
    spells_join store.root (proper.names deed.node member)
  have unmoved (part : String) (aside : part ∈ scratch) :
      (disk.removeTree (Path.join (store.entryPath deed.node) part)).1 = disk := by
    have inside := spells.join (Site.plain_scratch part aside).1
    rw [List.append_assoc] at inside
    obtain ⟨error, refused⟩ := exists_refused blocked inside (by simp) false
    simp [Disk.removeTree, Disk.place, refused, bind, Except.bind]
  have cleared : clearScratch disk (store.entryPath deed.node) = disk := by
    simp only [clearScratch, scratch, List.foldl_cons, List.foldl_nil, unmoved workFolder (by simp [scratch]),
      unmoved temporaryFolder (by simp [scratch])]
  obtain ⟨error, refused⟩ := exists_refused blocked spells (by simp) true
  obtain ⟨failure, uncommitted⟩ :
      ∃ failure, Store.commit disk deed.node (store.outputsFor deed.node) = (disk, .error failure) := by
    unfold Store.commit
    simp [entry, cleared, Disk.treeHash, Disk.node, Disk.place, refused, bind, Except.bind]
  refine ⟨?_, ⟨refusal, by rw [unprepared]⟩, failure, by rw [uncommitted]⟩
  cases deed with
  | prepare node => exact congrArg Prod.fst unprepared
  | commit node => exact congrArg Prod.fst uncommitted
  | alter node output below content =>
    have refused : disk.target true (store.entryPath node) = .error error := refused
    simp only [act, refused]

theorem acts_of_blocked {deeds : List Deed} (blocked : Blocked disk.root linkLimit [] (way store.root))
    (proper : Proper nodes) (among : ∀ deed ∈ deeds, deed.Among nodes) : store.acts disk deeds = disk := by
  induction deeds with
  | nil => rfl
  | cons deed deeds ih =>
    rw [acts_cons, (act_of_blocked blocked proper (among deed (by simp))).1]
    exact ih fun other later => among other (by simp [later])

/-! ### All that is done -/

/-- The files to start with are those of a site, or nothing can be made. -/
theorem Clean.cases (clean : store.Clean nodes disk) :
    (∃ site : store.Site nodes, site.Tidy disk) ∨ Blocked disk.root linkLimit [] (way store.root) := by
  rcases way_cases disk.root linkLimit [] (way store.root) with
    ⟨links, base, leads, folder⟩ | ⟨before, name, after, links, base, split, leads, free⟩ | blocked
  · let site : store.Site nodes := siteOfFolder clean.proper folder (clean.aside links base leads folder)
    refine Or.inl ⟨site, ⟨within_without base nodes disk.root, .nil⟩, fun node member => ?_⟩
    have plain := clean.unlinked links base leads node member
    exact ⟨fun target => (plain target).1, fun target => (plain target).2⟩
  · let site : store.Site nodes := siteOfMissing clean.proper split ⟨links, leads⟩ free
      (clean.onward before name after links base split leads free)
    have missing : ∀ first rest, site.rest = first ++ rest → first ≠ [] → disk.root.at? (site.base ++ first) = none :=
      site.unmade
    refine Or.inl ⟨site, ⟨.refl _, fun first rest split filled => Or.inl (missing first rest split filled)⟩, ?_⟩
    intro node member
    exact (Site.unmarked_of_absent (site.free node member)).unlinked
  · exact Or.inr blocked

/-- However entries are prepared, altered below their outputs and completed, one derivation
    after another or in turns: from when an entry is prepared, the outputs of its derivation
    are not found before the entry is completed. From when it is completed, they are found as
    long as the entry stays as it is; its outputs are what they were, and scratch folders that
    could be taken away are gone. What is done for one derivation neither changes what is found
    for another one nor its entry. -/
theorem Clean.lookup_acts (clean : store.Clean nodes start) {earlier later : List Deed}
    (among : ∀ deed ∈ earlier ++ later, deed.Among nodes) (member : node ∈ nodes) (came : store.acts start earlier = disk) :
    (∀ outputs, (store.prepare disk node).2 = .ok outputs →
      (∀ before after, later = before ++ .commit node :: after → ∃ error,
        (Store.commit (store.acts (store.act disk (.prepare node)) before) node (store.outputsFor node)).2 = .error error) →
      store.lookup (store.acts (store.act disk (.prepare node)) later) node = none) ∧
    ((Store.commit disk node (store.outputsFor node)).2 = .ok () →
      (store.acts (store.act disk (.commit node)) later).node true (store.entryPath node) =
        (store.act disk (.commit node)).node true (store.entryPath node) →
      store.lookup (store.acts (store.act disk (.commit node)) later) node = some (store.outputsFor node) ∧
      (∀ output ∈ node.outputs, (store.acts (store.act disk (.commit node)) later).node false
          (Path.join (store.entryPath node) output) = disk.node false (Path.join (store.entryPath node) output)) ∧
      ∀ before part after, scratch = before ++ part :: after →
        ((Site.clearing store node before disk).removeTree (Path.join (store.entryPath node) part)).2 = .ok () →
          (store.acts (store.act disk (.commit node)) later).leadsToNode (Path.join (store.entryPath node) part) = false) ∧
    ∀ deed : Deed, deed.Among nodes → deed.node ≠ node →
      store.lookup (store.act disk deed) node = store.lookup disk node ∧
        ∀ found, disk.node true (store.entryPath node) = .ok found →
          (store.act disk deed).node true (store.entryPath node) = .ok found := by
  have before : ∀ deed ∈ earlier, deed.Among nodes := fun deed present => among deed (List.mem_append_left _ present)
  have after : ∀ deed ∈ later, deed.Among nodes := fun deed present => among deed (List.mem_append_right _ present)
  rcases clean.cases with ⟨site, tidy⟩ | blocked
  · have tidy : site.Tidy disk := came ▸ tidy.acts before
    refine ⟨fun outputs made fails => ?_, fun complete same => ?_, fun deed among apart => site.act_aside tidy member among apart⟩
    · have fresh := ((Site.prepared tidy.holds member).made outputs made).2
      have tidyFresh : site.Tidy (store.act disk (.prepare node)) := tidy.act member
      have unmarked : site.Unmarked (store.act disk (.prepare node)).root node := fresh
      refine lookup_of_not_accepts (Site.not_accepts (tidyFresh.acts after).holds member ?_)
      exact unmarked.acts tidyFresh member after fails
    · have done : site.Tidy (store.act disk (.commit node)) := tidy.act member
      exact Site.kept_of_committed tidy member complete (done.acts after) same
  · obtain rfl : start = disk := (acts_of_blocked blocked clean.proper before).symm.trans came
    obtain ⟨_, ⟨refusal, unprepared⟩, failure, uncommitted⟩ :=
      act_of_blocked blocked clean.proper (show (Deed.prepare node).Among nodes from member)
    have unprepared : (store.prepare start node).2 = .error refusal := unprepared
    have uncommitted : (Store.commit start node (store.outputsFor node)).2 = .error failure := uncommitted
    refine ⟨fun outputs made => ?_, fun complete => ?_, fun deed among _ => ?_⟩
    · cases unprepared.symm.trans made
    · cases uncommitted.symm.trans complete
    · rw [(act_of_blocked blocked clean.proper among).1]
      exact ⟨rfl, fun _ => id⟩

open Errand in
/-- In an empty store the entry of `lib` is prepared, filled and completed, and then that of
    `tool` is prepared. -/
theorem Clean.lookup_acts_errand :
    (Store.prepare ⟨"/"⟩ (ground none) lib).2 = .ok Errand.place ∧
    Store.lookup ⟨"/"⟩ (Store.acts ⟨"/"⟩ (ground none) [.prepare lib, .alter lib "out" ["log"] (some .empty)]) lib = none ∧
    ∃ marked, Store.acts ⟨"/"⟩ (ground none) [.prepare lib, .commit lib] = marked ∧
      Store.lookup ⟨"/"⟩ marked lib = some Errand.place ∧
      Store.lookup ⟨"/"⟩ (Store.act ⟨"/"⟩ marked (.prepare tool)) lib = some Errand.place := by
  have clean : Store.Clean ⟨"/"⟩ [lib, tool] (ground none) := clean_ground (List.Subset.refl _)
  have own : Store.outputsFor ⟨"/"⟩ lib = Errand.place := by decide +kernel
  have fill : (Deed.alter lib "out" ["log"] (some .empty)).Among [lib, tool] := ⟨by simp, List.mem_singleton_self _⟩
  have prepared := congrArg Prod.snd prepare_ground
  obtain ⟨marked, committed⟩ := commit_ground
  have made : Store.acts ⟨"/"⟩ (ground none) [.prepare lib] =
      ground (some [(".build", .empty), (".tmp", .empty), ("out", .empty)]) := congrArg Prod.fst prepare_ground
  have done : Store.commit (Store.acts ⟨"/"⟩ (ground none) [.prepare lib]) lib (Store.outputsFor ⟨"/"⟩ lib) =
      (marked, .ok ()) := by
    rw [made, own]
    exact committed
  have begun : ∀ deed ∈ [] ++ [Deed.alter lib "out" ["log"] (some .empty)], deed.Among [lib, tool] := by simpa using fill
  have ready : ∀ deed ∈ [Deed.prepare lib] ++ [], deed.Among [lib, tool] := by simp [Deed.Among]
  have finished : ∀ deed ∈ [Deed.prepare lib, .commit lib] ++ [], deed.Among [lib, tool] := by simp [Deed.Among]
  have member : lib ∈ [lib, tool] := by simp
  obtain ⟨hidden, -, -⟩ := Clean.lookup_acts clean begun member rfl
  obtain ⟨-, shown, -⟩ := Clean.lookup_acts clean ready member rfl
  obtain ⟨-, -, aside⟩ := Clean.lookup_acts clean finished member rfl
  have found := (shown (congrArg Prod.snd done) rfl).1
  refine ⟨prepared, hidden _ prepared ?_, _, rfl, found.trans (congrArg some own), ?_⟩
  · intro before after split
    have among : Deed.commit lib ∈ before ++ .commit lib :: after := by simp
    simp [← split] at among
  · have other : (Deed.prepare tool).node ≠ lib := fun same => absurd (congrArg Derivation.name same) (by decide)
    exact (aside (.prepare tool) (by simp [Deed.Among]) other).1.trans (found.trans (congrArg some own))

end Store
end Pkgset

import Pkgset.Proofs.Derivation.Identity
import Pkgset.Proofs.Store.Making
import Pkgset.Proofs.Text.Wire

/-!
# Entries that are kept

What is accepted for a derivation depends on its entry alone, if no link stands in the
place of the entry or the marker. An entry without a marker is not accepted; to complete
one writes the marker, which is read back, and from then on the entry is accepted.
-/

namespace Pkgset
open Disk Node Pkgset.Path

theorem Bytes.toText?_ofText (text : String) : Bytes.toText? (Bytes.ofText text) = some text := by
  have bytes : ByteArray.mk (Bytes.ofText text).toArray = text.toUTF8 := by
    apply ByteArray.ext
    simp [Bytes.ofText, ByteArray.toList, Bytes.toList_loop]
  rw [Bytes.toText?, bytes, String.fromUTF8?, String.toUTF8_eq_toByteArray, dif_pos text.isValidUTF8]
  rfl

namespace StoreMarker

/-- A marker that is written is read back. -/
theorem ofText?_fileText (marker : StoreMarker) :
    (Json.Document.ofText? marker.fileText).bind ofDocument? = some marker := by
  have writes : marker.toJson.document.Writes marker.fileText := Json.writes_toText marker.toJson (by simp [Json.Token.isGap])
  have printed : marker.form.json = marker.toJson := rfl
  rw [writes.ofText?, Option.bind_some, marker.gives _ (printed ▸ marker.form.admits_document)]

end StoreMarker

/-- What stands under an excluded name has no lines. -/
theorem TreeHash.entryLines_insert {exclude : List String} {folder name : String} (excluded : exclude.contains name = true)
    (entries : Dict Node) (node : Node) :
    entryLines exclude folder (Dict.insert entries name node) = entryLines exclude folder entries := by
  induction entries with
  | nil => simp only [Dict.insert, entryLines, excluded, ↓reduceIte, List.nil_append]
  | cons entry rest ih =>
    obtain ⟨key, old⟩ := entry
    rw [Dict.insert]
    split
    next => simp only [entryLines, excluded, ↓reduceIte, List.nil_append]
    next =>
      split
      next same => simp only [entryLines, ← same, excluded, ↓reduceIte, List.nil_append]
      next => simp only [entryLines, ih]

/-- The hash of a folder does not tell what stands in it under an excluded name. -/
theorem TreeHash.ofNode_insert {exclude : List String} {name : String} (excluded : exclude.contains name = true)
    (entries : Dict Node) (node : Node) :
    ofNode exclude (.folder (Dict.insert entries name node)) = ofNode exclude (.folder entries) := by
  simp only [ofNode, rootLines, entryLines_insert excluded]

namespace Store

/-- The outputs of a derivation are found in the store. -/
def Accepts (store : Store) (disk : Disk) (node : Derivation) : Prop := (store.lookup disk node).isSome = true

theorem accepts_iff {store : Store} {disk : Disk} {node : Derivation} :
    store.Accepts disk node ↔ ∃ marker, readMarker disk (store.entryPath node) = .ok (some marker) ∧
      marker.fingerprint = node.fingerprint ∧ disk.treeHash (store.entryPath node) exclusions = .ok marker.outputHash := by
  unfold Accepts lookup
  have entry : (store.outputsFor node).storePath = store.entryPath node := rfl
  simp only [entry]
  constructor
  · intro found
    split at found
    next marker read =>
      refine ⟨marker, read, ?_⟩
      split at found
      next => cases found
      next own =>
        refine ⟨not_not.mp own, ?_⟩
        split at found
        next hash hashed =>
          split at found
          next same => rw [hashed, same]
          next => cases found
        next => cases found
    next => cases found
  · rintro ⟨marker, read, own, hashed⟩
    simp [read, own, hashed]

/-- An entry that is accepted is there. -/
theorem Accepts.exists_entry {store : Store} {disk : Disk} {node : Derivation} (accepts : store.Accepts disk node) :
    ∃ entry, disk.node true (store.entryPath node) = .ok entry := by
  obtain ⟨marker, _, _, hashed⟩ := accepts_iff.mp accepts
  unfold Disk.treeHash at hashed
  split at hashed
  next => cases hashed
  next entry leads => exact ⟨entry, leads⟩

/-- What is found are the outputs of the derivation. -/
theorem lookup_of_accepts {store : Store} {disk : Disk} {node : Derivation} (accepts : store.Accepts disk node) :
    store.lookup disk node = some (store.outputsFor node) := by
  obtain ⟨marker, read, own, hashed⟩ := accepts_iff.mp accepts
  have entry : (store.outputsFor node).storePath = store.entryPath node := rfl
  simp [lookup, entry, read, own, hashed]

theorem lookup_of_not_accepts {store : Store} {disk : Disk} {node : Derivation} (refuses : ¬ store.Accepts disk node) :
    store.lookup disk node = none := by simpa [Accepts] using refuses

/-- What is found depends on whether the entry is accepted. -/
theorem lookup_congr {store : Store} {disk disk' : Disk} {node : Derivation}
    (alike : store.Accepts disk' node ↔ store.Accepts disk node) : store.lookup disk' node = store.lookup disk node := by
  by_cases accepts : store.Accepts disk node
  · rw [lookup_of_accepts accepts, lookup_of_accepts (alike.mpr accepts)]
  · rw [lookup_of_not_accepts accepts, lookup_of_not_accepts fun accepts' => accepts (alike.mp accepts')]

namespace Site
variable {store : Store} {nodes : List Derivation} {site : store.Site nodes} {disk disk' : Disk} {node : Derivation}
  {path : String} {names : List String}

theorem plain_marker : Plain StoreMarker.fileName := ⟨by decide, by decide, by decide, by decide⟩

/-- The way to an entry that is not a link is direct. -/
theorem direct_entry {follow : Bool} (holds : site.Holds disk.root)
    (entry : ∀ target, disk.root.at? (site.home node) ≠ some (.link target)) :
    Direct disk.root site.base follow (site.rest ++ [entryName node]) :=
  holds.clear.direct.concat fun _ target shown => entry target (seen?_eq_link.mp shown)

/-- The way to a marker is direct where neither the entry nor the marker is a link. -/
theorem direct_marker {follow : Bool} (holds : site.Holds disk.root) (unlinked : site.Unlinked disk.root node) :
    Direct disk.root site.base follow (site.route node StoreMarker.fileName) := by
  refine (direct_entry holds unlinked.entry).concat fun _ target shown => unlinked.marker target ?_
  rw [← List.append_assoc] at shown
  exact seen?_eq_link.mp shown

/-- A last name is not followed. -/
theorem direct_part (holds : site.Holds disk.root) (entry : ∀ target, disk.root.at? (site.home node) ≠ some (.link target))
    (part : String) : Direct disk.root site.base false (site.route node part) :=
  (direct_entry holds entry).concat (by simp)

/-- What is not in an entry is not led to. -/
theorem lost_of_absent {part : String} (holds : site.Holds disk.root) (member : node ∈ nodes) (plain : Plain part)
    (entry : ∀ target, disk.root.at? (site.home node) ≠ some (.link target))
    (absent : disk.root.at? (site.home node ++ [part]) = none) :
    disk.leadsToNode (Path.join (store.entryPath node) part) = false := by
  have direct : Direct disk.root site.base true (site.route node part) := by
    refine (direct_entry holds entry).concat fun _ target shown => ?_
    rw [← List.append_assoc, seen?_eq_link] at shown
    exact Option.some_ne_none _ (shown.symm.trans absent)
  have descent := holds.descent (site.spells_part member plain) (by simp [route]) (site.plain_route member plain) direct
  unfold leadsToNode Disk.node Disk.place
  generalize disk.target true _ = target at descent
  cases descent with
  | found present =>
    rw [route, ← List.append_assoc] at present
    exact absurd absent present
  | vacant => rfl
  | missing => rfl
  | refused => rfl

/-- An entry without a marker is not accepted. -/
theorem not_accepts (holds : site.Holds disk.root) (member : node ∈ nodes) (unmarked : site.Unmarked disk.root node) :
    ¬ store.Accepts disk node := by
  intro accepts
  obtain ⟨marker, read, _⟩ := accepts_iff.mp accepts
  have lost := lost_of_absent holds member plain_marker unmarked.unlinked.entry unmarked.marker
  simp [readMarker, lost] at read

/-! ### What others do -/

/-- Where the same shows at an entry and on the way from there, the same shows on the whole way. -/
private theorem seen?_congr {part before after : List String} (present : disk.root.at? (site.home node) ≠ none)
    (shows : ∀ before after, part = before ++ after →
      disk'.root.seen? (site.home node ++ before) = disk.root.seen? (site.home node ++ before))
    (split : site.rest ++ [entryName node] ++ part = before ++ after) :
    disk.root.seen? (site.base ++ before) = disk'.root.seen? (site.base ++ before) := by
  have entry := shows [] part rfl
  rw [List.append_nil] at entry
  rcases List.append_eq_append_iff.mp split with ⟨below, rfl, within⟩ | ⟨more, higher, _⟩
  · have deeper : site.base ++ (site.rest ++ [entryName node] ++ below) = site.home node ++ below := by simp [home]
    rw [deeper, shows below after within]
  · have deeper : site.home node = site.base ++ before ++ more := by simp [home, higher]
    cases more with
    | nil =>
      rw [deeper, List.append_nil] at entry
      exact entry.symm
    | cons name more =>
      -- the entry is there in both trees, so above it both have folders
      have present' : disk'.root.at? (site.home node) ≠ none := by rwa [Ne, ← seen?_eq_none, entry, seen?_eq_none]
      rw [deeper] at present present'
      exact (FolderAt.of_present_below present (by simp)).trans (FolderAt.of_present_below present' (by simp)).symm

/-- A path into an entry leads to the same node wherever the same shows on its way and stands
    at its end. -/
theorem node_congr {follow : Bool} (part : List String) (holds : site.Holds disk.root) (holds' : site.Holds disk'.root)
    (present : disk.root.at? (site.home node) ≠ none)
    (shows : ∀ before after, part = before ++ after →
      disk'.root.seen? (site.home node ++ before) = disk.root.seen? (site.home node ++ before))
    (same : disk'.root.at? (site.home node ++ part) = disk.root.at? (site.home node ++ part))
    (plain : ∀ name ∈ site.rest ++ [entryName node] ++ part, Plain name)
    (direct : Direct disk.root site.base follow (site.rest ++ [entryName node] ++ part))
    (spells : Spells path (site.names ++ (site.rest ++ [entryName node] ++ part))) :
    disk'.node follow path = disk.node follow path := by
  have place : site.base ++ (site.rest ++ [entryName node] ++ part) = site.home node ++ part := by simp [home]
  have target : disk'.target follow path = disk.target follow path := by
    rcases target_cases spells with walks | ⟨error, _, refused⟩
    · obtain ⟨links, leads⟩ := site.leads
      rw [walks, walks, (leads.mono holds.within).walk (Or.inr (by simp)), (leads.mono holds'.within).walk (Or.inr (by simp))]
      exact (walk_congr direct plain fun _ _ => seen?_congr present shows).symm
    · rw [refused, refused]
  have descent := holds.descent spells (by simp) plain direct
  unfold Disk.node Disk.place
  rw [target]
  generalize disk.target follow path = led at descent
  cases descent with
  | found found =>
    simp only [bind, Except.bind]
    rw [place, same]
  | vacant => rfl
  | missing => rfl
  | refused => rfl

/-- The path of an entry leads to the same node wherever the entry is the same. -/
theorem node_entry_congr (holds : site.Holds disk.root) (holds' : site.Holds disk'.root) (member : node ∈ nodes)
    (present : disk.root.at? (site.home node) ≠ none) (same : disk'.root.at? (site.home node) = disk.root.at? (site.home node))
    (entry : ∀ target, disk.root.at? (site.home node) ≠ some (.link target)) :
    disk'.node true (store.entryPath node) = disk.node true (store.entryPath node) := by
  refine node_congr [] holds holds' present (fun before after split => ?_) ?_ ?_ ?_ ?_
  · obtain ⟨rfl, _⟩ := List.append_eq_nil_iff.mp split.symm
    rw [List.append_nil, seen?, same, seen?]
  · rwa [List.append_nil]
  · rw [List.append_nil]
    exact site.plain_entry member
  · rw [List.append_nil]
    exact direct_entry holds entry
  · rw [List.append_nil]
    exact site.spells_entry member

/-- The path of a part of an entry leads to the same node wherever the entry shows the same and
    the part is the same. -/
theorem node_part_congr {follow : Bool} {part : String} (holds : site.Holds disk.root) (holds' : site.Holds disk'.root)
    (member : node ∈ nodes) (plain : Plain part) (present : disk.root.at? (site.home node) ≠ none)
    (shown : disk'.root.seen? (site.home node) = disk.root.seen? (site.home node))
    (same : disk'.root.at? (site.home node ++ [part]) = disk.root.at? (site.home node ++ [part]))
    (direct : Direct disk.root site.base follow (site.route node part)) :
    disk'.node follow (Path.join (store.entryPath node) part) = disk.node follow (Path.join (store.entryPath node) part) := by
  refine node_congr [part] holds holds' present (fun before after split => ?_) same (site.plain_route member plain) direct
    (site.spells_part member plain)
  rcases List.append_eq_singleton_iff.mp split.symm with ⟨rfl, _⟩ | ⟨rfl, _⟩
  · rwa [List.append_nil]
  · rw [seen?, same, seen?]

/-- What the marker of an entry says depends on the marker alone. -/
theorem readMarker_congr (holds : site.Holds disk.root) (holds' : site.Holds disk'.root) (member : node ∈ nodes)
    (unlinked : site.Unlinked disk.root node) (present : disk.root.at? (site.home node) ≠ none)
    (shown : disk'.root.seen? (site.home node) = disk.root.seen? (site.home node))
    (same : disk'.root.at? (site.home node ++ [StoreMarker.fileName]) = disk.root.at? (site.home node ++ [StoreMarker.fileName])) :
    readMarker disk' (store.entryPath node) = readMarker disk (store.entryPath node) := by
  have atMarker : disk'.node true (Path.join (store.entryPath node) StoreMarker.fileName) =
      disk.node true (Path.join (store.entryPath node) StoreMarker.fileName) :=
    node_part_congr holds holds' member plain_marker present shown same (direct_marker holds unlinked)
  have leads : disk'.leadsToNode (Path.join (store.entryPath node) StoreMarker.fileName) =
      disk.leadsToNode (Path.join (store.entryPath node) StoreMarker.fileName) := by rw [leadsToNode, atMarker, leadsToNode]
  have text : disk'.readText (Path.join (store.entryPath node) StoreMarker.fileName) =
      disk.readText (Path.join (store.entryPath node) StoreMarker.fileName) := by
    rw [readText, readText, Disk.read, Disk.read, atMarker]
  simp only [readMarker, leads, text]

/-- Whether an entry is accepted depends on the entry alone, if no link stands in its place
    or in that of its marker. -/
theorem accepts_congr (holds : site.Holds disk.root) (holds' : site.Holds disk'.root) (member : node ∈ nodes)
    (same : ∀ below, disk'.root.at? (site.home node ++ below) = disk.root.at? (site.home node ++ below))
    (unlinked : site.Unlinked disk.root node) : store.Accepts disk' node ↔ store.Accepts disk node := by
  by_cases absent : disk.root.at? (site.home node) = none
  · have unmarked := unmarked_of_absent absent
    have unmarked' : site.Unmarked disk'.root node := unmarked.congr same
    exact iff_of_false (not_accepts holds' member unmarked') (not_accepts holds member unmarked)
  · have here := same []
    rw [List.append_nil] at here
    have atEntry := node_entry_congr holds holds' member absent here unlinked.entry
    have hash : disk'.treeHash (store.entryPath node) exclusions = disk.treeHash (store.entryPath node) exclusions := by
      unfold Disk.treeHash
      rw [atEntry]
    rw [accepts_iff, accepts_iff, readMarker_congr holds holds' member unlinked absent (seen?_home same) (same _), hash]

/-- An entry is accepted and is a folder with a file as its marker. -/
structure Sealed (site : store.Site nodes) (disk : Disk) (node : Derivation) : Prop where
  accepted : store.Accepts disk node
  entry : FolderAt disk.root (site.home node)
  marker : ∃ bytes traits, disk.root.at? (site.home node ++ [StoreMarker.fileName]) = some (.file bytes traits)

theorem Sealed.unlinked (sound : site.Sealed disk node) : site.Unlinked disk.root node := by
  obtain ⟨_, folder, bytes, traits, file⟩ := sound
  obtain ⟨entries, entry⟩ := folderAt_iff.mp folder
  exact ⟨by simp [entry], by simp [file]⟩

theorem Sealed.congr (sound : site.Sealed disk node) (holds : site.Holds disk.root) (holds' : site.Holds disk'.root)
    (member : node ∈ nodes)
    (same : ∀ below, disk'.root.at? (site.home node ++ below) = disk.root.at? (site.home node ++ below)) :
    site.Sealed disk' node := by
  obtain ⟨bytes, traits, file⟩ := sound.marker
  refine ⟨(accepts_congr holds holds' member same sound.unlinked).mpr sound.accepted, ?_, bytes, traits, (same _).trans file⟩
  rw [FolderAt, seen?_home same]
  exact sound.entry

/-! ### Completing an entry -/

/-- Parts of an entry are taken away, or stay; nothing else changes. -/
structure Clears (site : store.Site nodes) (node : Derivation) (parts : List String) (disk disk' : Disk) : Prop where
  works : site.Works node disk.root disk'.root
  fewer : disk'.root.Within disk.root
  shown : disk'.root.seen? (site.home node) = disk.root.seen? (site.home node)
  others : ∀ part, part ∉ parts → ∀ below,
    disk'.root.at? (site.home node ++ part :: below) = disk.root.at? (site.home node ++ part :: below)

/-- The files when some parts of an entry were taken away, as far as they can be. -/
def clearing (store : Store) (node : Derivation) (parts : List String) (disk : Disk) : Disk :=
  parts.foldl (fun disk name => (disk.removeTree (Path.join (store.entryPath node) name)).1) disk

/-- One part of an entry is taken away as a whole, or it stays. -/
theorem clears_one {part : String} (holds : site.Holds disk.root) (member : node ∈ nodes) (plain : Plain part)
    (entry : ∀ target, disk.root.at? (site.home node) ≠ some (.link target)) :
    site.Clears node [part] disk (disk.removeTree (Path.join (store.entryPath node) part)).1 ∧
      ((disk.removeTree (Path.join (store.entryPath node) part)).2 = .ok () →
        (disk.removeTree (Path.join (store.entryPath node) part)).1.root.at? (site.home node ++ [part]) = none) := by
  have place : site.base ++ site.route node part = site.home node ++ [part] := by simp [route, home]
  rcases removeTree_cases holds (site.spells_part member plain) (by simp [route]) (site.plain_route member plain)
    (direct_part holds entry part) with ⟨error, failed⟩ | removed
  · rw [failed]
    exact ⟨⟨.refl, .refl _, rfl, fun _ _ _ => rfl⟩, fun absurd => by cases absurd⟩
  · rw [removed, place]
    refine ⟨⟨.single (.entry _ _), within_remove _ _ _, seen?_replace_part part [] none, fun other apart below => ?_⟩,
      fun _ => at?_remove_self _ _ _⟩
    exact at?_replace_part (fun same => apart (by simp [same])) [] below none

/-- Parts of an entry are taken away one after another. What could be taken away is gone. -/
theorem clears {parts : List String} (holds : site.Holds disk.root) (member : node ∈ nodes)
    (plain : ∀ part ∈ parts, Plain part) (entry : ∀ target, disk.root.at? (site.home node) ≠ some (.link target)) :
    site.Clears node parts disk (clearing store node parts disk) ∧
      ∀ before part after, parts = before ++ part :: after →
        ((clearing store node before disk).removeTree (Path.join (store.entryPath node) part)).2 = .ok () →
          (clearing store node parts disk).root.at? (site.home node ++ [part]) = none := by
  induction parts generalizing disk with
  | nil => exact ⟨⟨.refl, .refl _, rfl, fun _ _ _ => rfl⟩, by simp⟩
  | cons first rest ih =>
    obtain ⟨once, gone⟩ := clears_one holds member (plain first (by simp)) entry
    have entry' : ∀ target,
        (disk.removeTree (Path.join (store.entryPath node) first)).1.root.at? (site.home node) ≠ some (.link target) := by
      intro target
      rw [Ne, ← seen?_eq_link, once.shown, seen?_eq_link]
      exact entry target
    obtain ⟨more, goneRest⟩ := ih (once.works.holds member holds) (fun part present => plain part (by simp [present])) entry'
    refine ⟨⟨once.works.trans more.works, more.fewer.trans once.fewer, more.shown.trans once.shown, ?_⟩, ?_⟩
    · intro part apart below
      rw [List.mem_cons, not_or] at apart
      exact (more.others part apart.2 below).trans (once.others part (by simpa using apart.1) below)
    · intro before part after split removes
      cases before with
      | nil =>
        obtain ⟨rfl, rfl⟩ := List.cons.inj split
        exact more.fewer.absent (gone removes)
      | cons other before =>
        obtain ⟨rfl, later⟩ := List.cons.inj split
        exact goneRest before part after later removes

/-- What stands at the end of a legal path of the site is found. -/
theorem node_of_present {found : Node} (holds : site.Holds disk.root) (spells : Spells path (site.names ++ names))
    (legal : Legal path) (plain : ∀ name ∈ names, Plain name) (short : ∀ name ∈ names, ¬ nameLimit < name.utf8ByteSize)
    (direct : Direct disk.root site.base true names) (present : disk.root.at? (site.base ++ names) = some found) :
    disk.node true path = .ok found := by
  obtain ⟨links, leads⟩ := site.leads
  have target : disk.target true path = .ok (.found (site.base ++ names)) := by
    rw [target_of_legal spells legal, (leads.mono holds.within).walk (Or.inl rfl)]
    exact walk_found plain short direct holds.folder (by simp [present])
  simp [Disk.node, Disk.place, target, present, bind, Except.bind]

/-- What completing an entry may come to: of the entry, scratch folders are taken away and the
    marker may be written, and nothing else changes. The entry is accepted if all went well;
    else it has no marker if it had none. -/
structure Committed (site : store.Site nodes) (node : Derivation) (disk : Disk) (done : Disk × Except BuildError Unit) :
    Prop where
  works : site.Works node disk.root done.1.root
  shown : done.1.root.seen? (site.home node) = disk.root.seen? (site.home node)
  others : ∀ part, part ∉ exclusions → ∀ below,
    done.1.root.at? (site.home node ++ part :: below) = disk.root.at? (site.home node ++ part :: below)
  unlinked : site.Unlinked done.1.root node
  failed : ∀ error, done.2 = .error error → site.Unmarked disk.root node → site.Unmarked done.1.root node
  sound : done.2 = .ok () → site.Sealed done.1 node
  gone : ∀ before part after, scratch = before ++ part :: after →
    ((clearing store node before disk).removeTree (Path.join (store.entryPath node) part)).2 = .ok () →
      done.1.root.at? (site.home node ++ [part]) = none

/-- An entry with its marker written is accepted. -/
private theorem sealed_marker {hash : String} (traits : Traits) (holds : site.Holds disk.root) (member : node ∈ nodes)
    (hashed : disk.treeHash (store.entryPath node) exclusions = .ok hash)
    (legal : Legal (Path.join (store.entryPath node) StoreMarker.fileName)) (folder : FolderAt disk.root (site.home node))
    (short : ∀ name ∈ site.route node StoreMarker.fileName, ¬ nameLimit < name.utf8ByteSize) :
    site.Sealed (disk.put (site.home node ++ [StoreMarker.fileName])
      (.file (Bytes.ofText (markerFor node hash).fileText) traits)) node := by
  obtain ⟨entries, entry⟩ := folderAt_iff.mp folder
  obtain ⟨file, content⟩ : ∃ file, file = Node.file (Bytes.ofText (markerFor node hash).fileText) traits := ⟨_, rfl⟩
  rw [← content]
  have changes : site.Changes node disk.root (disk.root.replace (site.home node ++ [StoreMarker.fileName]) (some file)) :=
    .entry _ _
  have holds' : site.Holds (disk.put (site.home node ++ [StoreMarker.fileName]) file).root := changes.holds member holds
  have entry' : (disk.put (site.home node ++ [StoreMarker.fileName]) file).root.at? (site.home node) =
      some (.folder (Dict.insert entries StoreMarker.fileName file)) := at?_replace_parent entry _ _
  have marker' : (disk.put (site.home node ++ [StoreMarker.fileName]) file).root.at?
      (site.home node ++ [StoreMarker.fileName]) = some file := at?_replace_self entry _ _
  have legal' := legal.of_join (site.spells_entry member) plain_marker
  have shortEntry : ∀ name ∈ site.rest ++ [entryName node], ¬ nameLimit < name.utf8ByteSize :=
    fun name present => short name (List.mem_append_left _ present)
  have before : disk.node true (store.entryPath node) = .ok (.folder entries) :=
    node_of_present holds (site.spells_entry member) legal' (site.plain_entry member) shortEntry
      (direct_entry holds (by simp [entry])) entry
  have after : (disk.put (site.home node ++ [StoreMarker.fileName]) file).node true (store.entryPath node) =
      .ok (.folder (Dict.insert entries StoreMarker.fileName file)) :=
    node_of_present holds' (site.spells_entry member) legal' (site.plain_entry member) shortEntry
      (direct_entry holds' (by simp [entry'])) entry'
  have unlinked : site.Unlinked (disk.put (site.home node ++ [StoreMarker.fileName]) file).root node :=
    ⟨by simp [entry'], fun target => by rw [marker', content]; simp⟩
  have written : (disk.put (site.home node ++ [StoreMarker.fileName]) file).node true
      (Path.join (store.entryPath node) StoreMarker.fileName) = .ok file := by
    refine node_of_present holds' (site.spells_part member plain_marker) legal (site.plain_route member plain_marker) short
      (direct_marker holds' unlinked) ?_
    rw [route, ← List.append_assoc]
    exact marker'
  refine ⟨accepts_iff.mpr ⟨markerFor node hash, ?_, rfl, ?_⟩, folderAt_iff.mpr ⟨_, entry'⟩, _, _,
    marker'.trans (congrArg some content)⟩
  · have text : (disk.put (site.home node ++ [StoreMarker.fileName]) file).readText
        (Path.join (store.entryPath node) StoreMarker.fileName) = .ok (markerFor node hash).fileText := by
      simp only [readText, Disk.read, written, bind, Except.bind]
      subst content
      simp [Bytes.toText?_ofText]
    simp [readMarker, leadsToNode, written, Except.toBool, text, StoreMarker.ofText?_fileText]
  · unfold Disk.treeHash at hashed ⊢
    rw [before] at hashed
    rw [after]
    have same : TreeHash.ofNode exclusions (.folder (Dict.insert entries StoreMarker.fileName file)) =
        TreeHash.ofNode exclusions (.folder entries) := TreeHash.ofNode_insert (by decide) entries file
    have told : (markerFor node hash).outputHash = hash := rfl
    simpa [same, told] using hashed

/-- To write the marker of an entry that is a folder is to complete it. -/
private theorem write_marker_cases (holds : site.Holds disk.root) (member : node ∈ nodes) (unlinked : site.Unlinked disk.root node)
    (content : Bytes) :
    (∃ error, disk.write (Path.join (store.entryPath node) StoreMarker.fileName) content = .error error) ∨
      ∃ traits, disk.write (Path.join (store.entryPath node) StoreMarker.fileName) content =
          .ok (disk.put (site.home node ++ [StoreMarker.fileName]) (.file content traits)) ∧
        Legal (Path.join (store.entryPath node) StoreMarker.fileName) ∧ FolderAt disk.root (site.home node) ∧
        ∀ name ∈ site.route node StoreMarker.fileName, ¬ nameLimit < name.utf8ByteSize := by
  have direct : Direct disk.root site.base true (site.route node StoreMarker.fileName) := direct_marker holds unlinked
  have descent := holds.descent (site.spells_part member plain_marker) (by simp [route])
    (site.plain_route member plain_marker) direct
  have place : site.base ++ site.route node StoreMarker.fileName = site.home node ++ [StoreMarker.fileName] := by
    simp [route, home]
  unfold Disk.write
  cases led : disk.target true (Path.join (store.entryPath node) StoreMarker.fileName) with
  | error error => exact Or.inl ⟨error, rfl⟩
  | ok target =>
    have legal : Legal (Path.join (store.entryPath node) StoreMarker.fileName) := by
      by_contra spoilt
      obtain ⟨error, _, refused⟩ := target_of_not_legal spoilt (site.spells_part member plain_marker).nonempty
      rw [refused] at led
      cases led
    rw [led] at descent
    cases descent with
    | found present short =>
      rw [place] at present ⊢
      simp only [bind, Except.bind]
      split
      next bytes traits file => exact Or.inr ⟨traits, rfl, legal, .of_present present, short⟩
      next => exact Or.inl ⟨_, rfl⟩
    | @vacant before last split folder absent short =>
      obtain ⟨rfl, last⟩ := List.append_inj' split rfl
      cases last
      exact Or.inr ⟨_, rfl, legal, folder, short⟩

/-- To complete an entry is to take away its scratch folders and to write its marker, or to
    leave that as it is. -/
theorem committed (holds : site.Holds disk.root) (member : node ∈ nodes) (unlinked : site.Unlinked disk.root node) :
    site.Committed node disk (commit disk node (store.outputsFor node)) := by
  obtain ⟨cleared, gone⟩ := clears holds member (fun part aside => (plain_scratch part aside).1) unlinked.entry
  have entry : (store.outputsFor node).storePath = store.entryPath node := rfl
  have shape : clearScratch disk (store.entryPath node) = clearing store node scratch disk := rfl
  unfold commit
  dsimp only
  rw [entry, shape]
  generalize clearing store node scratch disk = between at cleared gone
  have holds' := cleared.works.holds member holds
  have marker := cleared.others StoreMarker.fileName (by decide) []
  have unlinked' : site.Unlinked between.root node := unlinked.alike cleared.shown marker
  have others (part : String) (apart : part ∉ exclusions) (below : Place) :
      between.root.at? (site.home node ++ part :: below) = disk.root.at? (site.home node ++ part :: below) :=
    cleared.others part (fun aside => apart (List.mem_cons_of_mem _ aside)) below
  have stops (error : BuildError) : site.Committed node disk (between, .error error) :=
    ⟨cleared.works, cleared.shown, others, unlinked', fun _ _ unmarked => unmarked.alike cleared.shown marker,
      fun absurd => (by cases absurd), gone⟩
  split
  next error failed => exact stops _
  next hash hashed =>
    rcases write_marker_cases holds' member unlinked' (Bytes.ofText (markerFor node hash).fileText) with
      ⟨error, failed⟩ | ⟨traits, written, legal, folder, short⟩
    · rw [failed]
      exact stops _
    · rw [written]
      have complete := sealed_marker traits holds' member hashed legal folder short
      refine ⟨cleared.works.tail (.entry _ _), (seen?_replace_part _ [] _).trans cleared.shown, ?_, complete.unlinked,
        fun _ absurd => (by cases absurd), fun _ => complete, ?_⟩
      · intro part apart below
        exact (at?_replace_part (fun same => apart (by simp [← same, exclusions])) [] below _).trans (others part apart below)
      · intro before part after split removed
        have aside : part ∈ scratch := by simp [split]
        exact (at?_replace_part (plain_scratch part aside).2.symm [] [] _).trans (gone before part after split removed)

end Site
end Store
end Pkgset

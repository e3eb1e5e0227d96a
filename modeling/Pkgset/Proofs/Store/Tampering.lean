import Pkgset.Proofs.Files.Listing
import Pkgset.Proofs.Store.Deeds

/-!
# What becomes of changed entries

Once an entry is completed, its marker stays as it is until the entry is prepared or
completed again. So its outputs are found as long as its tree has the hash that the marker
holds, which covers every place without an excluded name. A change below an output is
detected there, and overlooked wherever the name of the marker or of a scratch folder is
on the way.
-/

namespace Pkgset
open Disk Node Pkgset.Path

/-- The last component of a joined path is what was joined. -/
theorem Path.fileName?_join (base : String) {part : String} (plain : Plain part) : fileName? (join base part) = some part := by
  obtain ⟨lead, _, shape⟩ := components_eq (join base part)
  rw [(spells_join base plain).way_eq, ← List.append_assoc] at shape
  rw [fileName?, shape, List.getLast?_concat]
  simp [plain.moves, plain.descends]

/-- It neither prepares nor completes the entry of a derivation. -/
def Deed.Leaves (node : Derivation) : Deed → Prop
  | .prepare other | .commit other => other ≠ node
  | .alter .. => True

namespace Store
variable {store : Store} {nodes : List Derivation} {start disk later : Disk} {node : Derivation} {deed : Deed}
  {entry entry' : Node}

/-- The hash of an entry leaves out the excluded names, if the entry itself has none of them. -/
theorem treeHash_entry (named : entryName node ∉ exclusions) (plain : Plain (entryName node))
    (leads : disk.node true (store.entryPath node) = .ok entry) :
    disk.treeHash (store.entryPath node) exclusions = .ok (TreeHash.ofNode exclusions entry) := by
  have name : fileName? (store.entryPath node) = some (entryName node) := fileName?_join store.root plain
  rw [treeHash, leads, name]
  simp [named]

namespace Site
variable {site : store.Site nodes}

/-- Where the path of an entry leads somewhere, it leads to the entry in other files too. -/
theorem node_entry_of_present (tidy : site.Tidy disk) (member : node ∈ nodes)
    (leads : disk.node true (store.entryPath node) = .ok entry) (tidy' : site.Tidy later)
    (present : later.root.at? (site.home node) = some entry') : later.node true (store.entryPath node) = .ok entry' := by
  have spells := site.spells_entry member
  have descent := tidy.descent member
  have legal : Legal (store.entryPath node) := by
    by_contra spoilt
    obtain ⟨error, _, refused⟩ := target_of_not_legal spoilt spells.nonempty
    simp [Disk.node, Disk.place, refused, bind, Except.bind] at leads
  unfold Disk.node Disk.place at leads
  generalize disk.target true (store.entryPath node) = target at descent leads
  cases descent with
  | found _ short =>
    exact node_of_present tidy'.holds spells legal (site.plain_entry member) short
      (direct_entry tidy'.holds (tidy'.unlinked node member).entry) present
  | vacant => cases leads
  | missing => cases leads
  | refused => cases leads

/-! ### The marker stays -/

/-- A deed that neither prepares nor completes an entry leaves its marker as it is. -/
theorem act_leaves (tidy : site.Tidy disk) (member : node ∈ nodes) (among : deed.Among nodes) (leaves : deed.Leaves node) :
    (store.act disk deed).root.seen? (site.home node) = disk.root.seen? (site.home node) ∧
      (store.act disk deed).root.at? (site.home node ++ [StoreMarker.fileName]) =
        disk.root.at? (site.home node ++ [StoreMarker.fileName]) := by
  by_cases own : deed.node = node
  · cases deed with
    | prepare other => exact absurd own leaves
    | commit other => exact absurd own leaves
    | alter other output below content =>
      obtain rfl : other = node := own
      rcases act_alter tidy member output below content with same | changed
      · rw [same]
        exact ⟨rfl, rfl⟩
      · rw [changed]
        exact ⟨seen?_replace_part output below content, at?_replace_part (site.output_ne member among.2) below [] content⟩
  · have same := (works_act tidy among).1.at?_eq among.member member own
    exact ⟨seen?_home same, same _⟩

theorem acts_leaves {deeds : List Deed} (tidy : site.Tidy disk) (member : node ∈ nodes)
    (among : ∀ deed ∈ deeds, deed.Among nodes) (leaves : ∀ deed ∈ deeds, deed.Leaves node) :
    (store.acts disk deeds).root.seen? (site.home node) = disk.root.seen? (site.home node) ∧
      (store.acts disk deeds).root.at? (site.home node ++ [StoreMarker.fileName]) =
        disk.root.at? (site.home node ++ [StoreMarker.fileName]) := by
  induction deeds generalizing disk with
  | nil => exact ⟨rfl, rfl⟩
  | cons deed deeds ih =>
    have first := among deed List.mem_cons_self
    obtain ⟨shown, marker⟩ := act_leaves tidy member first (leaves deed List.mem_cons_self)
    obtain ⟨shown', marker'⟩ := ih (tidy.act first) (fun other more => among other (List.mem_cons_of_mem _ more))
      fun other more => leaves other (List.mem_cons_of_mem _ more)
    exact ⟨shown'.trans shown, marker'.trans marker⟩

end Site

/-- An entry that was completed is a folder, and it stays one as long as it is neither prepared
    nor completed again. As long as its tree has the hash that it had, its outputs are found. -/
theorem Clean.found_iff (clean : store.Clean nodes start) {earlier after : List Deed}
    (among : ∀ deed ∈ earlier ++ after, deed.Among nodes) (member : node ∈ nodes) (came : store.acts start earlier = disk)
    (named : entryName node ∉ exclusions) (complete : (Store.commit disk node (store.outputsFor node)).2 = .ok ())
    (leaves : ∀ deed ∈ after, deed.Leaves node) :
    ∃ entries entries', (store.act disk (.commit node)).node true (store.entryPath node) = .ok (.folder entries) ∧
      (store.acts (store.act disk (.commit node)) after).node true (store.entryPath node) = .ok (.folder entries') ∧
      (store.Accepts (store.acts (store.act disk (.commit node)) after) node ↔
        TreeHash.ofNode exclusions (.folder entries') = TreeHash.ofNode exclusions (.folder entries)) := by
  have before : ∀ deed ∈ earlier, deed.Among nodes := fun deed present => among deed (List.mem_append_left _ present)
  have following : ∀ deed ∈ after, deed.Among nodes := fun deed present => among deed (List.mem_append_right _ present)
  rcases clean.cases with ⟨site, tidy⟩ | blocked
  · have tidy : site.Tidy disk := came ▸ tidy.acts before
    have done : site.Tidy (store.act disk (.commit node)) := tidy.act member
    have last : site.Tidy (store.acts (store.act disk (.commit node)) after) := done.acts following
    have sound : site.Sealed (store.act disk (.commit node)) node :=
      (Site.committed tidy.holds member (tidy.unlinked node member)).sound complete
    obtain ⟨shown, kept⟩ := Site.acts_leaves done member following leaves
    obtain ⟨entries, here⟩ := folderAt_iff.mp sound.entry
    obtain ⟨entries', here'⟩ := folderAt_iff.mp (shown.trans sound.entry)
    obtain ⟨entry, leads⟩ := sound.accepted.exists_entry
    obtain rfl : entry = .folder entries := Option.some.inj ((Site.at?_of_node done member leads).symm.trans here)
    have leads' := Site.node_entry_of_present done member leads last here'
    have plain := site.proper.names node member
    refine ⟨entries, entries', leads, leads', ?_⟩
    -- the marker is read as before, so the hash decides
    obtain ⟨marker, read, own, hashed⟩ := accepts_iff.mp sound.accepted
    have read' := (Site.readMarker_congr done.holds last.holds member (done.unlinked node member) (by simp [here]) shown
      kept).trans read
    rw [treeHash_entry named plain leads, Except.ok.injEq] at hashed
    rw [accepts_iff, treeHash_entry named plain leads', hashed]
    constructor
    · rintro ⟨marker', told, _, hashed'⟩
      cases told.symm.trans read'
      exact Except.ok.inj hashed'
    · intro same
      exact ⟨marker, read', own, congrArg Except.ok same⟩
  · obtain rfl : start = disk := (acts_of_blocked blocked clean.proper before).symm.trans came
    obtain ⟨_, _, error, failed⟩ := act_of_blocked blocked clean.proper (show (Deed.commit node).Among nodes from member)
    cases failed.symm.trans complete

/-- Where SHA-256 does not collide, a completed entry that is neither prepared nor completed
    again is lost exactly when, at a place without an excluded name, something was added, taken
    away or renamed, or the content of a file or the target of a link was changed. -/
theorem Clean.detects (clean : store.Clean nodes start) {earlier after : List Deed}
    (among : ∀ deed ∈ earlier ++ after, deed.Among nodes) (member : node ∈ nodes) (came : store.acts start earlier = disk)
    (named : entryName node ∉ exclusions) (complete : (Store.commit disk node (store.outputsFor node)).2 = .ok ())
    (leaves : ∀ deed ∈ after, deed.Leaves node) :
    ∃ entry entry', (store.act disk (.commit node)).node true (store.entryPath node) = .ok entry ∧
      (store.acts (store.act disk (.commit node)) after).node true (store.entryPath node) = .ok entry' ∧
      (entry.Legible exclusions → entry'.Legible exclusions → TreeHash.Apart exclusions entry' entry →
        (store.lookup (store.acts (store.act disk (.commit node)) after) node = none ↔
          ∃ place, Open exclusions place ∧ entry'.face? place ≠ entry.face? place)) := by
  obtain ⟨entries, entries', leads, leads', accepts⟩ := clean.found_iff among member came named complete leaves
  refine ⟨_, _, leads, leads', fun legible legible' apart => ?_⟩
  have hashes := TreeHash.ofNode_eq_iff legible' legible apart
  constructor
  · intro lost
    have refused : ¬ store.Accepts (store.acts (store.act disk (.commit node)) after) node := by simp [Accepts, lost]
    rw [accepts, hashes] at refused
    push Not at refused
    exact refused
  · rintro ⟨place, opened, changed⟩
    refine lookup_of_not_accepts fun found => changed ?_
    exact hashes.mp (accepts.mp found) place opened

end Store

namespace Errand
open Store

/-- What the completed entry of `lib` holds, with something in its output. -/
def filled (content : Bytes) (output : Dict Node) : Dict Node :=
  [(StoreMarker.fileName, .file content .ordinary), ("out", .folder output)]

/-- `lib` is prepared and completed. -/
def finished : List Deed := [.prepare lib, .commit lib]

/-- Something is put into the output of `lib`. -/
def fills (name : String) (found : Node) : Deed := .alter lib "out" [name] (some found)

theorem among_lib (name : String) (found : Node) : ∀ deed ∈ [.prepare lib] ++ [fills name found], deed.Among [lib] := by
  have declared : "out" ∈ lib.outputs := List.mem_singleton_self _
  simp [fills, Deed.Among, declared]

theorem spelled_lib : Store.entryPath ⟨"/"⟩ lib = "/a1-lib" ∧ entryName lib ∉ exclusions ∧
    Store.outputsFor ⟨"/"⟩ lib = place := by decide +kernel

theorem committed_lib : ∃ content,
    Store.commit (Store.acts ⟨"/"⟩ (ground none) [.prepare lib]) lib (Store.outputsFor ⟨"/"⟩ lib) =
      (ground (some (filled content [])), .ok ()) := by
  have prepared : Store.acts ⟨"/"⟩ (ground none) [.prepare lib] = _ := congrArg Prod.fst prepare_ground
  rw [prepared, spelled_lib.2.2]
  exact commit_sealed

theorem node_ground (parts : Dict Node) : (ground (some parts)).node true (Store.entryPath ⟨"/"⟩ lib) = .ok (.folder parts) := by
  rw [spelled_lib.1, Disk.node, Disk.place, target_holding]
  simp [bind, Except.bind, ground, Node.at?, Dict.get?]

theorem act_fills (content : Bytes) (name : String) (found : Node) :
    Store.act ⟨"/"⟩ (ground (some (filled content []))) (fills name found) = ground (some (filled content [(name, found)])) := by
  simp only [Store.act, fills, spelled_lib.1, target_holding]
  rfl

/-- The entry of `lib` is completed, and then something is put into its output. -/
theorem acts_fills (name : String) (found : Node) : ∃ content,
    Store.acts ⟨"/"⟩ (ground none) finished = ground (some (filled content [])) ∧
      Store.acts ⟨"/"⟩ (ground none) (finished ++ [fills name found]) = ground (some (filled content [(name, found)])) := by
  obtain ⟨content, committed⟩ := committed_lib
  have done : Store.acts ⟨"/"⟩ (ground none) finished = ground (some (filled content [])) := congrArg Prod.fst committed
  refine ⟨content, done, ?_⟩
  rw [acts_append, done]
  exact act_fills content name found

theorem completes_lib :
    (Store.commit (Store.acts ⟨"/"⟩ (ground none) [.prepare lib]) lib (Store.outputsFor ⟨"/"⟩ lib)).2 = .ok () := by
  obtain ⟨content, committed⟩ := committed_lib
  exact congrArg Prod.snd committed

/-- The one name in the entry that is not excluded is that of the output. -/
theorem get?_filled {content : Bytes} {output : Dict Node} {name : String} {child : Node}
    (held : Dict.get? (filled content output) name = some child) (shown : name ∉ exclusions) :
    name = "out" ∧ child = .folder output := by
  have other : name ≠ StoreMarker.fileName := by
    rintro rfl
    exact shown List.mem_cons_self
  by_cases out : name = "out"
  · subst out
    exact ⟨rfl, (Option.some.inj held).symm⟩
  · simp [filled, Dict.get?, other, out] at held

theorem legible_filled (content : Bytes) {output : Dict Node} (legible : (Node.folder output).Legible exclusions) :
    (Node.folder (filled content output)).Legible exclusions := by
  have ascends : [StoreMarker.fileName, "out"].Pairwise (· < ·) := by decide
  refine .folder ascends fun name child held shown => ?_
  obtain ⟨rfl, rfl⟩ := get?_filled held shown
  exact ⟨⟨by decide, by decide, by decide⟩, legible⟩

theorem legible_empty : Node.empty.Legible exclusions := .folder .nil fun name child held => by cases held

theorem legible_log : (Node.folder [("log", .empty)]).Legible exclusions := by
  refine .folder (List.pairwise_singleton _ _) fun name child held _ => ?_
  obtain ⟨same, there⟩ := List.mem_singleton.mp (Dict.mem_of_get? held) |> Prod.mk.inj
  subst same
  exact ⟨⟨by decide, by decide, by decide⟩, there ▸ legible_empty⟩

/-- The lines of the two entries have different hashes, and neither entry shows a file or a link. -/
theorem apart_filled (content : Bytes) :
    TreeHash.Apart exclusions (.folder (filled content [("log", .empty)])) (.folder (filled content [])) := by
  refine ⟨?_, fun place found found' opened there there' => ?_⟩
  · have lines : TreeHash.rootLines exclusions (.folder (filled content [("log", .empty)])) = ["D:out", "D:out/log"] := rfl
    have lines' : TreeHash.rootLines exclusions (.folder (filled content [])) = ["D:out"] := rfl
    rw [lines, lines', Sha256.Apart]
    decide +kernel
  · match place with
    | [] =>
      cases there
      cases there'
      exact fun _ => rfl
    | name :: rest =>
      obtain ⟨child, held, there⟩ := at?_cons.mp there
      obtain ⟨child', held', there'⟩ := at?_cons.mp there'
      have shown := (open_cons.mp opened).1
      obtain ⟨_, rfl⟩ := get?_filled held shown
      obtain ⟨_, rfl⟩ := get?_filled held' shown
      cases rest with
      | nil =>
        cases there
        cases there'
        exact fun _ => rfl
      | cons second rest => simp [at?, Dict.get?] at there'

end Errand

open Errand in
/-- A folder that was put into the output of `lib` is detected. -/
theorem Store.Clean.detects_errand :
    Store.lookup ⟨"/"⟩ (Store.acts ⟨"/"⟩ (ground none) (finished ++ [fills "log" .empty])) lib = none := by
  have clean : Store.Clean ⟨"/"⟩ [lib] (ground none) := clean_ground (by simp)
  obtain ⟨content, done, last⟩ := acts_fills "log" .empty
  obtain ⟨entry, entry', leads, leads', decides⟩ := Store.Clean.detects clean (among_lib "log" .empty)
    (List.mem_singleton_self lib) rfl spelled_lib.2.1 completes_lib (by simp [fills, Deed.Leaves])
  cases leads.symm.trans (done ▸ node_ground _)
  cases leads'.symm.trans (last ▸ node_ground _)
  refine (decides (legible_filled content legible_empty) (legible_filled content legible_log) (apart_filled content)).mpr ?_
  exact ⟨["out", "log"], by unfold Open; decide, by simp [face?, filled, at?, Dict.get?, StoreMarker.fileName, Node.empty]⟩

open Errand in
/-- A file below an output of `lib` is overlooked if it is put into a folder that is named like
    a scratch folder: the lines of the entry stay the same. -/
theorem Store.overlooks_scratch_name : ∃ entry entry' after,
    Store.acts ⟨"/"⟩ (ground none) (finished ++ [fills ".tmp" (.folder [("a", .file [1] .ordinary)])]) = after ∧
    (Store.acts ⟨"/"⟩ (ground none) finished).node true "/a1-lib" = .ok entry ∧ after.node true "/a1-lib" = .ok entry' ∧
    entry.at? ["out", ".tmp"] = none ∧ entry'.at? ["out", ".tmp", "a"] = some (.file [1] .ordinary) ∧
    TreeHash.rootLines exclusions entry' = TreeHash.rootLines exclusions entry ∧
    Store.lookup ⟨"/"⟩ after lib = some Errand.place := by
  have clean : Store.Clean ⟨"/"⟩ [lib] (ground none) := clean_ground (by simp)
  obtain ⟨content, done, last⟩ := acts_fills ".tmp" (.folder [("a", .file [1] .ordinary)])
  obtain ⟨entries, entries', leads, leads', accepts⟩ := clean.found_iff
    (among_lib ".tmp" (.folder [("a", .file [1] .ordinary)])) (List.mem_singleton_self lib) rfl spelled_lib.2.1 completes_lib
    (by simp [fills, Deed.Leaves])
  cases leads.symm.trans (done ▸ node_ground _)
  cases leads'.symm.trans (last ▸ node_ground _)
  rw [spelled_lib.1] at leads leads'
  have same : TreeHash.rootLines exclusions (.folder (filled content [(".tmp", .folder [("a", .file [1] .ordinary)])])) =
      TreeHash.rootLines exclusions (.folder (filled content [])) := rfl
  refine ⟨_, _, _, rfl, leads, leads', rfl, rfl, same, ?_⟩
  rw [← spelled_lib.2.2]
  exact lookup_of_accepts (accepts.mpr (by rw [TreeHash.ofNode, same, TreeHash.ofNode]))

end Pkgset

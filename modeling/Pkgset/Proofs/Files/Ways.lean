import Pkgset.Proofs.Files.Spelling
import Pkgset.Proofs.Files.Tree

/-!
# Where paths lead

A path goes through folders and links, one name after another. Where it leads depends only
on what shows at the places on its way: what others change elsewhere, and folders that are
made where nothing was, do not turn it aside.
-/

namespace Pkgset.Disk
open Node Pkgset.Path

variable {root other : Node} {follow : Bool} {links links' : Nat} {here place : Place} {name : String} {rest : List String}

/-! ### One step -/

/-- There is a folder at a place. -/
def FolderAt (root : Node) (place : Place) : Prop := root.seen? place = some .empty

theorem folderAt_iff : FolderAt root place ↔ ∃ entries, root.at? place = some (.folder entries) := seen?_eq_empty

/-- What is below a place is in a folder. -/
theorem FolderAt.of_present (present : root.at? (place ++ [name]) ≠ none) : FolderAt root place :=
  folderAt_iff.mpr (exists_folder present)

theorem FolderAt.of_present_below {below : Place} (present : root.at? (place ++ below) ≠ none) (deeper : below ≠ []) :
    FolderAt root place := by
  obtain ⟨name, rest, rfl⟩ := List.exists_cons_of_ne_nil deeper
  refine .of_present fun absent : root.at? (place ++ [name]) = none => present ?_
  simpa using at?_append_of_none absent rest

theorem walk_nil : walk root follow links here [] = .ok (.found here) := by rw [walk]

theorem walk_of_not_folder (closed : ¬ FolderAt root here) : walk root follow links here (name :: rest) = .error .notFolder := by
  rw [walk]
  split
  next entries folder => exact absurd (folderAt_iff.mpr ⟨entries, folder⟩) closed
  next => rfl

theorem walk_point (folder : FolderAt root here) :
    walk root follow links here ("." :: rest) = walk root follow links here rest := by
  obtain ⟨entries, folder⟩ := folderAt_iff.mp folder
  rw [walk]
  simp [folder]

theorem walk_up (folder : FolderAt root here) :
    walk root follow links here (".." :: rest) = walk root follow links here.dropLast rest := by
  obtain ⟨entries, folder⟩ := folderAt_iff.mp folder
  rw [walk]
  simp [folder]

theorem walk_long (folder : FolderAt root here) (moves : name ≠ ".") (descends : name ≠ "..")
    (long : nameLimit < name.utf8ByteSize) : walk root follow links here (name :: rest) = .error .nameTooLong := by
  obtain ⟨entries, folder⟩ := folderAt_iff.mp folder
  rw [walk]
  simp [folder, moves, descends, long]

/-- The step to a name goes by what shows there. -/
theorem walk_step (folder : FolderAt root here) (moves : name ≠ ".") (descends : name ≠ "..")
    (short : ¬ nameLimit < name.utf8ByteSize) :
    walk root follow links here (name :: rest) =
      match root.seen? (here ++ [name]) with
      | none => if rest.isEmpty then .ok (.vacant here name) else .error .notFound
      | some (.link target) =>
        if rest.isEmpty && !follow then .ok (.found (here ++ [name]))
        else match links with
          | 0 => .error .tooManyLinks
          | links + 1 => walk root follow links (if isAbsolute target then [] else here) (steps target ++ rest)
      | some _ => walk root follow links (here ++ [name]) rest := by
  obtain ⟨entries, folder⟩ := folderAt_iff.mp folder
  rw [walk, seen?, at?_concat folder]
  simp only [folder, moves, descends, short, ↓reduceIte]
  cases Dict.get? entries name with
  | none => rfl
  | some found => cases found <;> rfl

/-- What a name may be at a place: without a folder there it leads nowhere, and in a folder
    it is a point, a step upwards, too long, or the name of something there. -/
inductive StepKind (root : Node) (here : Place) : String → Prop where
  | closed {name : String} (closed : ¬ FolderAt root here) : StepKind root here name
  | point (folder : FolderAt root here) : StepKind root here "."
  | up (folder : FolderAt root here) : StepKind root here ".."
  | long {name : String} (folder : FolderAt root here) (moves : name ≠ ".") (descends : name ≠ "..")
      (long : nameLimit < name.utf8ByteSize) : StepKind root here name
  | step {name : String} (folder : FolderAt root here) (moves : name ≠ ".") (descends : name ≠ "..")
      (short : ¬ nameLimit < name.utf8ByteSize) : StepKind root here name

theorem stepKind (root : Node) (here : Place) (name : String) : StepKind root here name := by
  by_cases folder : FolderAt root here
  · by_cases point : name = "."
    · exact point ▸ .point folder
    · by_cases up : name = ".."
      · exact up ▸ .up folder
      · by_cases long : nameLimit < name.utf8ByteSize
        · exact .long folder point up long
        · exact .step folder point up long
  · exact .closed folder

/-! ### Points on the way -/

/-- Points before the last name change nothing. -/
theorem walk_points (names : List String) {last : List String} (more : last ≠ []) :
    walk root follow links here (names ++ last) = walk root follow links here (names.filter (· ≠ ".") ++ last) := by
  induction links using Nat.strongRecOn generalizing here names with
  | ind links outer =>
    induction names generalizing here with
    | nil => rfl
    | cons name names ih =>
      cases stepKind root here name with
      | closed closed =>
        obtain ⟨first, others, shape⟩ := List.exists_cons_of_ne_nil
          (List.append_ne_nil_of_right_ne_nil ((name :: names).filter (· ≠ ".")) more)
        rw [shape, List.cons_append, walk_of_not_folder closed, walk_of_not_folder closed]
      | point folder =>
        rw [List.cons_append, walk_point folder, ih]
        rfl
      | up folder =>
        rw [List.filter_cons_of_pos (by simp), List.cons_append, List.cons_append, walk_up folder, walk_up folder, ih]
      | long folder moves descends long =>
        rw [List.filter_cons_of_pos (by simpa using moves), List.cons_append, List.cons_append,
          walk_long folder moves descends long, walk_long folder moves descends long]
      | step folder moves descends short =>
        rw [List.filter_cons_of_pos (by simpa using moves), List.cons_append, List.cons_append,
          walk_step folder moves descends short, walk_step folder moves descends short, ih]
        have filled (names : List String) : (names ++ last).isEmpty = false := by simp [more]
        simp only [filled, Bool.false_and, Bool.false_eq_true, ↓reduceIte]
        split
        · rfl
        · split
          · rfl
          next target links' =>
            -- the target of a link may have points of its own, and there is one link less
            have less : links' < links' + 1 := Nat.lt_succ_self links'
            rw [← List.append_assoc, ← List.append_assoc, outer links' less, outer links' less (_ ++ List.filter _ _)]
            simp [List.filter_append]
        · rfl

/-- The text of a path is not refused. -/
def Legal (path : String) : Prop := path.any (· = '\x00') = false ∧ ¬ pathLimit < path.utf8ByteSize

/-- A legal path leads where its names do. -/
theorem target_of_legal {disk : Disk} {path : String} {names : List String} (spells : Spells path names)
    (legal : Legal path) (follow : Bool) :
    disk.target follow path = walk disk.root follow linkLimit [] names := by
  have unended : steps path = Path.names path := by
    rw [steps, spells.unended]
    simp [Path.names]
  obtain ⟨before, last, shape, moves, rfl⟩ := spells.spelled
  unfold target
  simp only [spells.nonempty, unended, shape, legal.1, legal.2, Bool.false_eq_true, ↓reduceIte]
  exact walk_points before (by simp)

theorem target_of_not_legal {path : String} (spoilt : ¬ Legal path) (filled : path.isEmpty = false) :
    ∃ error, error ≠ .notFound ∧ ∀ (disk : Disk) follow, disk.target follow path = .error error := by
  unfold target
  rw [filled]
  split
  · exact ⟨_, by simp, fun _ _ => rfl⟩
  next clean =>
    have long : pathLimit < path.utf8ByteSize := by
      by_contra short
      exact spoilt ⟨by simpa using clean, short⟩
    simp only [Bool.false_eq_true, ↓reduceIte, long]
    exact ⟨_, by simp, fun _ _ => rfl⟩

/-- A path leads where its names do, or its text is refused, in all trees alike. -/
theorem target_cases {path : String} {names : List String} (spells : Spells path names) :
    (∀ (disk : Disk) follow, disk.target follow path = walk disk.root follow linkLimit [] names) ∨
      ∃ error, error ≠ .notFound ∧ ∀ (disk : Disk) follow, disk.target follow path = .error error := by
  by_cases legal : Legal path
  · exact Or.inl fun _ => target_of_legal spells legal
  · exact Or.inr (target_of_not_legal legal spells.nonempty)

/-- What a legal path goes through is legal. -/
theorem Legal.of_join {path name : String} {names : List String} (legal : Legal (join path name))
    (spells : Spells path names) (plain : Plain name) : Legal path := by
  have relative : name.startsWith "/" = false := by
    rw [String.startsWith_string_eq_false_iff]
    rintro ⟨rest, same⟩
    exact plain.whole (by rw [← same]; simp)
  have joined : join path name = path ++ "/" ++ name := by
    have filled : path ≠ "" := by simpa using spells.nonempty
    simp [join, relative, spells.unended, filled]
  rw [joined] at legal
  obtain ⟨clean, short⟩ := legal
  constructor
  · simp only [String.any, String.contains_prop_eq, String.toList_append, List.any_append, Bool.or_eq_false_iff] at clean ⊢
    exact clean.1.1
  · rw [String.utf8ByteSize_append, String.utf8ByteSize_append] at short
    omega

/-! ### Ways -/

/-- Names lead from a place to a place, and so many links may be gone through after that. -/
inductive Leads (root : Node) : Nat → Place → List String → Nat → Place → Prop where
  | stay {links : Nat} {here : Place} : Leads root links here [] links here
  | point {links links' : Nat} {here place : Place} {rest : List String} (folder : FolderAt root here)
      (onwards : Leads root links here rest links' place) : Leads root links here ("." :: rest) links' place
  | up {links links' : Nat} {here place : Place} {rest : List String} (folder : FolderAt root here)
      (onwards : Leads root links here.dropLast rest links' place) : Leads root links here (".." :: rest) links' place
  | enter {links links' : Nat} {here place : Place} {name : String} {rest : List String} {found : Node}
      (folder : FolderAt root here) (moves : name ≠ ".") (descends : name ≠ "..")
      (short : ¬ nameLimit < name.utf8ByteSize) (shown : root.seen? (here ++ [name]) = some found)
      (direct : ∀ target, found ≠ .link target) (onwards : Leads root links (here ++ [name]) rest links' place) :
      Leads root links here (name :: rest) links' place
  | follow {links links' : Nat} {here place : Place} {name target : String} {rest : List String}
      (folder : FolderAt root here) (moves : name ≠ ".") (descends : name ≠ "..")
      (short : ¬ nameLimit < name.utf8ByteSize) (shown : root.seen? (here ++ [name]) = some (.link target))
      (onwards : Leads root links (if isAbsolute target then [] else here) (steps target ++ rest) links' place) :
      Leads root (links + 1) here (name :: rest) links' place

/-- What comes after names that lead somewhere is looked for from there. -/
theorem Leads.walk {names : List String} (leads : Leads root links here names links' place)
    (more : follow = true ∨ rest ≠ []) :
    walk root follow links here (names ++ rest) = Disk.walk root follow links' place rest := by
  induction leads with
  | stay => rfl
  | point folder onwards ih => rw [List.cons_append, walk_point folder, ih]
  | up folder onwards ih => rw [List.cons_append, walk_up folder, ih]
  | @enter links links' here place name names found folder moves descends short shown direct onwards ih =>
    rw [List.cons_append, walk_step folder moves descends short, shown]
    cases found with
    | link target => exact absurd rfl (direct target)
    | file bytes traits => exact ih
    | folder entries => exact ih
  | @follow links links' here place name target names folder moves descends short shown onwards ih =>
    rw [List.cons_append, walk_step folder moves descends short, shown]
    have onward : ((names ++ rest).isEmpty && !follow) = false := by
      rcases more with rfl | filled
      · simp
      · simp [filled]
    simp only [onward, Bool.false_eq_true, ↓reduceIte]
    rw [← List.append_assoc, ih]

/-- Names lead the same way where more shows. -/
theorem Leads.mono {names : List String} (leads : Leads root links here names links' place) (within : root.Within other) :
    Leads other links here names links' place := by
  induction leads with
  | stay => exact .stay
  | point folder onwards ih => exact .point (within _ _ folder) ih
  | up folder onwards ih => exact .up (within _ _ folder) ih
  | enter folder moves descends short shown direct onwards ih =>
    exact .enter (within _ _ folder) moves descends short (within _ _ shown) direct ih
  | follow folder moves descends short shown onwards ih =>
    exact .follow (within _ _ folder) moves descends short (within _ _ shown) ih

/-- A path that is gone through leads somewhere with the names before its last ones, and
    with all of them if it is found. -/
theorem leads_of_walk {names : List String} {target : Target}
    (walks : walk root follow links here (names ++ rest) = .ok target)
    (more : rest ≠ [] ∨ follow = true ∧ ∃ place, target = .found place) :
    ∃ links' place, Leads root links here names links' place := by
  induction links using Nat.strongRecOn generalizing here names with
  | ind links outer =>
    induction names generalizing here with
    | nil => exact ⟨links, here, .stay⟩
    | cons name names ih =>
      rw [List.cons_append] at walks
      cases stepKind root here name with
      | closed closed =>
        rw [walk_of_not_folder closed] at walks
        cases walks
      | point folder =>
        rw [walk_point folder] at walks
        obtain ⟨links', place, leads⟩ := ih walks
        exact ⟨links', place, .point folder leads⟩
      | up folder =>
        rw [walk_up folder] at walks
        obtain ⟨links', place, leads⟩ := ih walks
        exact ⟨links', place, .up folder leads⟩
      | long folder moves descends long =>
        rw [walk_long folder moves descends long] at walks
        cases walks
      | step folder moves descends short =>
        rw [walk_step folder moves descends short] at walks
        split at walks
        next absent =>
          split at walks
          next ends =>
            obtain ⟨rfl, rfl⟩ : names = [] ∧ rest = [] := by simpa using ends
            obtain ⟨_, place, rfl⟩ := more.resolve_left (by simp)
            cases walks
          next => cases walks
        next target' shown =>
          have onward : ((names ++ rest).isEmpty && !follow) = false := by
            rcases more with filled | ⟨rfl, _⟩
            · simp [filled]
            · simp
          simp only [onward, Bool.false_eq_true, ↓reduceIte] at walks
          split at walks
          next => cases walks
          next links =>
            rw [← List.append_assoc] at walks
            obtain ⟨links', place, leads⟩ := outer links (Nat.lt_succ_self links) walks
            exact ⟨links', place, .follow folder moves descends short shown leads⟩
        next found direct shown =>
          obtain ⟨links', place, leads⟩ := ih walks
          exact ⟨links', place, .enter folder moves descends short shown direct leads⟩

/-! ### Plain names -/

/-- No link stands on the way by some names; one that is not followed may stand at its end. -/
def Direct (root : Node) (base : Place) (follow : Bool) (names : List String) : Prop :=
  ∀ before after, names = before ++ after → before ≠ [] → (after ≠ [] ∨ follow = true) →
    ∀ target, root.seen? (base ++ before) ≠ some (.link target)

/-- Where plain names lead without links: to what stands there, or to a free name in a
    folder; else a folder is missing before the last name, or the way is refused. -/
inductive Descent (root : Node) (base : Place) (names : List String) : Except FileError Target → Prop where
  | found (present : root.at? (base ++ names) ≠ none) (short : ∀ name ∈ names, ¬ nameLimit < name.utf8ByteSize) :
      Descent root base names (.ok (.found (base ++ names)))
  | vacant {before : List String} {last : String} (split : names = before ++ [last])
      (folder : FolderAt root (base ++ before)) (absent : root.at? (base ++ names) = none)
      (short : ∀ name ∈ names, ¬ nameLimit < name.utf8ByteSize) :
      Descent root base names (.ok (.vacant (base ++ before) last))
  | missing (several : 2 ≤ names.length) (absent : root.at? (base ++ names) = none) :
      Descent root base names (.error .notFound)
  | refused {error : FileError} (other : error ≠ .notFound) : Descent root base names (.error error)

/-- At the places on the way by some names there is a folder or nothing. -/
def Clear (root : Node) (base : Place) (names : List String) : Prop :=
  ∀ before after, names = before ++ after → before ≠ [] →
    root.at? (base ++ before) = none ∨ FolderAt root (base ++ before)

theorem Clear.nil {base : Place} : Clear root base [] := by
  intro before after split filled
  simp_all

theorem Clear.left {base : Place} {names more : List String} (clear : Clear root base (names ++ more)) :
    Clear root base names := by
  rintro before after rfl filled
  exact clear before (after ++ more) (by simp) filled

theorem Clear.concat {base : Place} {names : List String} (clear : Clear root base names)
    (last : root.at? (base ++ (names ++ [name])) = none ∨ FolderAt root (base ++ (names ++ [name]))) :
    Clear root base (names ++ [name]) := by
  intro before after split filled
  rcases List.eq_nil_or_concat after with rfl | ⟨after, final, rfl⟩
  · rw [List.append_nil] at split
    exact split ▸ last
  · rw [List.concat_eq_append, ← List.append_assoc] at split
    exact clear before after (List.append_inj_left' split rfl) filled

theorem Clear.direct {base : Place} {names : List String} (clear : Clear root base names) :
    Direct root base follow names := by
  intro before after split filled _ target shown
  rcases clear before after split filled with absent | folder
  · simp [seen?, absent] at shown
  · rw [folder] at shown
    cases shown

/-- What is not a link, or is not followed, may stand at the end of a direct way. -/
theorem Direct.concat {base : Place} {names : List String} (direct : Direct root base true names)
    (last : follow = true → ∀ target, root.seen? (base ++ (names ++ [name])) ≠ some (.link target)) :
    Direct root base follow (names ++ [name]) := by
  intro before after split filled more
  rcases List.eq_nil_or_concat after with rfl | ⟨after, final, rfl⟩
  · rw [List.append_nil] at split
    exact split ▸ last (more.resolve_left (by simp))
  · rw [List.concat_eq_append, ← List.append_assoc] at split
    exact direct before after (List.append_inj_left' split rfl) filled (Or.inr rfl)

theorem Direct.tail {base : Place} {names : List String} (direct : Direct root base follow (name :: names)) :
    Direct root (base ++ [name]) follow names := by
  rintro before after rfl _ more target
  rw [List.append_assoc]
  exact direct (name :: before) after rfl (by simp) more target

/-- Where no link is followed, the step to a name that is there goes on to it. -/
theorem Direct.walk_step {base : Place} {names : List String} (direct : Direct root base follow (name :: names))
    (folder : FolderAt root base) (plain : Plain name) (short : ¬ nameLimit < name.utf8ByteSize) :
    walk root follow links base (name :: names) =
      if root.at? (base ++ [name]) = none then
        if names.isEmpty then .ok (.vacant base name) else .error .notFound
      else walk root follow links (base ++ [name]) names := by
  rw [Disk.walk_step folder plain.moves plain.descends short]
  cases shown : root.seen? (base ++ [name]) with
  | none => rw [if_pos (seen?_eq_none.mp shown)]
  | some found =>
    have present : root.at? (base ++ [name]) ≠ none := fun absent => by simp [seen?, absent] at shown
    rw [if_neg present]
    cases found with
    | file bytes traits => rfl
    | folder entries => rfl
    | link target =>
      cases names with
      | nil =>
        cases follow with
        | true => exact absurd shown (direct [name] [] rfl (by simp) (Or.inr rfl) target)
        | false => rw [walk_nil]; rfl
      | cons next names => exact absurd shown (direct [name] (next :: names) rfl (by simp) (Or.inl (by simp)) target)

private theorem Descent.cons {base : Place} {names : List String} {result : Except FileError Target}
    (descent : Descent root (base ++ [name]) names result)
    (short : ¬ nameLimit < name.utf8ByteSize) : Descent root base (name :: names) result := by
  have same (names : List String) : base ++ [name] ++ names = base ++ name :: names := by simp
  have all (shorts : ∀ other ∈ names, ¬ nameLimit < other.utf8ByteSize) :
      ∀ other ∈ name :: names, ¬ nameLimit < other.utf8ByteSize := by
    intro other member
    rcases List.mem_cons.mp member with rfl | later
    · exact short
    · exact shorts other later
  cases descent with
  | found present shorts =>
    rw [same] at present ⊢
    exact .found present (all shorts)
  | @vacant before last split folder absent shorts =>
    rw [same] at folder absent ⊢
    exact .vacant (by simp [split]) folder absent (all shorts)
  | missing several absent =>
    rw [same] at absent
    exact .missing (by simp; omega) absent
  | refused other => exact .refused other

theorem descent {base : Place} {names : List String} (folder : FolderAt root base) (filled : names ≠ [])
    (plain : ∀ name ∈ names, Plain name) (direct : Direct root base follow names) :
    Descent root base names (walk root follow links base names) := by
  induction names generalizing base with
  | nil => exact absurd rfl filled
  | cons name names ih =>
    have first := plain name (by simp)
    by_cases long : nameLimit < name.utf8ByteSize
    · rw [walk_long folder first.moves first.descends long]
      exact .refused (by simp)
    rw [direct.walk_step folder first long]
    split
    next absent =>
      cases names with
      | nil =>
        have folder' : FolderAt root (base ++ []) := by rwa [List.append_nil]
        have vacant : Descent root base [name] (.ok (.vacant (base ++ []) name)) :=
          .vacant rfl folder' absent (by simpa using long)
        rwa [List.append_nil] at vacant
      | cons next names =>
        have gone : root.at? (base ++ name :: next :: names) = none := by
          simpa using at?_append_of_none absent (next :: names)
        exact .missing (by simp) gone
    next present =>
      cases names with
      | nil =>
        rw [walk_nil]
        exact .found present (by simpa using long)
      | cons next names =>
        by_cases open' : FolderAt root (base ++ [name])
        · exact .cons (ih open' (by simp) (fun other member => plain other (by simp [member])) direct.tail) long
        · rw [walk_of_not_folder open']
          exact .refused (by simp)

/-- Plain names lead the same way in trees that show the same on it. -/
theorem walk_congr {base : Place} {names : List String} (direct : Direct root base follow names)
    (plain : ∀ name ∈ names, Plain name)
    (same : ∀ before after, names = before ++ after → root.seen? (base ++ before) = other.seen? (base ++ before)) :
    walk root follow links base names = walk other follow links base names := by
  induction names generalizing base with
  | nil => rw [walk_nil, walk_nil]
  | cons name names ih =>
    have first := plain name (by simp)
    have here : root.seen? base = other.seen? base := by simpa using same [] (name :: names) rfl
    have there : root.at? (base ++ [name]) = none ↔ other.at? (base ++ [name]) = none := by
      rw [← seen?_eq_none, same [name] names rfl, seen?_eq_none]
    have direct' : Direct other base follow (name :: names) := by
      intro before after split filled more target
      rw [← same before after split]
      exact direct before after split filled more target
    by_cases folder : FolderAt root base
    · have folder' : FolderAt other base := here.symm.trans folder
      by_cases long : nameLimit < name.utf8ByteSize
      · rw [walk_long folder first.moves first.descends long, walk_long folder' first.moves first.descends long]
      · have onwards : walk root follow links (base ++ [name]) names = walk other follow links (base ++ [name]) names := by
          refine ih direct.tail (fun other member => plain other (by simp [member])) ?_
          rintro before after rfl
          rw [List.append_assoc]
          exact same (name :: before) after rfl
        simp only [direct.walk_step folder first long, direct'.walk_step folder' first long, there, onwards]
    · have folder' : ¬ FolderAt other base := fun folder' => folder (here.trans folder')
      rw [walk_of_not_folder folder, walk_of_not_folder folder']

/-- What stands at the end of a way through folders is found. -/
theorem walk_found {base : Place} {names : List String} (plain : ∀ name ∈ names, Plain name)
    (short : ∀ name ∈ names, ¬ nameLimit < name.utf8ByteSize) (direct : Direct root base follow names)
    (folder : FolderAt root base) (present : root.at? (base ++ names) ≠ none) :
    walk root follow links base names = .ok (.found (base ++ names)) := by
  induction names generalizing base with
  | nil => rw [walk_nil, List.append_nil]
  | cons name names ih =>
    have split : base ++ name :: names = base ++ [name] ++ names := by simp
    rw [split] at present ⊢
    have present' : root.at? (base ++ [name]) ≠ none := fun absent => present (at?_append_of_none absent names)
    rw [direct.walk_step folder (plain name (by simp)) (short name (by simp)), if_neg present']
    cases names with
    | nil => rw [walk_nil, List.append_nil]
    | cons next names =>
      exact ih (fun other member => plain other (by simp [member])) (fun other member => short other (by simp [member]))
        direct.tail (.of_present_below present (by simp)) present

/-! ### How far a way comes -/

theorem Leads.append {links'' : Nat} {last : Place} {names more : List String} (leads : Leads root links here names links' place)
    (onwards : Leads root links' place more links'' last) : Leads root links here (names ++ more) links'' last := by
  induction leads with
  | stay => exact onwards
  | point folder _ ih => exact .point folder (ih onwards)
  | up folder _ ih => exact .up folder (ih onwards)
  | enter folder moves descends short shown direct _ ih => exact .enter folder moves descends short shown direct (ih onwards)
  | follow folder moves descends short shown _ ih =>
    have further := ih onwards
    rw [List.append_assoc] at further
    exact .follow folder moves descends short shown further

/-- Names lead nowhere, whatever comes after them, and none of them is free in a folder. -/
structure Blocked (root : Node) (links : Nat) (here : Place) (names : List String) : Prop where
  refused : ∀ follow more, more ≠ [] → ∃ error, walk root follow links here (names ++ more) = .error error
  unfree : ∀ before after, names = before ++ after → before ≠ [] →
    ∀ folder name, walk root false links here before ≠ .ok (.vacant folder name)

/-- A name is free in a folder. -/
structure Free (root : Node) (here : Place) (name : String) : Prop where
  folder : FolderAt root here
  moves : name ≠ "."
  descends : name ≠ ".."
  absent : root.at? (here ++ [name]) = none

private theorem free_of_vacant {folder : Place} {free : String} (vacant : walk root false links here [name] = .ok (.vacant folder free)) :
    Free root here name := by
  cases stepKind root here name with
  | closed closed => simp [walk_of_not_folder closed] at vacant
  | point folder => simp [walk_point folder, walk_nil] at vacant
  | up folder => simp [walk_up folder, walk_nil] at vacant
  | long folder moves descends long => simp [walk_long folder moves descends long] at vacant
  | step folder moves descends short =>
    refine ⟨folder, moves, descends, ?_⟩
    rw [walk_step folder moves descends short] at vacant
    cases shown : root.seen? (here ++ [name]) with
    | none => exact seen?_eq_none.mp shown
    | some found =>
      rw [shown] at vacant
      cases found <;> simp [walk_nil] at vacant

/-- For one name alone, nothing is missing on the way. -/
theorem walk_single (root : Node) (links : Nat) (here : Place) (name : String) :
    walk root false links here [name] ≠ .error .notFound := by
  cases stepKind root here name with
  | closed closed => simp [walk_of_not_folder closed]
  | point folder => simp [walk_point folder, walk_nil]
  | up folder => simp [walk_up folder, walk_nil]
  | long folder moves descends long => simp [walk_long folder moves descends long]
  | step folder moves descends short =>
    rw [walk_step folder moves descends short]
    cases root.seen? (here ++ [name]) with
    | none => simp
    | some found => cases found <;> simp [walk_nil]

/-- A way leads to a folder, or it breaks off at a name that is free in a folder, or it is
    blocked. -/
theorem way_cases (root : Node) (links : Nat) (here : Place) (names : List String) :
    (∃ links' base, Leads root links here names links' base ∧ FolderAt root base) ∨
      (∃ before name after links' base, names = before ++ name :: after ∧ Leads root links here before links' base ∧
        Free root base name) ∨
      Blocked root links here names := by
  induction names generalizing links here with
  | nil =>
    by_cases folder : FolderAt root here
    · exact Or.inl ⟨links, here, .stay, folder⟩
    · refine Or.inr (Or.inr ⟨fun follow more filled => ?_, fun before after split filled => by simp_all⟩)
      obtain ⟨first, rest, rfl⟩ := List.exists_cons_of_ne_nil filled
      exact ⟨_, walk_of_not_folder folder⟩
  | cons name names ih =>
    by_cases free : Free root here name
    · exact Or.inr (Or.inl ⟨[], name, names, links, here, rfl, .stay, free⟩)
    · have unfree : ∀ folder other, walk root false links here [name] ≠ .ok (.vacant folder other) :=
        fun _ _ vacant => free (free_of_vacant vacant)
      by_cases leads : ∃ links' place, Leads root links here [name] links' place
      · obtain ⟨links', place, leads⟩ := leads
        rcases ih links' place with ⟨links'', base, onwards, folder⟩ | ⟨before, other, after, links'', base, rfl, onwards, free'⟩ | blocked
        · exact Or.inl ⟨links'', base, leads.append onwards, folder⟩
        · exact Or.inr (Or.inl ⟨name :: before, other, after, links'', base, rfl, leads.append onwards, free'⟩)
        · refine Or.inr (Or.inr ⟨fun follow more filled => ?_, fun before after split filled => ?_⟩)
          · obtain ⟨error, refused⟩ := blocked.refused follow more filled
            have walks : walk root follow links here ([name] ++ (names ++ more)) = walk root follow links' place (names ++ more) :=
              leads.walk (Or.inr (by simp [filled]))
            exact ⟨error, walks.trans refused⟩
          · obtain ⟨first, before, rfl⟩ := List.exists_cons_of_ne_nil filled
            obtain ⟨rfl, later⟩ := List.cons.inj split
            by_cases last : before = []
            · exact last ▸ unfree
            · have walks : walk root false links here ([name] ++ before) = walk root false links' place before :=
                leads.walk (Or.inr last)
              intro folder other vacant
              exact blocked.unfree before after later last folder other (walks.symm.trans vacant)
      · have refused (follow : Bool) {more : List String} (filled : more ≠ []) :
            ∃ error, walk root follow links here ([name] ++ more) = .error error := by
          cases outcome : walk root follow links here ([name] ++ more) with
          | error error => exact ⟨error, rfl⟩
          | ok target =>
            obtain ⟨links', place, leads'⟩ := leads_of_walk outcome (Or.inl filled)
            exact absurd ⟨links', place, leads'⟩ leads
        refine Or.inr (Or.inr ⟨fun follow more filled => refused follow (by simp [filled]), fun before after split filled => ?_⟩)
        obtain ⟨first, before, rfl⟩ := List.exists_cons_of_ne_nil filled
        obtain ⟨rfl, -⟩ := List.cons.inj split
        by_cases last : before = []
        · exact last ▸ unfree
        · obtain ⟨error, stopped⟩ := refused false last
          intro folder other vacant
          have both := stopped.symm.trans vacant
          cases both

/-! ### Folders that cannot be made -/

/-- Where a folder is refused, and not for want of the one above it, none is made. -/
theorem makeFoldersWithin_of_refused {disk : Disk} {path : String} {error : FileError} (filled : path.isEmpty = false)
    (unmade : disk.makeFolder path = .error error) (other : error ≠ .notFound) (noFolder : disk.isFolder path = false)
    (levels : Nat) : makeFoldersWithin (levels + 1) path disk = (disk, .error error) := by
  unfold makeFoldersWithin
  simp only [filled, Bool.false_eq_true, ↓reduceIte, unmade]
  split
  next missing _ =>
    cases missing
    exact absurd rfl other
  next => simp [orFolder, noFolder]

end Pkgset.Disk

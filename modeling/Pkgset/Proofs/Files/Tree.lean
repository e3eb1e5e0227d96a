import Pkgset.Files.Disk
import Pkgset.Proofs.Text.Dict

/-!
# Changes in trees

A change at one place is seen there and below. All other places show what they showed,
and where the place is not below them either, they hold what they held.
-/

namespace Pkgset.Node
variable {node inner outer : Node} {place here : Place} {name : String} {content : Option Node}

/-- What shows of a node without what a folder holds. -/
def surface : Node → Node
  | .folder _ => .empty
  | other => other

/-- What shows at a place. -/
def seen? (node : Node) (place : Place) : Option Node := (node.at? place).map surface

theorem at?_append (node : Node) (place rest : Place) :
    node.at? (place ++ rest) = (node.at? place).bind fun below => below.at? rest := by
  induction place generalizing node with
  | nil => simp [at?]
  | cons name place ih =>
    cases node with
    | folder entries =>
      simp only [List.cons_append, at?]
      cases Dict.get? entries name with
      | none => rfl
      | some child => exact ih child
    | file content traits => rfl
    | link target => rfl

theorem at?_append_of_none (absent : node.at? place = none) (rest : Place) : node.at? (place ++ rest) = none := by
  rw [at?_append, absent, Option.bind_none]

/-- What a folder holds under a name stands below it. -/
theorem at?_concat {entries : List (String × Node)} (folder : node.at? place = some (.folder entries)) (name : String) :
    node.at? (place ++ [name]) = Dict.get? entries name := by
  rw [at?_append, folder, Option.bind_some, at?]
  cases Dict.get? entries name with
  | none => rfl
  | some child => simp [at?]

theorem at?_cons {entries : List (String × Node)} {name : String} {rest : Place} {found : Node} :
    (Node.folder entries).at? (name :: rest) = some found ↔
      ∃ child, Dict.get? entries name = some child ∧ child.at? rest = some found := by
  rw [at?, Option.bind_eq_some_iff]

theorem seen?_eq_none : node.seen? place = none ↔ node.at? place = none := by simp [seen?]

theorem seen?_eq_empty : node.seen? place = some .empty ↔ ∃ entries, node.at? place = some (.folder entries) := by
  unfold seen?
  cases node.at? place with
  | none => simp
  | some found => cases found <;> simp [surface, empty]

theorem seen?_eq_link {target : String} : node.seen? place = some (.link target) ↔ node.at? place = some (.link target) := by
  unfold seen?
  cases node.at? place with
  | none => simp
  | some found => cases found <;> simp [surface, empty]

/-- Only a folder holds something. -/
theorem exists_folder (present : node.at? (place ++ [name]) ≠ none) :
    ∃ entries, node.at? place = some (.folder entries) := by
  rw [at?_append] at present
  cases found : node.at? place with
  | none => simp [found] at present
  | some above =>
    cases above with
    | folder entries => exact ⟨entries, rfl⟩
    | file bytes traits => simp [found, at?] at present
    | link target => simp [found, at?] at present

/-! ### One change -/

theorem replace_cons (entries : List (String × Node)) (name next : String) (rest : Place) (content : Option Node) :
    replace (.folder entries) (name :: next :: rest) content =
      match Dict.get? entries name with
      | some child => .folder (Dict.insert entries name (replace child (next :: rest) content))
      | none => .folder entries := by
  cases found : Dict.get? entries name <;> simp [replace, found]

/-- A change is not seen where it does not reach. -/
theorem seen?_replace (apart : ¬ place <+: here) : (node.replace place content).seen? here = node.seen? here := by
  induction place generalizing node here with
  | nil => exact absurd List.nil_prefix apart
  | cons name rest ih =>
    cases node with
    | file bytes traits => cases rest <;> cases content <;> rfl
    | link target => cases rest <;> cases content <;> rfl
    | folder entries =>
      cases here with
      | nil =>
        cases rest with
        | nil => cases content <;> rfl
        | cons next rest =>
          rw [replace_cons]
          cases Dict.get? entries name <;> rfl
      | cons first below =>
        have below_eq (entries : List (String × Node)) :
            (Node.folder entries).seen? (first :: below) = (Dict.get? entries first).bind fun child => child.seen? below := by
          simp only [seen?, at?]
          cases Dict.get? entries first <;> rfl
        cases rest with
        | nil =>
          have other : first ≠ name := by
            rintro rfl
            exact apart ⟨below, rfl⟩
          cases content with
          | none => simp [replace, below_eq, Dict.get?_erase, other]
          | some child => simp [replace, below_eq, Dict.get?_insert, other]
        | cons next rest =>
          rw [replace_cons]
          cases found : Dict.get? entries name with
          | none => rfl
          | some child =>
            simp only [below_eq, Dict.get?_insert]
            split
            next same =>
              subst same
              rw [found, Option.bind_some, Option.bind_some]
              exact ih fun reaches => apart (List.cons_prefix_cons.mpr ⟨rfl, reaches⟩)
            next => rfl

/-- A change leaves what is neither above nor below it. -/
theorem at?_replace (apart : ¬ place <+: here) (aside : ¬ here <+: place) :
    (node.replace place content).at? here = node.at? here := by
  induction place generalizing node here with
  | nil => exact absurd List.nil_prefix apart
  | cons name rest ih =>
    cases node with
    | file bytes traits => cases rest <;> cases content <;> rfl
    | link target => cases rest <;> cases content <;> rfl
    | folder entries =>
      cases here with
      | nil => exact absurd List.nil_prefix aside
      | cons first below =>
        cases rest with
        | nil =>
          have other : first ≠ name := by
            rintro rfl
            exact apart ⟨below, rfl⟩
          cases content with
          | none => simp [replace, at?, Dict.get?_erase, other]
          | some child => simp [replace, at?, Dict.get?_insert, other]
        | cons next rest =>
          rw [replace_cons]
          cases found : Dict.get? entries name with
          | none => rfl
          | some child =>
            simp only [at?, Dict.get?_insert]
            split
            next same =>
              subst same
              rw [found, Option.bind_some, Option.bind_some]
              exact ih (fun reaches => apart (List.cons_prefix_cons.mpr ⟨rfl, reaches⟩))
                fun reaches => aside (List.cons_prefix_cons.mpr ⟨rfl, reaches⟩)
            next => rfl

/-- A node that is put into a folder stands there. -/
theorem at?_replace_self {entries : List (String × Node)} (folder : node.at? place = some (.folder entries))
    (name : String) (content : Option Node) : (node.replace (place ++ [name]) content).at? (place ++ [name]) = content := by
  induction place generalizing node with
  | nil =>
    obtain rfl : node = .folder entries := by simpa [at?] using folder
    cases content with
    | none => simp [replace, at?, Dict.get?_erase]
    | some child => simp [replace, at?, Dict.get?_insert]
  | cons first rest ih =>
    cases node with
    | file bytes traits => simp [at?] at folder
    | link target => simp [at?] at folder
    | folder entries =>
      obtain ⟨child, found, folder⟩ := at?_cons.mp folder
      obtain ⟨next, more, shape⟩ := List.exists_cons_of_ne_nil (List.append_ne_nil_of_right_ne_nil rest (List.cons_ne_nil name []))
      simp only [List.cons_append, shape, replace_cons, found, at?, Dict.get?_insert, ↓reduceIte, Option.bind_some]
      rw [← shape]
      exact ih folder

/-- A folder has what was put into it beside what it had. -/
theorem at?_replace_parent {entries : List (String × Node)} (folder : node.at? place = some (.folder entries))
    (name : String) (child : Node) :
    (node.replace (place ++ [name]) (some child)).at? place = some (.folder (Dict.insert entries name child)) := by
  induction place generalizing node with
  | nil =>
    obtain rfl : node = .folder entries := by simpa [at?] using folder
    rfl
  | cons first rest ih =>
    cases node with
    | file bytes traits => simp [at?] at folder
    | link target => simp [at?] at folder
    | folder entries' =>
      obtain ⟨below, found, folder⟩ := Option.bind_eq_some_iff.mp (by simpa only [at?] using folder)
      obtain ⟨next, more, shape⟩ := List.exists_cons_of_ne_nil (List.append_ne_nil_of_right_ne_nil rest (List.cons_ne_nil name []))
      simp only [List.cons_append, shape, replace_cons, found, at?, Dict.get?_insert, ↓reduceIte, Option.bind_some]
      rw [← shape]
      exact ih folder

/-- What is taken away is not there. -/
theorem at?_remove_self (node : Node) (place : Place) (name : String) :
    (node.replace (place ++ [name]) none).at? (place ++ [name]) = none := by
  by_contra present
  obtain ⟨entries, above⟩ := exists_folder present
  have apart : ¬ place ++ [name] <+: place := fun reaches => absurd reaches.length_le (by simp)
  have folder : (node.replace (place ++ [name]) none).seen? place = some .empty := seen?_eq_empty.mpr ⟨entries, above⟩
  rw [seen?_replace apart] at folder
  obtain ⟨before, folder⟩ := seen?_eq_empty.mp folder
  exact present (at?_replace_self folder name none)

/-- Where nothing stood, there is at most an empty folder after one was put there. -/
theorem at?_replace_empty (absent : node.at? place = none) (below : Place) :
    (node.replace place (some .empty)).at? (place ++ below) = none ∨
      below = [] ∧ (node.replace place (some .empty)).at? place = some .empty := by
  obtain ⟨above, name, rfl⟩ : ∃ above name, place = above ++ [name] := by
    rcases List.eq_nil_or_concat place with rfl | ⟨above, name, rfl⟩
    · simp [at?] at absent
    · exact ⟨above, name, List.concat_eq_append⟩
  have outcome : (node.replace (above ++ [name]) (some .empty)).at? (above ++ [name]) = none ∨
      (node.replace (above ++ [name]) (some .empty)).at? (above ++ [name]) = some .empty := by
    by_contra neither
    obtain ⟨present, other⟩ := not_or.mp neither
    obtain ⟨entries, folder⟩ := exists_folder present
    have apart : ¬ above ++ [name] <+: above := fun reaches => absurd reaches.length_le (by simp)
    have shown : node.seen? above = some .empty := (seen?_replace apart).symm.trans (seen?_eq_empty.mpr ⟨entries, folder⟩)
    obtain ⟨before, folder⟩ := seen?_eq_empty.mp shown
    exact other (at?_replace_self folder name _)
  rcases outcome with none' | made
  · exact Or.inl (at?_append_of_none none' below)
  · cases below with
    | nil => exact Or.inr ⟨rfl, made⟩
    | cons first rest =>
      rw [at?_append, made]
      exact Or.inl rfl

/-! ### Trees that show more -/

/-- What one tree shows, the other shows too. -/
def Within (inner outer : Node) : Prop := ∀ place found, inner.seen? place = some found → outer.seen? place = some found

theorem Within.refl (node : Node) : node.Within node := fun _ _ => id

theorem Within.trans {last : Node} (first : inner.Within outer) (second : outer.Within last) : inner.Within last :=
  fun place found shown => second _ _ (first place found shown)

/-- A change where the inner tree has nothing. -/
theorem Within.replace (within : inner.Within outer) (absent : inner.at? place = none) (content : Option Node) :
    inner.Within (outer.replace place content) := by
  intro here found shown
  rw [seen?_replace]
  · exact within here found shown
  · rintro ⟨rest, rfl⟩
    rw [seen?, at?_append_of_none absent] at shown
    cases shown

theorem Within.absent (within : inner.Within outer) (absent : outer.at? place = none) : inner.at? place = none := by
  rw [← seen?_eq_none]
  cases shown : inner.seen? place with
  | none => rfl
  | some found => simpa [seen?, absent] using within place found shown

/-- Less shows where something was taken away. -/
theorem within_remove (node : Node) (place : Place) (name : String) : (node.replace (place ++ [name]) none).Within node := by
  intro here found shown
  by_cases reaches : place ++ [name] <+: here
  · obtain ⟨below, rfl⟩ := reaches
    rw [seen?, at?_append_of_none (at?_remove_self node place name)] at shown
    cases shown
  · rwa [seen?_replace reaches] at shown

end Pkgset.Node

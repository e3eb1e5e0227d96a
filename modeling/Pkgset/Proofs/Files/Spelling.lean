import Pkgset.Files.Disk
import Mathlib.Data.List.Basic

/-!
# The names in a path

A path is a text, but what it means is a list of names. Separators that are doubled, and
points that stay where they are, are other spellings of the same names. Joining a name to
a path adds it at the end, and the parent of a path lacks the last of its names.
-/

namespace Pkgset.Path

/-- The names between the separators of a path. -/
def names (path : String) : List String := (pieces path).filter (· ≠ "")

/-- A name that leads from a folder to what the folder holds. -/
structure Plain (name : String) : Prop where
  whole : '/' ∉ name.toList
  nonempty : name ≠ ""
  moves : name ≠ "."
  descends : name ≠ ".."

/-! ### Cutting and joining -/

theorem cut_ne_nil (cs : List Char) : cut cs ≠ [] := by
  fun_induction cut cs <;> simp

theorem cut_append (before after : List Char) : cut (before ++ '/' :: after) = cut before ++ cut after := by
  induction before with
  | nil => simp [cut]
  | cons c before ih =>
    by_cases separates : c = '/'
    · simp [cut, separates, ih]
    · simp only [List.cons_append, cut, separates, ↓reduceIte, ih]
      cases shape : cut before with
      | nil => exact absurd shape (cut_ne_nil before)
      | cons first others => rfl

theorem cut_of_not_mem {cs : List Char} (whole : '/' ∉ cs) : cut cs = [cs] := by
  induction cs with
  | nil => rfl
  | cons c cs ih =>
    obtain ⟨other, rest⟩ : ¬ '/' = c ∧ '/' ∉ cs := by simpa using whole
    simp [cut, Ne.symm other, ih rest]

theorem not_mem_of_mem_cut {cs piece : List Char} (member : piece ∈ cut cs) : '/' ∉ piece := by
  induction cs generalizing piece with
  | nil => simp_all [cut]
  | cons c cs ih =>
    rw [cut] at member
    split at member
    next =>
      rcases List.mem_cons.mp member with rfl | rest
      · simp
      · exact ih rest
    next other =>
      split at member
      next empty => exact absurd empty (cut_ne_nil cs)
      next first others shape =>
        rcases List.mem_cons.mp member with rfl | rest
        · have within : '/' ∉ first := ih (by simp [shape])
          simp [within, Ne.symm other]
        · exact ih (by simp [shape, rest])

theorem not_mem_of_mem_pieces {path piece : String} (member : piece ∈ pieces path) : '/' ∉ piece.toList := by
  obtain ⟨cs, within, rfl⟩ := List.mem_map.mp member
  simpa using not_mem_of_mem_cut within

theorem pieces_of_whole {part : String} (whole : '/' ∉ part.toList) : pieces part = [part] := by
  simp [pieces, cut_of_not_mem whole]

theorem pieces_append (base part : String) : pieces (base ++ "/" ++ part) = pieces base ++ pieces part := by
  have text : (base ++ "/" ++ part).toList = base.toList ++ '/' :: part.toList := by simp
  simp [pieces, text, cut_append]

theorem pieces_slash (path : String) : pieces (path ++ "/") = pieces path ++ [""] := by
  have more := pieces_append path ""
  rwa [String.append_empty] at more

/-- What stands between separators is cut out again. -/
theorem pieces_intercalate {parts : List String} (filled : parts ≠ []) (whole : ∀ part ∈ parts, '/' ∉ part.toList) :
    pieces ("/".intercalate parts) = parts := by
  induction parts with
  | nil => exact absurd rfl filled
  | cons first rest ih =>
    have alone := pieces_of_whole (whole first (by simp))
    cases rest with
    | nil => rw [String.intercalate_singleton, alone]
    | cons second rest =>
      rw [String.intercalate_cons_cons, pieces_append, alone, ih (by simp) fun part member => whole part (by simp [member])]
      rfl

theorem endsWith_iff {path : String} : path.endsWith "/" = true ↔ ['/'] <:+ path.toList := by
  rw [String.endsWith_eq_endsWith_toSlice, String.Slice.endsWith_string_iff, String.copy_toSlice]
  rfl

theorem eq_append_of_endsWith {path : String} (ends : path.endsWith "/" = true) : ∃ before, path = before ++ "/" := by
  obtain ⟨before, same⟩ := endsWith_iff.mp ends
  exact ⟨String.ofList before, String.toList_inj.mp (by simp [← same])⟩

theorem endsWith_of_pieces {path last : String} (ends : (pieces path).getLast? = some last) (nonempty : last ≠ "") :
    path.endsWith "/" = false := by
  rw [Bool.eq_false_iff]
  intro ended
  obtain ⟨before, rfl⟩ := eq_append_of_endsWith ended
  rw [pieces_slash, List.getLast?_append] at ends
  exact nonempty (by simpa using ends.symm)

theorem endsWith_of_whole {base part : String} (whole : '/' ∉ part.toList) (nonempty : part ≠ "") :
    (base ++ part).endsWith "/" = false := by
  rw [Bool.eq_false_iff]
  rintro ends
  obtain ⟨before, same⟩ := endsWith_iff.mp ends
  have last := congrArg List.getLast? same
  simp only [String.toList_append, List.getLast?_append] at last
  cases shape : part.toList.getLast? with
  | none => exact nonempty (String.toList_inj.mp (by simpa using shape))
  | some c =>
    rw [shape] at last
    have member : c ∈ part.toList := List.mem_of_getLast? shape
    have : '/' = c := by simpa using last
    exact whole (this ▸ member)

/-- Joining a name puts it after the names that are there. -/
theorem names_join (base : String) {part : String} (plain : Plain part) :
    names (join base part) = names base ++ [part] ∧ (join base part).endsWith "/" = false := by
  have relative : part.startsWith "/" = false := by
    rw [String.startsWith_string_eq_false_iff]
    rintro ⟨rest, same⟩
    exact plain.whole (by rw [← same]; simp)
  have last : [part].filter (fun name => decide (name ≠ "")) = [part] := by simp [plain.nonempty]
  by_cases empty : base = ""
  · subst empty
    have joined : join "" part = part := by simp [join, relative]
    have single : names part = [part] := by
      simp [names, pieces, cut_of_not_mem plain.whole, plain.nonempty]
    have before : names "" = [] := by simp [names, pieces, cut]
    rw [joined, single, before]
    have unended : ("" ++ part).endsWith "/" = false := endsWith_of_whole plain.whole plain.nonempty
    exact ⟨rfl, by rwa [String.empty_append] at unended⟩
  · have filled : base.isEmpty = false := by simpa using empty
    cases ended : base.endsWith "/" with
    | true =>
      obtain ⟨before, rfl⟩ := eq_append_of_endsWith ended
      have joined : join (before ++ "/") part = before ++ "/" ++ part := by simp [join, relative, ended]
      have blank : names (before ++ "/") = names before := by simp [names, pieces_slash]
      rw [joined, blank]
      refine ⟨?_, endsWith_of_whole plain.whole plain.nonempty⟩
      rw [names, pieces_append, pieces_of_whole plain.whole, List.filter_append, last, names]
    | false =>
      have joined : join base part = base ++ "/" ++ part := by simp [join, relative, ended, filled]
      rw [joined]
      refine ⟨?_, endsWith_of_whole plain.whole plain.nonempty⟩
      rw [names, pieces_append, pieces_of_whole plain.whole, List.filter_append, last, names]

/-! ### Spellings -/

/-- A path leads by some names, the last of which moves; points before it may stand
    anywhere. -/
structure Spells (path : String) (way : List String) : Prop where
  unended : path.endsWith "/" = false
  spelled : ∃ before last, names path = before ++ [last] ∧ last ≠ "." ∧ way = before.filter (· ≠ ".") ++ [last]

/-- The names of a path without points. -/
def way (path : String) : List String := (names path).filter (· ≠ ".")

theorem mem_way {path name : String} (member : name ∈ way path) : name ∈ pieces path ∧ name ≠ "" ∧ name ≠ "." := by
  obtain ⟨present, moves⟩ := List.mem_filter.mp member
  obtain ⟨present, filled⟩ := List.mem_filter.mp present
  exact ⟨present, of_decide_eq_true filled, of_decide_eq_true moves⟩

theorem spells_join (base : String) {part : String} (plain : Plain part) :
    Spells (join base part) (way base ++ [part]) := by
  obtain ⟨joined, unended⟩ := names_join base plain
  exact ⟨unended, names base, part, joined, plain.moves, rfl⟩

theorem Spells.way_eq {path : String} {names : List String} (spells : Spells path names) : way path = names := by
  obtain ⟨before, last, shape, moves, rfl⟩ := spells.spelled
  simp [way, shape, List.filter_append, moves]

theorem Spells.join {base part : String} {names : List String} (spells : Spells base names) (plain : Plain part) :
    Spells (join base part) (names ++ [part]) := by
  exact spells.way_eq ▸ spells_join base plain

theorem Spells.nonempty {path : String} {names : List String} (spells : Spells path names) : path.isEmpty = false := by
  obtain ⟨before, last, shape, _⟩ := spells.spelled
  by_contra empty
  obtain rfl : path = "" := by simpa using empty
  simp [Path.names, pieces, cut] at shape

theorem Spells.getLast? {path : String} {names : List String} (spells : Spells path names) :
    (Path.names path).getLast? = names.getLast? := by
  obtain ⟨before, last, shape, _, rfl⟩ := spells.spelled
  simp [shape]

/-- A path that spells names has no separators at its end to be dropped. -/
theorem Spells.trimmed {path : String} {names : List String} (spells : Spells path names) :
    String.ofList (path.toList.reverse.dropWhile (· = '/')).reverse = path := by
  have kept : path.toList.reverse.dropWhile (· = '/') = path.toList.reverse := by
    cases shape : path.toList.reverse with
    | nil => rfl
    | cons c rest =>
      have other : c ≠ '/' := by
        rintro rfl
        have text : path.toList = rest.reverse ++ ['/'] := by rw [← List.reverse_cons, ← shape, List.reverse_reverse]
        have ended : path.endsWith "/" = true := endsWith_iff.mpr ⟨rest.reverse, by simp [text]⟩
        simp [spells.unended] at ended
      simp [other]
  rw [kept, List.reverse_reverse, String.ofList_toList]

/-! ### Parents -/

/-- The components of a path are its names, after the point that may start a relative one. -/
theorem components_eq (path : String) :
    ∃ lead, (lead = [] ∨ lead = ["."] ∧ isAbsolute path = false) ∧ components path = lead ++ way path := by
  have filled : pieces path ≠ [] := by simp [pieces, cut_ne_nil]
  obtain ⟨first, rest, shape⟩ := List.exists_cons_of_ne_nil filled
  by_cases blank : first = ""
  · exact ⟨[], Or.inl rfl, by simp [components, way, names, shape, blank, Bool.and_comm]⟩
  · by_cases point : first = "."
    · refine ⟨["."], Or.inr ⟨rfl, ?_⟩, by simp [components, way, names, shape, point, Bool.and_comm]⟩
      rw [isAbsolute, String.startsWith_string_eq_false_iff]
      rintro ⟨tail, text⟩
      have cuts : pieces path = "" :: (cut tail).map String.ofList := by
        rw [pieces, ← text]
        simp [cut]
      rw [shape, List.cons.injEq] at cuts
      exact blank cuts.1
    · exact ⟨[], Or.inl rfl, by simp [components, way, names, shape, blank, point, Bool.and_comm]⟩

/-- The parent of a path is cut into all its components but the last one, after an empty
    part if the path starts at the root. -/
theorem pieces_parent {path last : String} {upper : List String} (shape : components path = upper ++ [last])
    (filled : upper ≠ []) (whole : ∀ part ∈ upper, '/' ∉ part.toList) :
    ∃ parent, parent? path = some parent ∧ (pieces parent = upper ∨ pieces parent = "" :: upper) := by
  have cuts : pieces ("/".intercalate upper) = upper := pieces_intercalate filled whole
  have reversed : (components path).reverse = last :: upper.reverse := by simp [shape]
  unfold parent?
  rw [reversed]
  simp only [List.reverse_reverse, Option.some.injEq, exists_eq_left']
  split
  · have more := pieces_append "" ("/".intercalate upper)
    rw [String.empty_append, cuts] at more
    exact Or.inr more
  · exact Or.inl cuts

/-- The parent of a path that leads by several names leads by all but the last. -/
theorem Spells.parent {path last : String} {before : List String} (spells : Spells path (before ++ [last]))
    (several : before ≠ []) : ∃ parent, parent? path = some parent ∧ Spells parent before := by
  obtain ⟨lead, starts, shape⟩ := components_eq path
  rw [spells.way_eq, ← List.append_assoc] at shape
  have within {name : String} (member : name ∈ before) : name ∈ pieces path ∧ name ≠ "" ∧ name ≠ "." := by
    refine mem_way ?_
    rw [spells.way_eq]
    exact List.mem_append_left _ member
  have proper : ∀ part ∈ lead ++ before, '/' ∉ part.toList ∧ part ≠ "" := by
    intro part member
    rcases List.mem_append.mp member with first | later
    · rcases starts with rfl | ⟨rfl, _⟩
      · cases first
      · obtain rfl := List.mem_singleton.mp first
        decide
    · exact ⟨not_mem_of_mem_pieces (within later).1, (within later).2.1⟩
  have kept : (lead ++ before).filter (fun part => decide (part ≠ "")) = lead ++ before :=
    List.filter_eq_self.mpr fun part member => by simpa using (proper part member).2
  obtain ⟨parent, found, parts⟩ := pieces_parent shape (by simp [several]) fun part member => (proper part member).1
  obtain ⟨front, final, rfl⟩ : ∃ front final, before = front ++ [final] :=
    ⟨_, _, (List.dropLast_append_getLast several).symm⟩
  have ends : (pieces parent).getLast? = some final := by rcases parts with same | same <;> simp [same, List.getLast?_cons]
  have moves : final ≠ "." := (within (by simp)).2.2
  refine ⟨parent, found, endsWith_of_pieces ends (proper final (by simp)).2, lead ++ front, final, ?_, moves, ?_⟩
  · rw [List.append_assoc]
    rcases parts with same | same <;> rw [names, same]
    · exact kept
    · rw [List.filter_cons_of_neg (by simp), kept]
  · have early : (lead ++ front).filter (fun name => decide (name ≠ ".")) = front := by
      have first : lead.filter (fun name => decide (name ≠ ".")) = [] := by rcases starts with rfl | ⟨rfl, _⟩ <;> rfl
      rw [List.filter_append, first, List.nil_append]
      refine List.filter_eq_self.mpr fun name member => ?_
      simpa using (within (List.mem_append_left _ member)).2.2
    rw [early]

end Pkgset.Path

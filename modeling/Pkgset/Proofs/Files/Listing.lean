import Pkgset.Files.TreeHash
import Pkgset.Proofs.Derivation.Identity
import Pkgset.Proofs.Files.Spelling
import Pkgset.Proofs.Files.Tree
import Mathlib.Data.List.Chain

/-!
# What the hash of a tree tells

The hash covers a line for every node whose place has no excluded name in it. A line tells
the place and what shows there, with the content of a file and the target of a link, so
where SHA-256 does not collide two trees have one hash exactly when they look the same at
all these places. An excluded name hides what is below it wherever it stands. Names are
written as they are: lines are told apart as long as no name has a line feed in it that is
followed by a letter that starts a line.
-/

namespace Pkgset
open Node

namespace Sha256

theorem length_bigEndian (count n : Nat) : (bigEndian count n).length = count := by
  induction count generalizing n with
  | zero => rfl
  | succ count ih => simp [bigEndian, ih]

theorem length_digest (message : Bytes) : (digest message).length = 32 := by simp [digest, length_bigEndian]

theorem length_hex (message : Bytes) : (hex message).toList.length = 64 := by
  simp [hex, Bytes.hex, List.length_flatMap, length_digest]

theorem newline_not_mem_hex (message : Bytes) : '\n' ∉ (hex message).toList := by
  have digits : ∀ n : Fin 16, Bytes.hexDigit n ≠ '\n' := by decide
  have digit (n : Nat) (small : n < 16) : '\n' ≠ Bytes.hexDigit n := (digits ⟨n, small⟩).symm
  simp only [hex, Bytes.hex, String.toList_ofList, List.mem_flatMap, List.mem_cons, List.not_mem_nil, or_false, not_exists,
    not_and, not_or]
  intro byte _
  have size := byte.toNat_lt
  exact ⟨digit _ (by omega), digit _ (by omega)⟩

end Sha256

/-! ### Faces -/

namespace Node

/-- What the hash of a tree may tell of a node: not the traits of a file, and not what a
    folder holds. -/
def face : Node → Node
  | .file content _ => .file content .ordinary
  | .folder _ => .empty
  | .link target => .link target

/-- The face of what stands at a place. -/
def face? (node : Node) (place : Place) : Option Node := (node.at? place).map face

/-- The bytes whose hash tells a file or a link apart from others. -/
def payload : Node → Bytes
  | .file content _ => content
  | .folder _ => []
  | .link target => Bytes.ofText target

/-- No name of a place is among the excluded ones. -/
def Open (exclude : List String) (place : Place) : Prop := ∀ name ∈ place, name ∉ exclude

/-- A name that can be told in a line. -/
structure Inline (name : String) : Prop where
  filled : name ≠ ""
  whole : '/' ∉ name.toList
  single : '\n' ∉ name.toList

/-- Folders list their names in order, and those that are not excluded can be told in a line. -/
def Legible (exclude : List String) (node : Node) : Prop :=
  ∀ place entries, Open exclude place → node.at? place = some (.folder entries) →
    Dict.Ascending entries ∧ ∀ name ∈ Dict.keys entries, name ∉ exclude → Inline name

/-- A letter that a line starts with. -/
def StartsLine (c : Char) : Prop := c = 'F' ∨ c = 'D' ∨ c = 'L'

/-- Whatever follows on a line feed within a text, it does not look like a new line. -/
def Unbroken (text : List Char) : Prop := text.IsChain fun c next => c = '\n' → ¬ StartsLine next

/-- A name that can be told from other lines, though it may take several itself. -/
structure Tellable (name : String) : Prop where
  filled : name ≠ ""
  whole : '/' ∉ name.toList
  unbroken : Unbroken name.toList

/-- Folders list their names in order, and a condition holds of those that are not excluded. -/
def Lists (named : String → Prop) (exclude : List String) (node : Node) : Prop :=
  ∀ place entries, Open exclude place → node.at? place = some (.folder entries) →
    Dict.Ascending entries ∧ ∀ name ∈ Dict.keys entries, name ∉ exclude → named name

variable {named : String → Prop} {exclude : List String} {node other child : Node} {entries : Dict Node} {name : String}
  {place : Place} {text rest : List Char}

theorem unbroken_of_not_mem (whole : '\n' ∉ text) : Unbroken text := by
  refine List.isChain_iff_forall_rel_of_append_cons_cons.mpr fun c next before after split feed => ?_
  subst split feed
  simp at whole

theorem Unbroken.append (unbroken : Unbroken text) (unbroken' : Unbroken rest)
    (joint : ∀ next ∈ rest.head?, ¬ StartsLine next) : Unbroken (text ++ rest) :=
  List.isChain_append.mpr ⟨unbroken, unbroken', fun _ _ next first _ => joint next first⟩

theorem Inline.tellable (inline : Inline name) : Tellable name :=
  ⟨inline.filled, inline.whole, unbroken_of_not_mem inline.single⟩

theorem sizeOf_lt_of_mem (member : (name, child) ∈ entries) : sizeOf child < sizeOf (Node.folder entries) := by
  have smaller := List.sizeOf_lt_of_mem member
  rw [Prod.mk.sizeOf_spec] at smaller
  rw [Node.folder.sizeOf_spec]
  omega

theorem open_cons : Open exclude (name :: place) ↔ name ∉ exclude ∧ Open exclude place := List.forall_mem_cons

theorem Lists.mono {weaker : String → Prop} (lists : node.Lists named exclude) (implies : ∀ name, named name → weaker name) :
    node.Lists weaker exclude := fun place entries opened folder =>
  (lists place entries opened folder).imp_right fun all name member shown => implies name (all name member shown)

theorem Lists.of_get? (lists : (Node.folder entries).Lists named exclude) (held : Dict.get? entries name = some child)
    (shown : name ∉ exclude) : child.Lists named exclude := fun place entries' opened folder =>
  lists (name :: place) entries' (open_cons.mpr ⟨shown, opened⟩) (at?_cons.mpr ⟨child, held, folder⟩)

theorem Lists.parts (lists : (Node.folder entries).Lists named exclude) :
    Dict.Ascending entries ∧ ∀ name ∈ Dict.keys entries, name ∉ exclude → named name :=
  lists [] entries (by simp [Open]) (by rw [at?])

theorem Lists.folder (ascends : Dict.Ascending entries)
    (parts : ∀ name child, Dict.get? entries name = some child → name ∉ exclude → named name ∧ child.Lists named exclude) :
    (Node.folder entries).Lists named exclude := by
  intro place entries' opened there
  cases place with
  | nil =>
    cases there
    refine ⟨ascends, fun name member shown => ?_⟩
    obtain ⟨child, held⟩ := Option.isSome_iff_exists.mp (Dict.mem_keys.mp member)
    exact (parts name child held shown).1
  | cons name rest =>
    obtain ⟨child, held, there⟩ := at?_cons.mp there
    obtain ⟨shown, opened⟩ := open_cons.mp opened
    exact (parts name child held shown).2 rest entries' opened there

theorem Legible.folder (ascends : Dict.Ascending entries)
    (parts : ∀ name child, Dict.get? entries name = some child → name ∉ exclude → Inline name ∧ child.Legible exclude) :
    (Node.folder entries).Legible exclude := Lists.folder ascends parts

theorem Legible.tellable (legible : node.Legible exclude) : node.Lists Tellable exclude :=
  Lists.mono legible fun _ => Inline.tellable

/-- Where something stands, the condition holds of the names on the way. -/
theorem Lists.names {found : Node} (lists : node.Lists named exclude) (opened : Open exclude place)
    (there : node.at? place = some found) : ∀ name ∈ place, named name := by
  induction place generalizing node with
  | nil => simp
  | cons first rest ih =>
    cases node with
    | file content traits => simp [at?] at there
    | link target => simp [at?] at there
    | folder entries =>
      obtain ⟨child, held, there⟩ := at?_cons.mp there
      obtain ⟨shown, opened⟩ := open_cons.mp opened
      refine List.forall_mem_cons.mpr ⟨?_, ih (lists.of_get? held shown) opened there⟩
      exact lists.parts.2 first (Dict.mem_keys.mpr (by simp [held])) shown

end Node

namespace TreeHash
variable {named : String → Prop} {exclude : List String} {node other child : Node} {entries entries' : Dict Node}
  {name path path' : String} {place : Place}

/-! ### Lines -/

private theorem framed_inj {kind : String} {hash hash' : String} (size : hash.toList.length = 64)
    (size' : hash'.toList.length = 64) (same : kind ++ path ++ ":" ++ hash = kind ++ path' ++ ":" ++ hash') :
    path = path' ∧ hash = hash' := by
  have texts := congrArg String.toList same
  simp only [String.toList_append, List.append_assoc, List.append_cancel_left_eq] at texts
  obtain ⟨paths, hashes⟩ := List.append_inj' texts (by simp [size, size'])
  exact ⟨String.toList_inj.mp paths, String.toList_inj.mp (by simpa using hashes)⟩

/-- A line tells the path and, where hashes do not collide, the face of the node. -/
theorem line_inj (same : line path node = line path' other) :
    path = path' ∧ (Sha256.Apart node.payload other.payload → node.face = other.face) := by
  -- the first letters tell the kinds apart
  have kinds := congrArg (fun text : String => text.toList.head?) same
  cases node with
  | file content traits =>
    cases other with
    | file content' traits' =>
      obtain ⟨paths, hashes⟩ := framed_inj (Sha256.length_hex _) (Sha256.length_hex _) same
      refine ⟨paths, fun apart => ?_⟩
      have contents : content = content' := apart (Bytes.hex_injective hashes)
      rw [face, contents, face]
    | folder entries => simp [line] at kinds
    | link target => simp [line] at kinds
  | folder entries =>
    cases other with
    | file content traits => simp [line] at kinds
    | folder entries' =>
      have texts := congrArg String.toList same
      simp only [line, String.toList_append, List.append_cancel_left_eq] at texts
      exact ⟨String.toList_inj.mp texts, fun _ => rfl⟩
    | link target => simp [line] at kinds
  | link target =>
    cases other with
    | file content traits => simp [line] at kinds
    | folder entries => simp [line] at kinds
    | link target' =>
      obtain ⟨paths, hashes⟩ := framed_inj (Sha256.length_hex _) (Sha256.length_hex _) same
      refine ⟨paths, fun apart => ?_⟩
      have targets : Bytes.ofText target = Bytes.ofText target' := apart (Bytes.hex_injective hashes)
      rw [Bytes.ofText_injective targets]

theorem line_face (path : String) (node : Node) : line path node.face = line path node := by cases node <;> rfl

/-- A line does not look like several, and it starts with a letter that tells what it is. -/
structure Line (text : List Char) : Prop where
  unbroken : Unbroken text
  starts : ∃ c rest, text = c :: rest ∧ StartsLine c

theorem line_line (unbroken : Unbroken path.toList) (node : Node) : Line (line path node).toList := by
  have framed (c : Char) {rest : List Char} (starts : StartsLine c) (other : c ≠ '\n') (more : Unbroken rest) :
      Line (c :: ':' :: rest) := by
    refine ⟨.cons_cons (fun feed => absurd feed other) ?_, c, _, rfl, starts⟩
    cases rest with
    | nil => exact .singleton _
    | cons next rest => exact .cons_cons (fun feed => absurd feed (by decide)) more
  have hashed (message : Bytes) : Unbroken (path.toList ++ ':' :: (Sha256.hex message).toList) := by
    refine unbroken.append (unbroken_of_not_mem ?_) (by simp [StartsLine])
    simp [Sha256.newline_not_mem_hex]
  cases node with
  | file content traits => simpa [line] using framed 'F' (Or.inl rfl) (by decide) (hashed content)
  | folder entries => simpa [line] using framed 'D' (Or.inr (Or.inl rfl)) (by decide) unbroken
  | link target => simpa [line] using framed 'L' (Or.inr (Or.inr rfl)) (by decide) (hashed (Bytes.ofText target))

/-! ### Places and their text -/

/-- The text that stands for a place below a folder. -/
def spelling (folder : String) (place : Place) : String := place.foldl within folder

theorem spelling_eq (legal : ∀ name ∈ place, name ≠ "") : spelling "" place = "/".intercalate place := by
  have below (folder : String) (filled : folder ≠ "") (rest : Place) : spelling folder rest = "/".intercalate (folder :: rest) := by
    induction rest generalizing folder with
    | nil => simp [spelling]
    | cons name rest ih =>
      have step : within folder name = folder ++ "/" ++ name := by simp [within, filled]
      have longer : folder ++ "/" ++ name ≠ "" := by simp
      rw [spelling, List.foldl_cons, step, ← spelling, ih _ longer, String.intercalate_cons_cons, String.intercalate_cons_append]
  cases place with
  | nil => simp [spelling]
  | cons name rest =>
    have filled := legal name List.mem_cons_self
    rw [spelling, List.foldl_cons, within, if_pos (by rfl), ← spelling, below name filled]

theorem spelling_cons (folder name : String) (place : Place) :
    spelling folder (name :: place) = spelling (within folder name) place := rfl

theorem spelling_inj {other : Place} (legal : ∀ name ∈ place, Tellable name) (legal' : ∀ name ∈ other, Tellable name)
    (filled : place ≠ []) (filled' : other ≠ []) (same : spelling "" place = spelling "" other) : place = other := by
  rw [spelling_eq fun name member => (legal name member).filled, spelling_eq fun name member => (legal' name member).filled] at same
  rw [← Path.pieces_intercalate filled fun name member => (legal name member).whole, same,
    Path.pieces_intercalate filled' fun name member => (legal' name member).whole]

theorem unbroken_spelling {folder : String} (legal : ∀ name ∈ place, Tellable name) (unbroken : Unbroken folder.toList) :
    Unbroken (spelling folder place).toList := by
  induction place generalizing folder with
  | nil => exact unbroken
  | cons name rest ih =>
    obtain ⟨first, legal⟩ := List.forall_mem_cons.mp legal
    rw [spelling_cons]
    refine ih legal ?_
    rw [within]
    split
    next => exact first.unbroken
    next =>
      have separated : Unbroken ('/' :: name.toList) := by
        cases letters : name.toList with
        | nil => exact .singleton _
        | cons next rest => exact .cons_cons (fun feed => absurd feed (by decide)) (letters ▸ first.unbroken)
      have joined := unbroken.append separated (by simp [StartsLine])
      simpa using joined

/-! ### Lines of a tree -/

theorem mem_entryLines {text folder : String} : text ∈ entryLines exclude folder entries ↔
    ∃ name child, (name, child) ∈ entries ∧ name ∉ exclude ∧ text ∈ lines exclude (within folder name) child := by
  induction entries with
  | nil => simp [entryLines]
  | cons entry rest ih =>
    obtain ⟨first, child⟩ := entry
    rw [entryLines, List.mem_append, ih]
    constructor
    · rintro (here | ⟨name, other, member, shown, told⟩)
      · split at here
        next => cases here
        next shown => exact ⟨first, child, List.mem_cons_self, by simpa using shown, here⟩
      · exact ⟨name, other, List.mem_cons_of_mem _ member, shown, told⟩
    · rintro ⟨name, other, member, shown, told⟩
      rcases List.mem_cons.mp member with same | later
      · cases same
        exact Or.inl (by rwa [if_neg (by simpa using shown)])
      · exact Or.inr ⟨name, other, later, shown, told⟩

theorem mem_lines_folder {text folder : String} : text ∈ lines exclude folder (.folder entries) ↔
    text = line folder (.folder entries) ∨ text ∈ entryLines exclude folder entries := by
  rw [lines, List.mem_cons]

theorem line_mem_lines {found : Node} (opened : Open exclude place) (there : node.at? place = some found) (folder : String) :
    line (spelling folder place) found ∈ lines exclude folder node := by
  induction place generalizing node folder with
  | nil =>
    obtain rfl : node = found := by simpa [at?] using there
    cases node <;> simp [lines, spelling]
  | cons name rest ih =>
    cases node with
    | file content traits => simp [at?] at there
    | link target => simp [at?] at there
    | folder entries =>
      obtain ⟨child, held, there⟩ := at?_cons.mp there
      obtain ⟨shown, opened⟩ := open_cons.mp opened
      exact mem_lines_folder.mpr (Or.inr (mem_entryLines.mpr ⟨name, child, Dict.mem_of_get? held, shown, ih opened there _⟩))

/-- A line of what a folder holds belongs to a place in it without an excluded name. -/
theorem exists_of_mem_entryLines {entries : Dict Node} {text folder : String} (lists : (Node.folder entries).Lists named exclude)
    (told : text ∈ entryLines exclude folder entries) :
    ∃ place found, place ≠ [] ∧ Open exclude place ∧ (Node.folder entries).at? place = some found ∧
      text = line (spelling folder place) found := by
  obtain ⟨name, child, member, shown, told⟩ := mem_entryLines.mp told
  have held := lists.parts.1.get?_of_mem member
  have here (same : text = line (within folder name) child) : ∃ place found, place ≠ [] ∧ Open exclude place ∧
      (Node.folder entries).at? place = some found ∧ text = line (spelling folder place) found :=
    ⟨[name], child, by simp, open_cons.mpr ⟨shown, by simp [Open]⟩, at?_cons.mpr ⟨child, held, by rw [at?]⟩, same⟩
  cases child with
  | file content traits => exact here (by simpa [lines] using told)
  | link target => exact here (by simpa [lines] using told)
  | folder inner =>
    rcases mem_lines_folder.mp told with same | below
    · exact here same
    · obtain ⟨place, found, _, opened, there, same⟩ := exists_of_mem_entryLines (lists.of_get? held shown) below
      exact ⟨name :: place, found, by simp, open_cons.mpr ⟨shown, opened⟩, at?_cons.mpr ⟨_, held, there⟩, same⟩
termination_by sizeOf entries
decreasing_by
  have smaller := sizeOf_lt_of_mem member
  simp only [Node.folder.sizeOf_spec] at smaller
  omega

/-- The lines of what a folder holds under each name that is not excluded. -/
def rows (exclude : List String) (folder : String) (entries : Dict Node) : Dict (List String) :=
  (entries.filter fun entry => !exclude.contains entry.1).map fun entry => (entry.1, lines exclude (within folder entry.1) entry.2)

theorem rows_cons (folder name : String) (child : Node) (rest : Dict Node) :
    rows exclude folder ((name, child) :: rest) = if exclude.contains name then rows exclude folder rest
      else (name, lines exclude (within folder name) child) :: rows exclude folder rest := by
  cases hidden : exclude.contains name <;> simp only [rows, List.filter_cons, hidden] <;> rfl

theorem entryLines_eq (folder : String) : entryLines exclude folder entries = (Dict.values (rows exclude folder entries)).flatten := by
  induction entries with
  | nil => rfl
  | cons entry rest ih =>
    obtain ⟨name, child⟩ := entry
    rw [entryLines, rows_cons, ih]
    split <;> rfl

theorem get?_rows (folder name : String) : Dict.get? (rows exclude folder entries) name =
    if exclude.contains name then none else (Dict.get? entries name).map (lines exclude (within folder name)) := by
  induction entries with
  | nil => simp [rows, Dict.get?]
  | cons entry rest ih =>
    obtain ⟨first, child⟩ := entry
    rw [rows_cons, Dict.get?]
    by_cases same : name = first
    · subst same
      cases hidden : exclude.contains name with
      | true => simpa only [hidden, ↓reduceIte] using ih
      | false => simp [Dict.get?]
    · rw [if_neg same, ← ih]
      split
      next => rfl
      next => rw [Dict.get?, if_neg same]

theorem ascending_rows (ascends : Dict.Ascending entries) (folder : String) : Dict.Ascending (rows exclude folder entries) := by
  have keys : Dict.keys (rows exclude folder entries) =
      Dict.keys (entries.filter fun entry => !exclude.contains entry.1) := by simp [rows, Dict.keys]
  rw [Dict.Ascending, keys]
  exact ascends.sublist (List.filter_sublist.map _)

theorem face?_cons (entries : Dict Node) (name : String) (place : Place) :
    (Node.folder entries).face? (name :: place) = (Dict.get? entries name).bind fun child => child.face? place := by
  rw [face?, at?]
  cases Dict.get? entries name <;> rfl

/-- Trees that look the same at all places without an excluded name have the same lines. -/
theorem lines_congr {node other : Node} (lists : node.Lists named exclude) (lists' : other.Lists named exclude)
    (same : ∀ place, Open exclude place → node.face? place = other.face? place) (folder : String) :
    lines exclude folder node = lines exclude folder other := by
  have here : node.face = other.face := Option.some.inj (same [] (by simp [Open]))
  have first : line folder node = line folder other := by rw [← line_face, here, line_face]
  match node, other with
  | .file content traits, .file content' traits' => rw [lines, lines, first]
  | .link target, .link target' => rw [lines, lines, first]
  | .folder entries, .folder entries' =>
    rw [lines, lines, first, entryLines_eq, entryLines_eq]
    -- the rows agree under every name, and both tables list their names in order
    have tables : rows exclude folder entries = rows exclude folder entries' := by
      refine (ascending_rows lists.parts.1 folder).ext (ascending_rows lists'.parts.1 folder) fun name => ?_
      rw [get?_rows, get?_rows]
      split
      next => rfl
      next shown =>
        have shown : name ∉ exclude := by simpa using shown
        have below (place : Place) (opened : Open exclude place) := same (name :: place) (open_cons.mpr ⟨shown, opened⟩)
        simp only [face?_cons] at below
        have there := below [] (by simp [Open])
        cases held : Dict.get? entries name with
        | none =>
          cases held' : Dict.get? entries' name with
          | none => rfl
          | some child' => simp [held, held', face?, at?] at there
        | some child =>
          cases held' : Dict.get? entries' name with
          | none => simp [held, held', face?, at?] at there
          | some child' =>
            simp only [held, held', Option.bind_some] at below
            have inner := lines_congr (lists.of_get? held shown) (lists'.of_get? held' shown) below (within folder name)
            rw [Option.map_some, Option.map_some, inner]
    rw [tables]
  | .file _ _, .folder _ => cases here
  | .file _ _, .link _ => cases here
  | .folder _, .file _ _ => cases here
  | .folder _, .link _ => cases here
  | .link _, .file _ _ => cases here
  | .link _, .folder _ => cases here
termination_by sizeOf node
decreasing_by exact sizeOf_lt_of_mem (Dict.mem_of_get? held)

/-! ### Hashes -/

theorem encode_eq (texts : List String) :
    encode texts = Bytes.ofText (String.ofList (texts.flatMap fun text => text.toList ++ ['\n'])) := by
  induction texts with
  | nil => decide +kernel
  | cons text rest ih =>
    have feed : Bytes.ofText (String.ofList ['\n']) = [10] := by decide +kernel
    rw [encode, List.flatMap_cons, ← encode, ih, List.flatMap_cons, String.ofList_append, String.ofList_append,
      Bytes.ofText_append, Bytes.ofText_append, String.ofList_toList, ← feed]

/-- What starts a line, if there is anything. -/
private def Opens (rest : List Char) : Prop := ∀ c ∈ rest.head?, StartsLine c

private theorem Line.eq_of_append {text other rest rest' : List Char} (told : Line other)
    (opens : Opens rest) (longer : ∃ more, other = text ++ more ∧ '\n' :: rest = more ++ '\n' :: rest') :
    text = other ∧ rest = rest' := by
  obtain ⟨more, rfl, split⟩ := longer
  cases more with
  | nil => exact ⟨(List.append_nil _).symm, (List.cons.inj split).2⟩
  | cons feed more =>
    obtain ⟨rfl, rfl⟩ := List.cons.inj split
    exfalso
    -- what comes after the line feed starts a line, so the longer text is broken there
    cases more with
    | nil => simpa [StartsLine] using opens '\n' rfl
    | cons c more => exact (List.isChain_append_cons_cons.mp told.unbroken).2.1 rfl (opens c rfl)

private theorem Line.append_inj {text other rest rest' : List Char} (told : Line text) (told' : Line other) (opens : Opens rest)
    (opens' : Opens rest') (same : text ++ '\n' :: rest = other ++ '\n' :: rest') : text = other ∧ rest = rest' := by
  rcases List.append_eq_append_iff.mp same with ⟨more, longer, split⟩ | ⟨more, longer, split⟩
  · exact told'.eq_of_append opens ⟨more, longer, split⟩
  · obtain ⟨texts, rests⟩ := told.eq_of_append opens' ⟨more, longer, split⟩
    exact ⟨texts.symm, rests.symm⟩

private theorem opens_flatMap {texts : List String} (told : ∀ text ∈ texts, Line text.toList) :
    Opens (texts.flatMap fun text => text.toList ++ ['\n']) := by
  cases texts with
  | nil => simp [Opens]
  | cons text rest =>
    obtain ⟨c, letters, shape, starts⟩ := (told text List.mem_cons_self).starts
    simp [Opens, List.flatMap_cons, shape, starts]

/-- A text that is made of lines is cut into them in one way. -/
theorem encode_inj {texts others : List String} (told : ∀ text ∈ texts, Line text.toList)
    (told' : ∀ text ∈ others, Line text.toList) (same : encode texts = encode others) : texts = others := by
  rw [encode_eq, encode_eq] at same
  have letters := String.ofList_injective (Bytes.ofText_injective same)
  clear same
  induction texts generalizing others with
  | nil =>
    cases others with
    | nil => rfl
    | cons other rest => simp at letters
  | cons text rest ih =>
    cases others with
    | nil => simp at letters
    | cons other rest' =>
      simp only [List.flatMap_cons, List.append_assoc, List.singleton_append] at letters
      obtain ⟨first, told⟩ := List.forall_mem_cons.mp told
      obtain ⟨first', told'⟩ := List.forall_mem_cons.mp told'
      obtain ⟨heads, letters⟩ := first.append_inj first' (opens_flatMap told) (opens_flatMap told') letters
      rw [String.toList_inj.mp heads, ih told told' letters]

/-- SHA-256 does not collide on the lines of two trees, nor on what they have in files and
    links at one place. -/
structure Apart (exclude : List String) (node other : Node) : Prop where
  lines : Sha256.Apart (encode (rootLines exclude node)) (encode (rootLines exclude other))
  payloads : ∀ place found found', Open exclude place → node.at? place = some found → other.at? place = some found' →
    Sha256.Apart found.payload found'.payload

theorem Apart.symm (apart : Apart exclude node other) : Apart exclude other node :=
  ⟨fun same => (apart.lines same.symm).symm, fun place found found' opened there there' same =>
    (apart.payloads place found' found opened there' there same.symm).symm⟩

section
variable (lists : (Node.folder entries).Lists Tellable exclude) (lists' : (Node.folder entries').Lists Tellable exclude)
include lists

theorem line_of_mem_entryLines : ∀ text ∈ entryLines exclude "" entries, Line text.toList := by
  intro text told
  obtain ⟨place, found, _, opened, there, rfl⟩ := exists_of_mem_entryLines lists told
  exact line_line (unbroken_spelling (lists.names opened there) (unbroken_of_not_mem (by simp))) found

include lists'

/-- What shows in one of two folders with the same lines shows in the other one. -/
theorem face?_of_entryLines {found : Node} (apart : Apart exclude (.folder entries) (.folder entries'))
    (same : entryLines exclude "" entries = entryLines exclude "" entries') (opened : Open exclude place)
    (there : (Node.folder entries).at? place = some found) : (Node.folder entries').face? place = some found.face := by
  by_cases filled : place = []
  · subst filled
    cases there
    rfl
  have told : line (spelling "" place) found ∈ entryLines exclude "" entries := by
    obtain ⟨name, rest, rfl⟩ := List.exists_cons_of_ne_nil filled
    obtain ⟨child, held, there⟩ := at?_cons.mp there
    obtain ⟨shown, opened⟩ := open_cons.mp opened
    exact mem_entryLines.mpr ⟨name, child, Dict.mem_of_get? held, shown, line_mem_lines opened there _⟩
  -- in the other folder the line belongs to the same place, since its path is spelled out
  rw [same] at told
  obtain ⟨place', found', filled', opened', there', alike⟩ := exists_of_mem_entryLines lists' told
  obtain ⟨paths, faces⟩ := line_inj alike
  obtain rfl : place = place' :=
    spelling_inj (lists.names opened there) (lists'.names opened' there') filled filled' paths
  rw [face?, there', Option.map_some, faces (apart.payloads place found found' opened there there')]

/-- Where SHA-256 does not collide and names can be told, two folders have one hash exactly
    when they look the same at all places without an excluded name. -/
theorem ofNode_eq_iff_of_tellable (apart : Apart exclude (.folder entries) (.folder entries')) :
    ofNode exclude (.folder entries) = ofNode exclude (.folder entries') ↔
      ∀ place, Open exclude place → (Node.folder entries).face? place = (Node.folder entries').face? place := by
  constructor
  · intro hashes place opened
    have same : entryLines exclude "" entries = entryLines exclude "" entries' :=
      encode_inj (line_of_mem_entryLines lists) (line_of_mem_entryLines lists')
        (apart.lines (Bytes.hex_injective hashes))
    cases there : (Node.folder entries).at? place with
    | some found => rw [face?, there, face?_of_entryLines lists lists' apart same opened there, Option.map_some]
    | none =>
      cases there' : (Node.folder entries').at? place with
      | none => rw [face?, there, face?, there']
      | some found' =>
        have shown := face?_of_entryLines lists' lists apart.symm same.symm opened there'
        simp [face?, there] at shown
  · intro faces
    have same := lines_congr lists lists' faces ""
    rw [lines, lines, List.cons.injEq] at same
    rw [ofNode, ofNode, rootLines, rootLines, same.2]

end

/-- So it is where all names can be told in a line. -/
theorem ofNode_eq_iff (legible : (Node.folder entries).Legible exclude) (legible' : (Node.folder entries').Legible exclude)
    (apart : Apart exclude (.folder entries) (.folder entries')) :
    ofNode exclude (.folder entries) = ofNode exclude (.folder entries') ↔
      ∀ place, Open exclude place → (Node.folder entries).face? place = (Node.folder entries').face? place :=
  ofNode_eq_iff_of_tellable legible.tellable legible'.tellable apart

end TreeHash
end Pkgset

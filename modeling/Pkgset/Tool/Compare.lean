import Pkgset.Shell.Pattern
import Pkgset.Text.Calendar
import Pkgset.Text.Changes
import Pkgset.Tool.Files
import Pkgset.Tool.Intake

/-!
# Comparing files

Two files are compared byte by byte or line by line, two folders by what they hold under
the same names.
-/

namespace Pkgset.Tool
open Kernel

/-! ## Bytes -/

/-- The place of the first byte in which two texts differ, with the number of its line. -/
def firstDifference : List Char → List Char → Nat → Nat → Option (Nat × Nat × Char × Char)
  | a :: rest, b :: others, place, line =>
    if a = b then firstDifference rest others (place + 1) (if a = '\n' then line + 1 else line)
    else some (place, line, a, b)
  | _, _, _, _ => none

/-- Compares two files byte by byte. -/
def cmp (arguments : List String) : Work Nat := do
  let advice (name : String) : String := name ++ ": Try '" ++ name ++ " --help' for more information.\n"
  let grammar := { Grammar.plain "b/print-bytes i/ignore-initial: l/verbose n/bytes: s/quiet s/silent" true 2 with advice }
  let given ← grammar.given arguments
  let (first, second) ← match given.operands with
    | [] => grammar.refuse ("missing operand after " ++ quoted (← Work.name))
    | [path] => pure (path, "-")
    | path :: other :: _ => pure (path, other)
  let silent := given.has "s"
  let read (path : String) : Work (List Char) := do
    match ← Work.input path with
    | .ok text => return text.toList
    | .error cause =>
      if !silent || cause ≠ .notFound then Work.warn (path ++ ": " ++ cause.message)
      Work.leave 2
  let skipped := ((given.last? "i").bind size?).getD 0
  let part (text : List Char) : List Char :=
    let text := text.drop skipped
    match (given.last? "n").bind size? with
    | some n => text.take n
    | none => text
  let a := part (← read first)
  let b := part (← read second)
  let (shorter, size) := if a.length < b.length then (first, a) else (second, b)
  let ended : Work Nat := do
    if a.length = b.length then return 0
    if !silent then
      Work.flush
      Work.complain ((← Work.name) ++ ": EOF on " ++ shorter ++
        (if size.isEmpty then " which is empty"
          else " after byte " ++ digits size.length ++
            (if given.has "l" then ""
              else
                let lines := size.count '\n'
                if size.getLast? = some '\n' then ", line " ++ digits lines else ", in line " ++ digits (lines + 1))) ++ "\n")
    return 1
  let octal (c : Char) : String := right 3 (String.ofList (Nat.toDigits 8 c.toNat))
  if given.has "l" && !silent then
    let width := (digits (max a.length b.length)).length
    let different := (a.zip b).zipIdx.filter fun ((a, b), _) => a ≠ b
    for ((a, b), place) in different do
      Work.put (right width (digits (place + 1)) ++ " " ++ octal a ++ " " ++ octal b ++ "\n")
    let status ← ended
    return if different.isEmpty then status else 1
  match firstDifference a b 1 1 with
  | none => ended
  | some (place, line, x, y) =>
    if !silent then
      let shown := if given.has "b" then " is " ++ octal x ++ " " ++ x.toString ++ " " ++ octal y ++ " " ++ y.toString
        else ""
      Work.put (first ++ " " ++ second ++ " differ: " ++ (if given.has "b" then "byte " else "char ") ++ digits place ++ ", line " ++ digits line ++ shown ++ "\n")
    return 1

/-! ## Lines -/

namespace Compare

/-- How changes are written: on their own, with lines around them, or so that two parts
    stand side by side. -/
inductive Style where
  | plain | unified (context : Nat) | parts (context : Nat)
  | script

/-- How files are compared. -/
structure Manner where
  style : Style
  given : Given
  /-- The arguments that tell how, as they were given. -/
  told : List String
  labels : List String

/-- Whether an option was given. -/
def Manner.has (manner : Manner) (key : String) : Bool := manner.given.has key

/-- The number of lines around changes. -/
def Manner.context (manner : Manner) : Nat :=
  match manner.style with
  | .unified n | .parts n => n
  | _ => 0

/-- One of the things that are compared: its path, and what is known of it; something that
    is missing counts as empty if that is asked for. -/
structure Side where
  path : String
  inode : Option Inode

/-- A line as it is compared. -/
def key (manner : Manner) (line : List Char) : List Char :=
  let isBlank (c : Char) : Bool := c = ' ' || ('\t' ≤ c && c ≤ '\r' && c ≠ '\n')
  let ended := line.getLast? = some '\n'
  let ignores := manner.has "w" || manner.has "b" || manner.has "Z"
  let body := bare '\n' line
  let body := if manner.has "strip-trailing-cr" && body.getLast? = some '\r' then body.dropLast else body
  let trimmed := (body.reverse.dropWhile isBlank).reverse
  let rec squeezed : List Char → List Char
    | [] => []
    | [c] => [if isBlank c then ' ' else c]
    | c :: d :: rest => if isBlank c && isBlank d then squeezed (d :: rest)
      else (if isBlank c then ' ' else c) :: squeezed (d :: rest)
  let body := if manner.has "w" then body.filter (!isBlank ·)
    else if manner.has "b" then squeezed trimmed
    else if manner.has "Z" then trimmed
    else body
  let body := if manner.has "i" then body.map Char.toLower else body
  if ended || ignores then body ++ ['\n'] else body

/-- A line behind a mark. A line that is not ended is followed by a note. -/
def marked (mark : String) (line : List Char) : String :=
  mark ++ String.ofList line ++ (if line.getLast? = some '\n' then "" else "\n\\ No newline at end of file\n")

/-- The numbers of the first and the last of some lines, the last one alone if there are
    not two. -/
def span (start count : Nat) : String :=
  if count ≤ 1 then digits (start + count) else digits (start + 1) ++ "," ++ digits (start + count)

/-- The number of the first of some lines and how many there are. -/
def spanOf (start count : Nat) : String :=
  if count = 0 then digits start ++ ",0" else if count = 1 then digits (start + 1)
  else digits (start + 1) ++ "," ++ digits count

/-- Some lines of a text. -/
def slice {α : Type} (lines : List α) (start count : Nat) : List α := (lines.drop start).take count

/-- A change on its own. -/
def plainChange (old new : List (List Char)) (change : Change) : String :=
  let letter := if change.removed = 0 then "a" else if change.added = 0 then "d" else "c"
  let removed := (slice old change.old change.removed).map (marked "< ")
  let added := (slice new change.new change.added).map (marked "> ")
  span change.old change.removed ++ letter ++ span change.new change.added ++ "\n" ++ String.join removed ++
    (if letter = "c" then "---\n" else "") ++ String.join added

/-- Puts changes together that are near each other. -/
def hunks (context : Nat) : List Change → List (List Change)
  | [] => []
  | change :: rest =>
    match hunks context rest with
    | (next :: others) :: more =>
      if next.old < change.old + change.removed + 2 * context + 1 then (change :: next :: others) :: more
      else [change] :: (next :: others) :: more
    | more => [change] :: more

/-- The changes of a hunk: where it starts and how many lines it has, in both texts. -/
def extent (context oldSize newSize : Nat) (changes : List Change) : Nat × Nat × Nat × Nat :=
  let first := changes.headD ⟨0, 0, 0, 0⟩
  let last := changes.getLastD ⟨0, 0, 0, 0⟩
  let oldStart := first.old - context
  let newStart := first.new - context
  let oldStop := min oldSize (last.old + last.removed + context)
  let newStop := min newSize (last.new + last.added + context)
  (oldStart, oldStop - oldStart, newStart, newStop - newStart)

/-- A hunk in which both texts stand together. -/
def unifiedHunk (context : Nat) (old new : List (List Char)) (changes : List Change) : String :=
  let (oldStart, oldCount, newStart, newCount) := extent context old.length new.length changes
  let (body, place) := changes.foldl (fun (body, place) change =>
    let same := (slice old place (change.old - place)).map (marked " ")
    let removed := (slice old change.old change.removed).map (marked "-")
    let added := (slice new change.new change.added).map (marked "+")
    (body ++ String.join same ++ String.join removed ++ String.join added, change.old + change.removed)) ("", oldStart)
  let rest := (slice old place (oldStart + oldCount - place)).map (marked " ")
  "@@ -" ++ spanOf oldStart oldCount ++ " +" ++ spanOf newStart newCount ++ " @@\n" ++ body ++ String.join rest

/-- One text of a hunk, with the changes in it. -/
def part (lines : List (List Char)) (start count : Nat) (mark : String) (changes : List (Nat × Nat × Bool)) : String :=
  let (body, place) := changes.foldl (fun (body, place) (change : Nat × Nat × Bool) =>
    let (at_, size, both) := change
    let same := (slice lines place (at_ - place)).map (marked "  ")
    let changed := (slice lines at_ size).map (marked (if both then "! " else mark))
    (body ++ String.join same ++ String.join changed, at_ + size)) ("", start)
  body ++ String.join ((slice lines place (start + count - place)).map (marked "  "))

/-- A hunk in which one text stands behind the other. -/
def partedHunk (context : Nat) (old new : List (List Char)) (changes : List Change) : String :=
  let (oldStart, oldCount, newStart, newCount) := extent context old.length new.length changes
  let both (change : Change) : Bool := change.removed ≠ 0 && change.added ≠ 0
  let oldPart := if changes.all (·.removed = 0) then ""
    else part old oldStart oldCount "- " (changes.map fun change => (change.old, change.removed, both change))
  let newPart := if changes.all (·.added = 0) then ""
    else part new newStart newCount "+ " (changes.map fun change => (change.new, change.added, both change))
  "***************\n*** " ++ span oldStart oldCount ++ " ****\n" ++ oldPart ++ "--- " ++ span newStart newCount ++ " ----\n" ++
    newPart

/-- Commands of an editor that make one text of the other. -/
def scripted (new : List (List Char)) (change : Change) : String :=
  let letter := if change.removed = 0 then "a" else if change.added = 0 then "d" else "c"
  let added := (slice new change.new change.added).map fun line => String.ofList (bare '\n' line) ++ "\n"
  span change.old change.removed ++ letter ++ "\n" ++ (if change.added = 0 then "" else String.join added ++ ".\n")

/-- The line that names one of two files. -/
def header (mark : String) (side : Side) (label : Option String) (now : Int) : String :=
  match label with
  | some label => mark ++ " " ++ label ++ "\n"
  | none =>
    let moment := if side.path = "-" then now else side.inode.elim 0 (·.modified)
    let shown := Moment.format (Int.fdiv moment 1000000000) (Int.emod moment 1000000000).toNat "%Y-%m-%d %H:%M:%S.%N %z"
    mark ++ " " ++ side.path ++ "\t" ++ shown ++ "\n"

/-- Changes of files as they are written. -/
def written (manner : Manner) (a b : Side) (now : Int) (old new : List (List Char)) (changes : List Change) : String :=
  let heads (first second : String) : String :=
    header first a manner.labels[0]? now ++ header second b manner.labels[1]? now
  match manner.style with
  | .plain => String.join (changes.map (plainChange old new))
  | .unified context =>
    heads "---" "+++" ++ String.join ((hunks context changes).map (unifiedHunk context old new))
  | .parts context =>
    heads "***" "---" ++ String.join ((hunks context changes).map (partedHunk context old new))
  | .script => String.join (changes.reverse.map (scripted new))

/-- Says that something has gone wrong, and gives the status for that. -/
def trouble (path : String) (cause : Cause) : Work Nat := do
  Work.warn (path ++ ": " ++ cause.message)
  return 2

/-- What is compared with what is at a path. -/
def sideOf (manner : Manner) (path : String) : Work (Except Cause Side) := do
  if path = "-" then
    return (← Work.inspect true "/dev/stdin").map fun (_, inode) => ⟨path, some inode⟩
  return (← Work.inspect (!manner.has "no-dereference") path).map fun (_, inode) => ⟨path, some inode⟩

/-- The text of a file; one that is missing is empty. -/
def textOf (side : Side) : Work (Except Cause String) :=
  if side.inode.isNone then return .ok "" else Work.input side.path

/-- Compares two files that are no folders. -/
def files (manner : Manner) (inTree : Bool) (a b : Side) : Work Nat := do
  match ← textOf a, ← textOf b with
  | .error cause, .error other =>
    discard (trouble a.path cause)
    trouble b.path other
  | .error cause, _ => trouble a.path cause
  | _, .error cause => trouble b.path cause
  | .ok old, .ok new =>
    let same : Work Nat := do
      if manner.has "s" then Work.put ("Files " ++ a.path ++ " and " ++ b.path ++ " are identical\n")
      return 0
    if old = new then same
    else
      let simple := ! ["i", "w", "b", "B", "Z", "I", "strip-trailing-cr"].any manner.has
      let isBinary : Bool := !manner.has "a" && (old.contains '\x00' || new.contains '\x00')
      if manner.has "q" && (simple || isBinary) then
        Work.put ("Files " ++ a.path ++ " and " ++ b.path ++ " differ\n")
        return 1
      if isBinary then
        Work.put ("Binary files " ++ a.path ++ " and " ++ b.path ++ " differ\n")
        return 1
      let oldLines := wholeLines '\n' old.toList
      let newLines := wholeLines '\n' new.toList
      let changes := Changes.between manner.context (oldLines.map (key manner)) (newLines.map (key manner))
      let isBlank (line : List Char) : Bool := line = ['\n']
      let counts (change : Change) : Bool := !manner.has "B" ||
        !((slice oldLines change.old change.removed ++ slice newLines change.new change.added).all isBlank)
      let changes := changes.filter counts
      if changes.isEmpty then same
      else if manner.has "q" then
        Work.put ("Files " ++ a.path ++ " and " ++ b.path ++ " differ\n")
        return 1
      else
        let now ← Work.act (Act.look fun world _ => (world.now : Int))
        if inTree then
          let words := ["diff"] ++ (manner.told ++ [a.path, b.path]).map named
          Work.put (" ".intercalate words ++ "\n")
        Work.put (written manner a b now oldLines newLines changes)
        return 1

/-- Whether a name is passed over. -/
def isPassedOver (manner : Manner) (name : String) : Bool :=
  (manner.given.all "x").any fun pattern =>
    Shell.Pattern.accepts (Shell.Pattern.ofWritten true (pattern.toList.map (·, false))) name.toList

/-- Compares two things, within a depth. -/
def compare (manner : Manner) : Nat → Bool → Side → Side → Work Nat
  | 0, _, _, _ => return 2
  | bound + 1, inTree, a, b => do
    let isFolder (side : Side) : Bool := side.inode.any (·.isFolder)
    let isLink (side : Side) : Bool := side.inode.any (·.isLink)
    let emptyFolder (side : Side) (other : Side) : Bool := side.inode.isNone && isFolder other
    if (isFolder a || emptyFolder a b) && (isFolder b || emptyFolder b a) then
      if inTree && !manner.has "r" then
        Work.put ("Common subdirectories: " ++ a.path ++ " and " ++ b.path ++ "\n")
        return 0
      let entries (side : Side) : Work (List String) := do
        if side.inode.isNone then return []
        match ← Work.entries side.path with
        | .ok names => return names.filter (!isPassedOver manner ·)
        | .error cause =>
          discard (trouble side.path cause)
          return []
      let first ← entries a
      let second ← entries b
      let names := ((first ++ second).eraseDups).mergeSort fun a b => !decide (b < a)
      let mut status := 0
      for name in names do
        let inFirst := first.contains name
        let one ← if inFirst && second.contains name then do
            match ← sideOf manner (within a.path name), ← sideOf manner (within b.path name) with
            | .ok x, .ok y => compare manner bound true x y
            | .error cause, _ => trouble (within a.path name) cause
            | _, .error cause => trouble (within b.path name) cause
          else do
            let here := if inFirst then a else b
            if !(manner.has "N" || (!inFirst && manner.has "unidirectional-new-file")) then
              Work.put ("Only in " ++ here.path ++ ": " ++ name ++ "\n")
              pure 1
            else match ← sideOf manner (within here.path name) with
              | .error cause => trouble (within here.path name) cause
              | .ok side =>
                if inFirst then compare manner bound true side ⟨within b.path name, none⟩
                else compare manner bound true ⟨within a.path name, none⟩ side
        status := max status one
      return status
    else if isLink a && isLink b then
      match a.inode.map Inode.content, b.inode.map Inode.content with
      | some (.link x), some (.link y) =>
        if x = y then return 0
        Work.put ("Symbolic links " ++ a.path ++ " and " ++ b.path ++ " differ\n")
        return 1
      | _, _ => return 0
    else if isFolder a != isFolder b || isLink a != isLink b then
      match a.inode, b.inode with
      | some x, some y =>
        Work.put ("File " ++ a.path ++ " is a " ++ kindText x ++ " while file " ++ b.path ++ " is a " ++ kindText y ++ "\n")
        return 1
      | _, _ => return 1
    else files manner inTree a b
/-- The arguments that are no operands, if the operands are the last ones of their texts. -/
def withoutOperands (arguments operands : List String) : List String :=
  let (kept, _) := arguments.reverse.foldl (fun (kept, left) argument =>
    match left with
    | operand :: rest => if operand = argument then (kept, rest) else (argument :: kept, left)
    | [] => (argument :: kept, [])) (([] : List String), operands.reverse)
  kept

/-- How changes are written, by options. -/
def styleOf (given : Given) : Style :=
  let number (keys : List String) : Nat :=
    let digits := (given.options.map fun (key, _) => key.toList).flatten.filter Char.isDigit
    let told (value : String) : Nat := (natural? value).getD (if digits.isEmpty then 3 else Decimal.ofDigits digits)
    ((given.options.filter fun (key, _) => keys.contains key).map fun (_, value) => told value).foldl max 0
  match given.lastOf? ["u", "U", "unified", "c", "C", "context", "e", "normal"] with
  | some "u" | some "U" | some "unified" => .unified (number ["u", "U", "unified"])
  | some "c" | some "C" | some "context" => .parts (number ["c", "C", "context"])
  | some "e" => .script
  | _ => .plain

end Compare

/-- Compares files line by line, and folders. -/
def diff (arguments : List String) : Work Nat := do
  let advice (name : String) : String := name ++ ": Try '" ++ name ++ " --help' for more information.\n"
  let grammar := { Grammar.plain
      "0 1 2 3 4 5 6 7 8 9 q/brief s/report-identical-files c C: /context? u U: /unified? e/ed /normal r/recursive N/new-file P /unidirectional-new-file /no-dereference x/exclude: i/ignore-case w/ignore-all-space b/ignore-space-change B/ignore-blank-lines Z/ignore-trailing-space E/ignore-tab-expansion /strip-trailing-cr a/text L/label: p/show-c-function t/expand-tabs T/initial-tab d/minimal H/speed-large-files /horizon-lines: /color? I/ignore-matching-lines:"
      true 2 with advice }
  let given ← grammar.given arguments
  let manner : Compare.Manner :=
    ⟨Compare.styleOf given, given, Compare.withoutOperands arguments given.operands, given.all "L"⟩
  let (first, second) ← match given.operands with
    | [] => grammar.refuse ("missing operand after " ++ quoted ((arguments.getLast?).getD (← Work.name)))
    | [path] => grammar.refuse ("missing operand after " ++ quoted path)
    | [path, other] => pure (path, other)
    | _ :: _ :: extra :: _ => grammar.refuse ("extra operand " ++ quoted extra)
  let isFolder? (path : String) : Work (Option Bool) := do
    if path = "-" then return some false
    return (← Work.inspect true path).toOption.map fun (_, inode) => inode.isFolder
  let (a, b) ← match ← isFolder? first, ← isFolder? second with
    | some true, some false => pure (within first (lastName second), second)
    | some false, some true => pure (first, within second (lastName first))
    | _, _ => pure (first, second)
  let missing (path : String) (cause : Cause) : Bool := cause = .notFound && given.has "N" && path ≠ ""
  match ← Compare.sideOf manner a, ← Compare.sideOf manner b with
  | .ok x, .ok y => Compare.compare manner treeLimit false x y
  | .ok x, .error cause =>
    if missing b cause then Compare.compare manner treeLimit false x ⟨b, none⟩ else Compare.trouble b cause
  | .error cause, .ok y =>
    if missing a cause then Compare.compare manner treeLimit false ⟨a, none⟩ y else Compare.trouble a cause
  | .error cause, .error other =>
    discard (Compare.trouble a cause)
    Compare.trouble b other

end Pkgset.Tool

import Pkgset.Tool.Intake

/-!
# Programs that pass lines on

They show files, or their beginnings or ends, in one order or another, with numbers or
marks, or broken into shorter lines.
-/

namespace Pkgset.Tool
open Kernel

/-! ## Showing -/

/-- How a file is shown. -/
structure Showing where
  numbers : Bool
  numbersFilled : Bool
  squeezes : Bool
  ends : Bool
  tabs : Bool
  unseen : Bool

/-- How far showing has come: the number of the last line, how many empty lines have come
    one after another, and whether a line is about to start. -/
structure Shown where
  number : Nat
  empty : Nat
  atStart : Bool

namespace Showing

/-- A character that can be seen in place of one. -/
def mark (how : Showing) (c : Char) : String :=
  let low (n : Nat) : String :=
    if n < 32 then "^" ++ (Char.ofNat (n + 64)).toString
    else if n = 127 then "^?"
    else (Char.ofNat n).toString
  if c = '\t' then if how.tabs then "^I" else "\t"
  else if !how.unseen then c.toString
  else if c.toNat < 128 then low c.toNat
  else "M-" ++ low (c.toNat - 128)

/-- What stands in front of a line. -/
def front (number : Nat) : String := right 6 (digits number) ++ "\t"

/-- Shows a character. -/
def step (how : Showing) (shown : Shown) (c : Char) : Shown × String :=
  if c = '\n' then
    if shown.atStart then
      if how.squeezes && 1 ≤ shown.empty then (shown, "")
      else
        let counts := how.numbers && !how.numbersFilled
        let number := if counts then shown.number + 1 else shown.number
        (⟨number, shown.empty + 1, true⟩, (if counts then front number else "") ++ (if how.ends then "$\n" else "\n"))
    else (⟨shown.number, 0, true⟩, if how.ends then "$\n" else "\n")
  else
    let counts := shown.atStart && (how.numbers || how.numbersFilled)
    let number := if counts then shown.number + 1 else shown.number
    (⟨number, 0, false⟩, (if counts then front number else "") ++ how.mark c)

end Showing

/-- Passes on all that a descriptor gives, within a number of parts. -/
def passOn (intake : Intake) : Nat → Work (Option Cause)
  | 0 => return none
  | bound + 1 => do
    let intake ← intake.more
    if intake.ended then return intake.fault
    Work.putNow (String.ofList intake.waiting)
    passOn { intake with waiting := [] } bound

/-- Shows files, one after another. -/
def cat (arguments : List String) : Work Nat := do
  let given ← Work.options
    "b/number-nonblank n/number s/squeeze-blank v/show-nonprinting E/show-ends T/show-tabs A/show-all e t u" arguments
  let how : Showing := ⟨given.has "n", given.has "b", given.has "s", given.has "E" || given.has "e" || given.has "A",
    given.has "T" || given.has "t" || given.has "A", given.has "v" || given.has "e" || given.has "t" || given.has "A"⟩
  let isPlain := given.options.all fun (key, _) => key = "u"
  let mut status := 0
  let mut shown : Shown := ⟨0, 0, true⟩
  for path in if given.operands.isEmpty then ["-"] else given.operands do
    let isTarget ← Work.isOutput path
    if isTarget then
      Work.warn (named path ++ ": input file is output file")
      status := 1
    else
      match ← Intake.start path with
      | .error cause =>
        Work.warn (about path cause)
        status := 1
      | .ok intake =>
        let fault ← if isPlain then passOn intake Act.partLimit else do
          let (last, intake) ← intake.foldLines '\n' (fun shown line => do
            let (last, texts) := line.foldl (fun (shown, texts) c =>
              let (shown, text) := how.step shown c
              (shown, text :: texts)) (shown, [])
            Work.put (String.join texts.reverse)
            return last) lineLimit shown
          shown := last
          pure intake.fault
        intake.stop
        if let some cause := fault then
          Work.warn (about path cause)
          status := 1
  let readsInput := given.operands.isEmpty || given.operands.contains "-"
  let isClosed ← Work.act (Act.look fun world id => (world.descriptor? id 0).isNone)
  if readsInput && isClosed then Work.fail 1 ("closing standard input: " ++ Cause.message .badDescriptor)
  return status

/-- Shows the lines of files from the last to the first. -/
def tac (arguments : List String) : Work Nat := do
  let given ← Work.options "b/before r/regex s/separator:" arguments
  let mut status := 0
  for path in if given.operands.isEmpty then ["-"] else given.operands do
    match ← Work.input path with
    | .ok text => Work.put (String.join ((wholeLines '\n' text.toList).reverse.map String.ofList))
    | .error .isFolder =>
      Work.warn (named path ++ ": read error: " ++ Cause.message .invalid)
      status := 1
    | .error cause =>
      Work.warn ("failed to open " ++ quoted path ++ " for reading: " ++ cause.message)
      status := 1
  return status

/-- Shows the characters of each line from the last to the first. -/
def rev (arguments : List String) : Work Nat := do
  let given ← Work.options "0/zero" arguments
  let mut status := 0
  for path in if given.operands.isEmpty then ["-"] else given.operands do
    match ← Work.input path with
    | .ok text =>
      for line in wholeLines '\n' text.toList do
        Work.put (String.ofList ((bare '\n' line).reverse ++ (if isOpen '\n' line then [] else ['\n'])))
    | .error cause =>
      Work.warn ("cannot open " ++ path ++ ": " ++ cause.message)
      status := 1
  return status

/-! ## Beginnings and ends -/

/-- The name that a file is shown under. -/
def shownName (path : String) : String := if path = "-" then "standard input" else path

/-- Shows the name of a file before its content. -/
def heading (isFirst : Bool) (path : String) : Work Unit :=
  Work.put ((if isFirst then "" else "\n") ++ "==> " ++ shownName path ++ " <==\n")

/-- Passes on a number of lines, within a number of them. -/
def firstLines (ending : Char) : Nat → Intake → Work Intake
  | 0, intake => return intake
  | count + 1, intake => do
    let (line, intake) ← intake.line ending
    match line with
    | none => return intake
    | some line =>
      Work.put (String.ofList line)
      firstLines ending count intake

/-- A count of lines or characters, from the beginning or the end. -/
structure Measure where
  ofLines : Bool
  fromOther : Bool
  count : Nat

/-- What an old form of an option stands for: a sign, a number, and letters. -/
def oldMeasure? (text : String) : Option (List String) :=
  match text.toList with
  | '-' :: rest =>
    let number := rest.takeWhile Char.isDigit
    let letters := rest.drop number.length
    if number.isEmpty || !letters.all "cbkmlqv".toList.contains then none
    else
      let unit := letters.filter "cbkm".toList.contains
      let count := String.ofList number ++ (if unit.getLast? = some 'c' then "" else String.ofList (unit.reverse.take 1))
      some ((if unit.isEmpty then "-n" else "-c") :: count :: (letters.filter "qv".toList.contains).map fun c => "-" ++ c.toString)
  | _ => none

/-- Shows the beginnings of files. -/
def head (arguments : List String) : Work Nat := do
  let arguments := match arguments with
    | first :: rest => (oldMeasure? first).elim arguments (· ++ rest)
    | [] => []
  let given ← Work.options "c/bytes: n/lines: q/quiet q/silent v/verbose z/zero-terminated" arguments
  let measure : Measure ← match given.lastOf? ["c", "n"] with
    | none => pure ⟨true, false, 10⟩
    | some key => do
      let told := (given.last? key).getD ""
      let ofLines := decide (key = "n")
      let isBack := told.startsWith "-"
      match size? (if isBack then (told.drop 1).toString else told) with
      | some count => pure ⟨ofLines, isBack, count⟩
      | none => Work.fail 1 ("invalid number of " ++ (if ofLines then "lines" else "bytes") ++ ": " ++ quoted told)
  let ending := if given.has "z" then '\x00' else '\n'
  let paths := if given.operands.isEmpty then ["-"] else given.operands
  let names := match given.lastOf? ["q", "v"] with
    | some "q" => false
    | some _ => true
    | none => decide (1 < paths.length)
  let mut status := 0
  let mut isFirst := true
  for path in paths do
    match ← Intake.start path with
    | .error cause =>
      Work.warn ("cannot open " ++ quoted path ++ " for reading: " ++ cause.message)
      status := 1
    | .ok intake =>
      if names then heading isFirst path
      isFirst := false
      let intake ← match measure with
        | ⟨true, false, count⟩ => firstLines ending count intake
        | ⟨false, false, count⟩ => do
          let intake ← intake.moreUntil (fun waiting => decide (count ≤ waiting.length)) Act.partLimit
          Work.put (String.ofList (intake.waiting.take count))
          pure { intake with waiting := intake.waiting.drop count }
        | ⟨true, true, count⟩ => do
          let intake ← intake.all
          let lines := wholeLines ending intake.waiting
          Work.put (String.ofList (lines.take (lines.length - count)).flatten)
          pure { intake with waiting := (lines.drop (lines.length - count)).flatten }
        | ⟨false, true, count⟩ => do
          let intake ← intake.all
          let size := intake.waiting.length - count
          Work.put (String.ofList (intake.waiting.take size))
          pure { intake with waiting := intake.waiting.drop size }
      if let some cause := intake.fault then
        Work.warn ("error reading " ++ quoted (shownName path) ++ ": " ++ cause.message)
        status := 1
      intake.giveBack
      intake.stop
  return status

/-- What an old form of an option of ends stands for: a sign, a number, a unit. -/
def oldEnd? (text : String) : Option (List String) :=
  match text.toList with
  | sign :: rest =>
    let number := rest.takeWhile Char.isDigit
    let letters := rest.drop number.length
    let mark := if sign = '+' then "+" else ""
    if (sign ≠ '-' && sign ≠ '+') || number.isEmpty then none
    else match letters with
      | [] | ['l'] => some ["-n", mark ++ String.ofList number]
      | ['c'] => some ["-c", mark ++ String.ofList number]
      | ['b'] => some ["-c", mark ++ String.ofList number ++ "b"]
      | _ => none
  | [] => none

/-- Shows the ends of files. -/
def tail (arguments : List String) : Work Nat := do
  let arguments ← match arguments with
    | first :: rest =>
      match oldEnd? first with
      | none => pure arguments
      | some options =>
        let isLast : Bool := match rest with
          | [] => true
          | [path] => path = "-" || !path.startsWith "-"
          | _ => false
        if isLast then pure (options ++ rest)
        else if first.startsWith "-" then
          Work.fail 1 ("option used in invalid context -- " ++ ((first.drop 1).toString.toList.headD ' ').toString)
        else pure arguments
    | [] => pure []
  let given ← Work.options
    "c/bytes: f/follow? F n/lines: /pid: q/quiet q/silent /retry s/sleep-interval: v/verbose z/zero-terminated" arguments
  let measure : Measure ← match given.lastOf? ["c", "n"] with
    | none => pure ⟨true, false, 10⟩
    | some key => do
      let told := (given.last? key).getD ""
      let ofLines := decide (key = "n")
      let body := if told.startsWith "+" || told.startsWith "-" then (told.drop 1).toString else told
      match size? body with
      | some count => pure ⟨ofLines, told.startsWith "+", count⟩
      | none => Work.fail 1 ("invalid number of " ++ (if ofLines then "lines" else "bytes") ++ ": " ++ quoted told)
  let ending := if given.has "z" then '\x00' else '\n'
  let paths := if given.operands.isEmpty then ["-"] else given.operands
  let names := match given.lastOf? ["q", "v"] with
    | some "q" => false
    | some _ => true
    | none => decide (1 < paths.length)
  let mut status := 0
  let mut isFirst := true
  for path in paths do
    match ← Intake.start path with
    | .error cause =>
      Work.warn ("cannot open " ++ quoted path ++ " for reading: " ++ cause.message)
      status := 1
    | .ok intake =>
      if names then heading isFirst path
      isFirst := false
      let intake ← intake.all
      intake.stop
      if let some cause := intake.fault then
        Work.warn ("error reading " ++ quoted (shownName path) ++ ": " ++ cause.message)
        status := 1
      let text := intake.waiting
      let lines := wholeLines ending text
      Work.put (String.ofList (match measure with
        | ⟨true, false, count⟩ => (lines.drop (lines.length - count)).flatten
        | ⟨true, true, count⟩ => (lines.drop (count - 1)).flatten
        | ⟨false, false, count⟩ => text.drop (text.length - count)
        | ⟨false, true, count⟩ => text.drop (count - 1)))
  return status

/-- Passes on what it reads, and writes it to files too. -/
def tee (arguments : List String) : Work Nat := do
  let given ← Work.options "a/append i/ignore-interrupts p /output-error?" arguments
  let mut status := 0
  let mut targets : List Nat := []
  for path in given.operands do
    match ← Work.act (Act.openFile path (if given.has "a" then .addition else .output) 0o666) with
    | .ok descriptor => targets := targets ++ [descriptor]
    | .error cause =>
      Work.warn (about path cause)
      status := 1
  passAll targets Intake.standard Act.partLimit
  return status
where
  /-- Passes on to all targets, within a number of parts. -/
  passAll (targets : List Nat) (intake : Intake) : Nat → Work Unit
    | 0 => return ()
    | bound + 1 => do
      let intake ← intake.more
      if intake.ended then return ()
      let text := String.ofList intake.waiting
      Work.putNow text
      for target in targets do discard (Work.act (Act.write target (Raw.toArray text)))
      passAll targets { intake with waiting := [] } bound

/-! ## Counting -/

/-- What is counted of a text. -/
structure Tally where
  lines : Nat
  words : Nat
  bytes : Nat
  longest : Nat

namespace Tally

/-- Whether a character stands between words. -/
def isBlank (c : Char) : Bool := [' ', '\t', '\n', '\x0b', '\x0c', '\r'].contains c

/-- What is counted of a text. -/
def ofText (text : String) : Tally :=
  let chars := text.toList
  let (words, _) := chars.foldl (fun (words, inside) c =>
    if isBlank c then (words, false) else (if inside then words else words + 1, true)) (0, false)
  let width (line : List Char) : Nat := line.foldl (fun column c =>
    if c = '\t' then (column / 8 + 1) * 8 else if 32 ≤ c.toNat && c.toNat < 127 then column + 1 else column) 0
  ⟨chars.count '\n', words, chars.length, ((linesOf '\n' chars).map width).foldl max 0⟩

/-- What is counted of two texts. -/
def add (a b : Tally) : Tally := ⟨a.lines + b.lines, a.words + b.words, a.bytes + b.bytes, max a.longest b.longest⟩

end Tally

/-- Counts the lines, words and characters of files. -/
def wc (arguments : List String) : Work Nat := do
  let given ← Work.options "c/bytes m/chars l/lines L/max-line-length w/words /files0-from: /total:" arguments
  let chosen (key : String) : Bool := given.has key || (given.options.isEmpty && ["l", "w", "c"].contains key)
  let parts (tally : Tally) : List Nat :=
    [("l", tally.lines), ("w", tally.words), ("m", tally.bytes), ("c", tally.bytes), ("L", tally.longest)].filterMap
      fun (key, count) => if chosen key then some count else none
  let paths := if given.operands.isEmpty then ["-"] else given.operands
  let mut known : List (Option Inode) := []
  for path in paths do
    known := known ++ [(← Work.call (Syscall.inspect · true (if path = "-" then "/dev/stdin" else path))).toOption.map (·.2)]
  let single := decide (paths.length = 1) && decide ((parts ⟨0, 0, 0, 0⟩).length = 1)
  let width : Nat :=
    if single || (known.headD none).isNone then 1
    else
      let total := (known.filterMap fun found => found.bind fun inode => if inode.isFile then some inode.size else none).foldl
        (· + ·) 0
      let least := if known.any fun found => found.any (!·.isFile) then 7 else 1
      max least (digits total).length
  let row (tally : Tally) (name : String) : String :=
    " ".intercalate ((parts tally).map fun count => right width (digits count)) ++ name ++ "\n"
  let mut status := 0
  let mut total : Tally := ⟨0, 0, 0, 0⟩
  for path in paths do
    let name := if given.operands.isEmpty then "" else " " ++ path
    match ← Work.input path with
    | .ok text =>
      let tally := Tally.ofText text
      total := total.add tally
      Work.put (row tally name)
    | .error cause =>
      Work.warn (about path cause)
      if cause = .isFolder then Work.put (row ⟨0, 0, 0, 0⟩ name)
      status := 1
  if 1 < paths.length then Work.put (row total " total")
  return status

/-! ## Numbering -/

/-- How lines are numbered. -/
structure Numbering where
  style : String
  format : String
  separator : String
  width : Nat
  step : Int

/-- The number of a line, as it is shown. -/
def Numbering.shown (how : Numbering) (number : Int) : String :=
  let text := integer number
  match how.format with
  | "ln" => left how.width text
  | "rz" =>
    let zeros := String.ofList (List.replicate (how.width - text.length) '0')
    if number < 0 then "-" ++ zeros ++ (text.drop 1).toString else zeros ++ text
  | _ => right how.width text

/-- Numbers the lines of files. -/
def nl (arguments : List String) : Work Nat := do
  let given ← Work.options
    "b/body-numbering: d/section-delimiter: f/footer-numbering: h/header-numbering: i/line-increment: l/join-blank-lines: n/number-format: p/no-renumber s/number-separator: v/starting-line-number: w/number-width:"
    arguments
  let number (key : String) (standard : Int) : Int := ((given.last? key).bind String.toInt?).getD standard
  let how : Numbering := ⟨(given.last? "b").getD "t", (given.last? "n").getD "rn", (given.last? "s").getD "\t",
    (number "w" 6).toNat, number "i" 1⟩
  let styles := [(['\\', ':', '\\', ':', '\\', ':'], (given.last? "h").getD "n"), (['\\', ':', '\\', ':'], how.style),
    (['\\', ':'], (given.last? "f").getD "n")]
  let start := number "v" 1
  let (_, status) ← Work.foldLines '\n' given.operands (fun (style, next) line => do
    let line := bare '\n' line
    match styles.lookup line with
    | some other =>
      Work.put "\n"
      return (other, if given.has "p" then next else start)
    | none =>
      if style = "a" || (style = "t" && !line.isEmpty) then
        Work.put (how.shown next ++ how.separator ++ String.ofList line ++ "\n")
        return (style, next + how.step)
      else
        Work.put (String.ofList (List.replicate (how.width + how.separator.length) ' ') ++ String.ofList line ++ "\n")
        return (style, next)) (how.style, start)
  return status

/-! ## Columns -/

/-- The column behind a character. -/
def columnAfter (countsBytes : Bool) (column : Nat) (c : Char) : Nat :=
  if countsBytes then column + 1
  else match c with
    | '\x08' => column - 1
    | '\r' => 0
    | '\t' => (column / 8 + 1) * 8
    | _ => column + 1

/-- A line broken so that no part of it is wider than a width. -/
def foldLine (countsBytes atBlanks : Bool) (width : Nat) (line : List Char) : List (List Char) :=
  let columnOf (text : List Char) : Nat := text.foldl (columnAfter countsBytes) 0
  let (done, last, _) := line.foldl (fun (done, current, column) c =>
    let after := columnAfter countsBytes column c
    if after ≤ width || current.isEmpty then (done, current ++ [c], after)
    else
      let front := if atBlanks then (current.reverse.dropWhile fun c => c ≠ ' ' && c ≠ '\t').reverse else []
      if front.isEmpty then (current :: done, [c], columnAfter countsBytes 0 c)
      else
        let rest := current.drop front.length ++ [c]
        (front :: done, rest, columnOf rest)) (([] : List (List Char)), ([] : List Char), 0)
  (last :: done).reverse

/-- Breaks lines that are too wide. -/
def fold (arguments : List String) : Work Nat := do
  let given ← Work.options "b/bytes s/spaces w/width:" arguments
  let width ← match given.last? "w" with
    | none => pure 80
    | some told =>
      match natural? told with
      | some width =>
        if width = 0 then Work.fail 1 ("invalid number of columns: " ++ quoted told ++ ": Numerical result out of range")
        else pure width
      | none => Work.fail 1 ("invalid number of columns: " ++ quoted told)
  Work.eachLine '\n' given.operands fun line => do
    let parts := foldLine (given.has "b") (given.has "s") width (bare '\n' line)
    Work.put ("\n".intercalate (parts.map String.ofList) ++ (if isOpen '\n' line then "" else "\n"))

/-- The next stop behind a column. -/
def nextStop (stops : List Nat) (column : Nat) : Nat :=
  match stops with
  | [] => (column / 8 + 1) * 8
  | [width] => (column / width + 1) * width
  | stops => (stops.find? (column < ·)).getD (column + 1)

/-- Reads where stops are. -/
def stopsOf (told : Option String) : Work (List Nat) := do
  match told with
  | none => return [8]
  | some text =>
    let parts := (text.splitOn ",").flatMap (·.splitOn " ")
    match parts.mapM natural? with
    | some stops => if stops.contains 0 then Work.fail 1 "tab size cannot be 0" else return stops
    | none =>
      let wrong := (text.toList.dropWhile fun c => c.isDigit || c = ',' || c = ' ')
      Work.fail 1 ("tab size contains invalid character(s): " ++ quoted (String.ofList wrong))

/-- Puts blanks in place of tabs. -/
def expand (arguments : List String) : Work Nat := do
  let given ← Work.options "i/initial t/tabs:" arguments
  let stops ← stopsOf (given.last? "t")
  Work.eachLine '\n' given.operands fun line => do
    let (shown, _, _) := line.foldl (fun (shown, column, inside) c =>
      if c = '\t' && !(given.has "i" && inside) then
        let stop := nextStop stops column
        (shown ++ List.replicate (stop - column) ' ', stop, inside)
      else (shown ++ [c], if c = '\x08' then column - 1 else column + 1, inside || c ≠ ' '))
      (([] : List Char), 0, false)
    Work.put (String.ofList shown)

/-- Blanks from one column to another, with tabs where more than one of them reaches a stop. -/
def tabsBetween (stops : List Nat) : Nat → Nat → Nat → List Char
  | 0, _, _ => []
  | bound + 1, start, stop =>
    let next := nextStop stops start
    if next ≤ stop && (start + 1 < next || next < stop) then '\t' :: tabsBetween stops bound next stop
    else List.replicate (stop - start) ' '

/-- How far blanks have been replaced: the characters so far, the column at which the last
    blanks start, the column reached, and whether something else has come. -/
structure Packing where
  shown : List Char
  start : Nat
  column : Nat
  inside : Bool

/-- The characters so far, with the last blanks packed. -/
def Packing.packed (packing : Packing) (stops : List Nat) : List Char :=
  packing.shown ++ tabsBetween stops (packing.column + 1) packing.start packing.column

/-- Puts tabs in place of blanks. -/
def unexpand (arguments : List String) : Work Nat := do
  let given ← Work.options "a/all /first-only t/tabs:" arguments
  let stops ← stopsOf (given.last? "t")
  let everywhere := (given.has "a" || given.has "t") && !given.has "first-only"
  Work.eachLine '\n' given.operands fun line => do
    let packing := line.foldl (fun (packing : Packing) c =>
      let packs := everywhere || !packing.inside
      if c = ' ' && packs then { packing with column := packing.column + 1 }
      else if c = '\t' && packs then { packing with column := nextStop stops packing.column }
      else
        let column := packing.column + 1
        ⟨packing.packed stops ++ [c], column, column, true⟩) ⟨[], 0, 0, false⟩
    Work.put (String.ofList (packing.packed stops))

end Pkgset.Tool

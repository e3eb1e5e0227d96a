import Pkgset.Tool.Intake

/-!
# Programs that work on parts of lines

Parts of lines are cut out by their places or fields, lines are pasted beside each other,
and characters are put in place of others.
-/

namespace Pkgset.Tool
open Kernel

/-! ## Cutting -/

/-- Reads a list of ranges, in which each has a first place and perhaps a last one, or says
    what is wrong. -/
def ranges? (ofFields : Bool) (text : String) : Except String (List (Nat × Option Nat)) :=
  let zero := if ofFields then "fields are numbered from 1" else "byte/character positions are numbered from 1"
  let number? (part : String) : Except String Nat :=
    match natural? part with
    | some 0 => .error zero
    | some n => .ok n
    | none => .error ((if ofFields then "invalid field value " else "invalid byte/character position ") ++
        quoted (String.ofList (part.toList.dropWhile Char.isDigit)))
  ((text.splitOn ",").flatMap fun part => (part.splitOn " ").flatMap (·.splitOn "\t")).mapM fun part =>
    match part.splitOn "-" with
    | [""] => .error zero
    | [one] => do
      let n ← number? one
      return (n, some n)
    | ["", ""] => .error "invalid range with no endpoint: -"
    | ["", last] => do return (1, some (← number? last))
    | [first, ""] => do return (← number? first, none)
    | [first, last] => do
      let a ← number? first
      let b ← number? last
      if b < a then .error "invalid decreasing range" else return (a, some b)
    | _ => .error (if ofFields then "invalid field range" else "invalid byte or character range")

/-- Ranges in order, in which those that meet are one. -/
def joined (ranges : List (Nat × Option Nat)) : List (Nat × Option Nat) :=
  let sorted := ranges.mergeSort fun a b => decide (a.1 ≤ b.1)
  sorted.foldr (fun (first, last) found =>
    match last, found with
    | none, _ => [(first, none)]
    | some last, (next, stop) :: rest =>
      if next ≤ last then (first, stop.map (max last)) :: rest else (first, some last) :: (next, stop) :: rest
    | some last, [] => [(first, some last)]) []

/-- The ranges between some others. -/
def between (start : Nat) : List (Nat × Option Nat) → List (Nat × Option Nat)
  | [] => [(start, none)]
  | (first, last) :: rest =>
    let front := if start < first then [(start, some (first - 1))] else []
    match last with
    | none => front
    | some last => front ++ between (max start (last + 1)) rest

/-- The part of a list that a range takes. -/
def taken {α : Type} (range : Nat × Option Nat) (items : List α) : List α :=
  let rest := items.drop (range.1 - 1)
  range.2.elim rest fun last => rest.take (last + 1 - range.1)

/-- Cuts parts out of lines. -/
def cut (arguments : List String) : Work Nat := do
  let given ← Work.options
    "b/bytes: c/characters: d/delimiter: f/fields: n s/only-delimited /complement /output-delimiter: z/zero-terminated"
    arguments
  let ending := if given.has "z" then '\x00' else '\n'
  let lists := given.options.filter fun (key, _) => ["b", "c", "f"].contains key
  let (key, list) ← match lists with
    | [] => Work.misuse 1 "you must specify a list of bytes, characters, or fields"
    | [one] => pure one
    | _ => Work.misuse 1 "only one list may be specified"
  let ofFields := decide (key = "f")
  let separator ← match given.last? "d" with
    | none => pure '\t'
    | some text =>
      match text.toList with
      | [] => pure '\x00'
      | [c] => pure c
      | _ => Work.misuse 1 "the delimiter must be a single character"
  if given.has "d" && !ofFields then
    Work.misuse 1 "an input delimiter may be specified only when operating on fields"
  if given.has "s" && !ofFields then
    Work.misuse 1 "suppressing non-delimited lines makes sense\n\tonly when operating on fields"
  let ranges ← match ranges? ofFields list with
    | .ok ranges => pure (joined ranges)
    | .error message => Work.misuse 1 message
  let ranges := if given.has "complement" then between 1 ranges else ranges
  let glue := given.last? "output-delimiter"
  Work.eachLine ending given.operands fun line => do
    let line := bare ending line
    if ofFields then
      let fields := (String.ofList line).splitOn separator.toString
      if fields.length ≤ 1 then
        if !given.has "s" then Work.put (String.ofList line ++ ending.toString)
      else
        Work.put ((glue.getD separator.toString).intercalate (ranges.flatMap (taken · fields)) ++ ending.toString)
    else
      let parts := (ranges.map fun range => String.ofList (taken range line)).filter (· ≠ "")
      Work.put ((glue.getD "").intercalate parts ++ ending.toString)

/-! ## Pasting -/

/-- The characters between pasted lines, by a text with escapes. -/
def separatorsOf : List Char → List String
  | [] => []
  | ['\\'] => ["\\"]
  | '\\' :: c :: rest =>
    (match c with
      | 'n' => "\n"
      | 't' => "\t"
      | 'b' => "\x08"
      | 'f' => "\x0c"
      | 'r' => "\r"
      | 'v' => "\x0b"
      | '0' => ""
      | c => c.toString) :: separatorsOf rest
  | c :: rest => c.toString :: separatorsOf rest

/-- Texts with separators between them, which are taken in turn. -/
def glued (separators : List String) (texts : List String) : String :=
  let (result, _) := texts.foldl (fun (result, place) text =>
    (result ++ (if place = 0 then "" else
      (separators[(place - 1) % separators.length]?).getD "") ++ text, place + 1)) ("", 0)
  result

/-- Pastes the lines of files beside each other, within a number of lines. The standard
    input may stand for several of them. -/
def pasteLines (separators : List String) : Nat → List (Nat × Bool) → List (Nat × Intake) → Work Unit
  | 0, _, _ => return ()
  | bound + 1, columns, intakes => do
    let mut intakes := intakes
    let mut texts : List String := []
    let mut open_ := false
    for (descriptor, _) in columns do
      match intakes.lookup descriptor with
      | none => texts := texts ++ [""]
      | some intake =>
        let (line, intake) ← intake.line '\n'
        intakes := (descriptor, intake) :: intakes.filter (·.1 ≠ descriptor)
        match line with
        | some line =>
          texts := texts ++ [String.ofList (bare '\n' line)]
          open_ := true
        | none => texts := texts ++ [""]
    if !open_ then return ()
    Work.put (glued separators texts ++ "\n")
    pasteLines separators bound columns intakes

/-- Pastes the lines of files beside each other. -/
def paste (arguments : List String) : Work Nat := do
  let given ← Work.options "d/delimiters: s/serial z/zero-terminated" arguments
  let separators := separatorsOf ((given.last? "d").getD "\\t").toList
  let separators := if separators.isEmpty then [""] else separators
  let paths := if given.operands.isEmpty then ["-"] else given.operands
  if given.has "s" then
    let mut status := 0
    for path in paths do
      match ← Work.input path with
      | .ok text =>
        Work.put (glued separators ((linesOf '\n' text.toList).map String.ofList) ++ "\n")
      | .error cause =>
        Work.warn (about path cause)
        status := 1
    return status
  else
    let mut columns : List (Nat × Bool) := []
    let mut intakes : List (Nat × Intake) := []
    for path in paths do
      match ← Intake.start path with
      | .ok intake =>
        columns := columns ++ [(intake.descriptor, true)]
        if (intakes.lookup intake.descriptor).isNone then intakes := (intake.descriptor, intake) :: intakes
      | .error cause => Work.fail 1 (about path cause)
    pasteLines separators lineLimit columns intakes
    return 0

/-! ## Characters in place of others -/

namespace Translation

/-- Part of a set of characters, in the order in which they are told. -/
inductive Part where
  | one (c : Char)
  | range (first last : Char)
  | named (name : String)
  | equal (c : Char)
  /-- A character several times, or as often as needed. -/
  | many (c : Char) (count : Option Nat)

/-- Reads a character, which an escape may stand for, and tells whether it was one. -/
def unit : List Char → Option (Char × Bool × List Char)
  | [] => none
  | ['\\'] => some ('\\', false, [])
  | '\\' :: c :: rest =>
    let octal := ((c :: rest).take 3).takeWhile fun c => '0' ≤ c && c ≤ '7'
    let value (digits : List Char) : Nat := digits.foldl (fun n c => 8 * n + (c.toNat - 48)) 0
    let octal := if 255 < value octal then octal.take 2 else octal
    if !octal.isEmpty then some (Char.ofNat (value octal), true, (c :: rest).drop octal.length)
    else some ((match c with
      | 'a' => '\x07'
      | 'b' => '\x08'
      | 'f' => '\x0c'
      | 'n' => '\n'
      | 'r' => '\r'
      | 't' => '\t'
      | 'v' => '\x0b'
      | c => c), true, rest)
  | c :: rest => some (c, false, rest)

/-- The names of classes of characters. -/
def classNames : List String :=
  ["alnum", "alpha", "blank", "cntrl", "digit", "graph", "lower", "print", "punct", "space", "upper", "xdigit"]

/-- The characters of a class, in order. -/
def classOf (name : String) : List Char :=
  let all := (List.range 256).map Char.ofNat
  let visible (c : Char) : Bool := 33 ≤ c.toNat && c.toNat ≤ 126
  all.filter fun c => match name with
    | "alnum" => c.isAlphanum
    | "alpha" => c.isAlpha
    | "blank" => c = ' ' || c = '\t'
    | "cntrl" => c.toNat < 32 || c.toNat = 127
    | "digit" => c.isDigit
    | "graph" => visible c
    | "lower" => c.isLower
    | "print" => visible c || c = ' '
    | "punct" => visible c && !c.isAlphanum
    | "space" => c = ' ' || (9 ≤ c.toNat && c.toNat ≤ 13)
    | "upper" => c.isUpper
    | "xdigit" => c.isDigit || ('a' ≤ c && c ≤ 'f') || ('A' ≤ c && c ≤ 'F')
    | _ => false

/-- Reads what stands in brackets: a class, an equivalence or a repetition. -/
def bracket? : List Char → Except String (Option (Part × List Char))
  | ':' :: rest =>
    let name := rest.takeWhile (· ≠ ':')
    match rest.drop name.length with
    | ':' :: ']' :: rest =>
      let name := String.ofList name
      if classNames.contains name then .ok (some (.named name, rest))
      else if name = "" then .error "missing character class name '[::]'"
      else .error ("invalid character class " ++ quoted name)
    | _ => .ok none
  | '=' :: c :: '=' :: ']' :: rest => .ok (some (.equal c, rest))
  | rest =>
    match unit rest with
    | some (c, _, '*' :: rest) =>
      let digits := rest.takeWhile Char.isDigit
      match rest.drop digits.length with
      | ']' :: rest =>
        let count := if digits.head? = some '0' then digits.foldl (fun n c => 8 * n + (c.toNat - 48)) 0
          else Decimal.ofDigits digits
        .ok (some (.many c (if digits.isEmpty || count = 0 then none else some count), rest))
      | _ => .ok none
    | _ => .ok none

/-- Reads a set of characters, within a number of parts, or says what is wrong with it. -/
def parts? : Nat → List Char → Except String (List Part)
  | 0, _ => .ok []
  | bound + 1, text => do
    let plain : Except String (List Part) :=
      match unit text with
      | none => .ok []
      | some (c, _, '-' :: rest) =>
        match unit rest with
        | some (d, _, rest) => do
          if d < c then
            let shown (c : Char) : String := if 32 ≤ c.toNat && c.toNat < 127 then c.toString else unseen c
            .error ("range-endpoints of '" ++ shown c ++ "-" ++ shown d ++ "' are in reverse collating sequence order")
          else return .range c d :: (← parts? bound rest)
        | none => .ok [.one c, .one '-']
      | some (c, _, rest) => do return .one c :: (← parts? bound rest)
    match text with
    | '[' :: rest =>
      match ← bracket? rest with
      | some (part, rest) => return part :: (← parts? bound rest)
      | none => plain
    | _ => plain

/-- The characters of a set, brought to a length if it is given. -/
def charactersOf (size : Option Nat) (parts : List Part) : List Char :=
  let plain (part : Part) : List Char := match part with
    | .one c => [c]
    | .range first last => (List.range (last.toNat + 1 - first.toNat)).map fun n => Char.ofNat (first.toNat + n)
    | .named name => classOf name
    | .equal c => [c]
    | .many c count => List.replicate (count.getD 0) c
  let total := (parts.map fun part => (plain part).length).foldl (· + ·) 0
  parts.flatMap fun part => match part with
    | .many c none => List.replicate ((size.getD 0) - total) c
    | part => plain part

end Translation

/-- What is done with characters: those that are left out, what stands for the others, and
    those that stand only once in a row. -/
structure Translation where
  omits : Char → Bool
  replace : Char → Char
  squeezes : Char → Bool

/-- The text that a part of the input becomes, after the last character so far. -/
def Translation.apply (translation : Translation) (last : Option Char) (text : List Char) : List Char × Option Char :=
  let (found, last) := text.foldl (fun (found, last) c =>
    if translation.omits c then (found, last)
    else
      let c := translation.replace c
      if translation.squeezes c && last = some c then (found, last) else (c :: found, some c)) (([] : List Char), last)
  (found.reverse, last)

/-- Passes on the standard input, part by part. -/
def Translation.passOn (translation : Translation) (last : Option Char) (intake : Intake) : Nat → Work (Option Cause)
  | 0 => return none
  | bound + 1 => do
    let intake ← intake.more
    if intake.ended then return intake.fault
    let (text, last) := translation.apply last intake.waiting
    Work.put (String.ofList text)
    passOn translation last { intake with waiting := [] } bound

/-- Puts characters in place of others, or leaves them out. -/
def tr (arguments : List String) : Work Nat := do
  let given ← (Grammar.plain "c/complement C d/delete s/squeeze-repeats t/truncate-set1" false 1).given arguments
  let deletes := given.has "d"
  let squeezes := given.has "s"
  let needed := if deletes == squeezes then 2 else 1
  let most := if deletes && !squeezes then 1 else 2
  let explain (text : String) : Work Nat := do
    Work.complain (text ++ "\n")
    Work.advise 1
  if given.operands.length < needed then
    match given.operands.getLast? with
    | none => Work.misuse 1 "missing operand"
    | some last =>
      Work.warn ("missing operand after " ++ quoted last)
      return ← explain (if deletes then "Two strings must be given when both deleting and squeezing repeats."
        else "Two strings must be given when translating.")
  if let some extra := given.operands[most]? then
    Work.warn ("extra operand " ++ quoted extra)
    if most = 1 && given.operands.length = 2 then
      return ← explain "Only one string may be given when deleting without squeezing repeats."
    Work.advise 1
  let read (text : String) : Work (List Translation.Part) := do
    match Translation.parts? (text.length + 1) text.toList with
    | .ok parts => return parts
    | .error message => Work.fail 1 message
  let first ← read (given.operands.headD "")
  let second ← match given.operands[1]? with
    | some text => do pure (some (← read text))
    | none => pure none
  let isMany (part : Translation.Part) : Bool := match part with
    | .many _ none => true
    | _ => false
  if first.any fun part => match part with
      | .many _ _ => true
      | _ => false then
    Work.fail 1 "the [c*] repeat construct may not appear in string1"
  if let some parts := second then
    if 1 < (parts.filter isMany).length then Work.fail 1 "only one [c*] repeat construct may appear in string2"
  let told := Translation.charactersOf none first
  let complement := given.has "c" || given.has "C"
  let set := if complement then ((List.range 256).map Char.ofNat).filter (!told.contains ·) else told
  let translates := !deletes && second.isSome
  let others := Translation.charactersOf (some set.length) (second.getD [])
  if translates then
    if others.isEmpty && !given.has "t" then Work.fail 1 "when not truncating set1, string2 must be non-empty"
    let wrongClass := (second.getD []).any fun part => match part with
      | .named name => name != "lower" && name != "upper"
      | _ => false
    if wrongClass then
      Work.fail 1 "when translating, the only character classes that may appear in\nstring2 are 'upper' and 'lower'"
    if (second.getD []).any fun part => match part with
        | .equal _ => true
        | _ => false then
      Work.fail 1 "[=c=] expressions may not appear in string2 when translating"
  let filled := match others.getLast? with
    | some last => if given.has "t" then others else others ++ List.replicate (set.length - others.length) last
    | none => []
  let table := set.zip filled
  let replace (c : Char) : Char := ((table.reverse.find? (·.1 = c)).map (·.2)).getD c
  let translation : Translation := {
    omits := fun c => deletes && set.contains c
    replace := if translates then replace else id
    squeezes := fun c => squeezes && (if second.isSome then others else set).contains c }
  match ← translation.passOn none Intake.standard Act.partLimit with
  | none => return 0
  | some cause => Work.fail 1 ("read error: " ++ cause.message)

end Pkgset.Tool

import Pkgset.Text.Real
import Pkgset.Tool.Intake
import Pkgset.Tool.Mode

/-!
# Programs that order lines

Lines are ordered by keys, which are parts of them. A key is compared as a text, as a
number, as a month or as a version. Lines that are equal by their keys are compared as a
whole at last. Programs that compare files want them to be in order.
-/

namespace Pkgset.Tool
open Kernel

/-- The order of two texts by their characters. -/
def textOrder : List Char → List Char → Ordering
  | [], [] => .eq
  | [], _ => .lt
  | _, [] => .gt
  | a :: as, b :: bs => if a < b then .lt else if b < a then .gt else textOrder as bs

namespace Order

/-- Whether a character is a blank. -/
def isBlank (c : Char) : Bool := c = ' ' || c = '\t'

/-- A decimal number: whether it is negative, its digits before the point without leading
    zeros, and those behind it without zeros at the end. -/
structure Amount where
  negative : Bool
  whole : List Char
  places : List Char

namespace Amount

/-- The number that a text starts with, and what follows it. -/
def ofText (text : List Char) : Amount × List Char :=
  let text := text.dropWhile isBlank
  let (negative, text) := match text with
    | '-' :: rest => (true, rest)
    | rest => (false, rest)
  let digits := text.takeWhile Char.isDigit
  let rest := text.drop digits.length
  let (places, rest) := match rest with
    | '.' :: more =>
      let places := more.takeWhile Char.isDigit
      (places, more.drop places.length)
    | rest => ([], rest)
  (⟨negative, digits.dropWhile (· = '0'), (places.reverse.dropWhile (· = '0')).reverse⟩, rest)

/-- Whether a number is zero. -/
def isZero (amount : Amount) : Bool := amount.whole.isEmpty && amount.places.isEmpty

/-- The order of two numbers without their signs. -/
def orderOfSizes (a b : Amount) : Ordering :=
  (compare a.whole.length b.whole.length).then ((textOrder a.whole b.whole).then (textOrder a.places b.places))

/-- The order of two numbers. -/
def order (a b : Amount) : Ordering :=
  match a.negative && !a.isZero, b.negative && !b.isZero with
  | true, false => .lt
  | false, true => .gt
  | false, false => orderOfSizes a b
  | true, true => orderOfSizes b a

end Amount

/-- The place of the letter that stands for a power of a thousand. -/
def unitRank (text : List Char) : Nat :=
  match text with
  | c :: _ =>
    if c = 'k' then 1
    else match "KMGTPEZYRQ".toList.findIdx? (· = c) with
      | some place => place + 1
      | none => 0
  | [] => 0

/-- The order of two sizes with units. -/
def sizeOrder (a b : List Char) : Ordering :=
  let (x, restX) := Amount.ofText a
  let (y, restY) := Amount.ofText b
  let rank (amount : Amount) (rest : List Char) : Int :=
    if amount.isZero then 0 else if amount.negative then -(unitRank rest : Int) - 1 else (unitRank rest : Int) + 1
  (compare (rank x restX) (rank y restY)).then (x.order y)

/-- The number of a month by its first three letters; other texts come before all. -/
def monthRank (text : List Char) : Nat :=
  let front := ((text.dropWhile isBlank).take 3).map Char.toUpper
  match ["JAN", "FEB", "MAR", "APR", "MAY", "JUN", "JUL", "AUG", "SEP", "OCT", "NOV", "DEC"].findIdx? (·.toList = front) with
  | some place => place + 1
  | none => 0

/-- The real number that a text starts with. -/
def realOf (text : List Char) : Option Real := (Real.leading? (text.dropWhile isBlank)).map (·.1)

/-- The place of a real number among those that cannot be compared, and an order of those
    that can. -/
def realOrder (a b : List Char) : Ordering :=
  let rank (x : Option Real) : Nat :=
    match x with
    | none => 0
    | some (.none _) => 1
    | some (.infinite true) => 2
    | some (.finite _ _ _) => 3
    | some (.infinite false) => 4
  let signed (negative : Bool) (n : Nat) : Int := if negative then -(n : Int) else n
  let x := realOf a
  let y := realOf b
  (compare (rank x) (rank y)).then (match x, y with
    | some (.finite s n d), some (.finite t m e) => compare (signed s n * e) (signed t m * d)
    | _, _ => .eq)

/-- The place of a character in the order of versions. -/
def versionRank (c : Char) : Int :=
  if c.isDigit then 0
  else if c.isAlpha then c.toNat
  else if c = '~' then -1
  else c.toNat + 256

/-- The order of two parts of versions that hold no digits. -/
def wordOrder : List Char → List Char → Ordering
  | [], [] => .eq
  | [], b :: _ => compare 0 (versionRank b)
  | a :: _, [] => compare (versionRank a) 0
  | a :: as, b :: bs => (compare (versionRank a) (versionRank b)).then (wordOrder as bs)

/-- The order of two versions, whose parts are words and numbers in turn, within a number
    of parts. -/
def partsOrder : Nat → List Char → List Char → Ordering
  | 0, _, _ => .eq
  | bound + 1, a, b =>
    if a.isEmpty && b.isEmpty then .eq
    else
      let wordA := a.takeWhile (!·.isDigit)
      let wordB := b.takeWhile (!·.isDigit)
      let restA := a.drop wordA.length
      let restB := b.drop wordB.length
      let numberA := restA.takeWhile Char.isDigit
      let numberB := restB.takeWhile Char.isDigit
      (wordOrder wordA wordB).then
        ((compare (Decimal.ofDigits numberA) (Decimal.ofDigits numberB)).then
          (partsOrder bound (restA.drop numberA.length) (restB.drop numberB.length)))

/-- A version without the suffixes at its end, which start with a point and a letter. -/
def withoutSuffixes (text : List Char) : List Char :=
  let isSuffix (rest : List Char) : Bool :=
    let pieces := (String.ofList rest).splitOn "."
    match pieces with
    | "" :: pieces => pieces.all fun piece => match piece.toList with
      | c :: more => (c.isAlpha || c = '~') && more.all fun c => c.isAlphanum || c = '~'
      | [] => false
    | _ => false
  match (List.range text.length).find? fun place => 0 < place && isSuffix (text.drop place) with
  | some place => text.take place
  | none => text

/-- The order of two versions. -/
def versionOrder (a b : List Char) : Ordering :=
  let hidden (text : List Char) : Bool := text.head? = some '.'
  let rank (text : List Char) : Nat :=
    if text.isEmpty then 0 else if text = ['.'] then 1 else if text = ['.', '.'] then 2 else if hidden text then 3 else 4
  let frontA := withoutSuffixes a
  let frontB := withoutSuffixes b
  let bound := a.length + b.length + 1
  if a = b then .eq
  else (compare (rank a) (rank b)).then (
    if frontA = frontB then partsOrder bound a b
    else (partsOrder bound frontA frontB).then (partsOrder bound a b))

/-- What is wished of a comparison. -/
structure Wishes where
  skipsFront : Bool
  skipsBack : Bool
  letters : List Char
  deriving Inhabited

/-- Part of a line: the fields and characters before it, and those up to its end. -/
structure Key where
  startField : Nat
  startPlace : Nat
  stop : Option (Nat × Nat)
  wishes : Wishes
  deriving Inhabited

namespace Key

/-- The key of whole lines. -/
def whole (wishes : Wishes) : Key := ⟨0, 0, none, wishes⟩

/-- What follows some fields of a line. -/
def afterFields (separator : Option Char) : Nat → List Char → List Char
  | 0, line => line
  | count + 1, line =>
    match separator with
    | some c => afterFields separator count ((line.dropWhile (· ≠ c)).drop 1)
    | none => afterFields separator count ((line.dropWhile isBlank).dropWhile (!isBlank ·))

/-- What follows some fields of a line, together with the separator before it. -/
def fromSeparator (separator : Option Char) : Nat → List Char → List Char
  | 0, line => line
  | 1, line =>
    match separator with
    | some c => line.dropWhile (· ≠ c)
    | none => (line.dropWhile isBlank).dropWhile (!isBlank ·)
  | count + 2, line => fromSeparator separator (count + 1) (afterFields separator 1 line)

/-- The part of a line that a key is. -/
def part (separator : Option Char) (key : Key) (line : List Char) : List Char :=
  let front := afterFields separator key.startField line
  let front := if key.wishes.skipsFront then front.dropWhile isBlank else front
  let front := front.drop key.startPlace
  match key.stop with
  | none => front
  | some (field, place) =>
    let back :=
      if place = 0 then fromSeparator separator (field + 1) line
      else
        let back := afterFields separator field line
        let back := if key.wishes.skipsBack then back.dropWhile isBlank else back
        back.drop place
    front.take (front.length - back.length)

end Key

/-- The order of two keys. -/
def keyOrder (wishes : Wishes) (a b : List Char) : Ordering :=
  let has := wishes.letters.contains
  let prepared (text : List Char) : List Char :=
    let text := if has 'd' then text.filter fun c => isBlank c || c.isAlphanum else text
    let text := if has 'i' then text.filter fun c => 32 ≤ c.toNat && c.toNat < 127 else text
    if has 'f' then text.map Char.toUpper else text
  if has 'n' then (Amount.ofText a).1.order (Amount.ofText b).1
  else if has 'h' then sizeOrder a b
  else if has 'g' then realOrder a b
  else if has 'M' then compare (monthRank a) (monthRank b)
  else if has 'V' then versionOrder (prepared a) (prepared b)
  else textOrder (prepared a) (prepared b)

/-- How lines are ordered. -/
structure Plan where
  keys : List Key
  separator : Option Char
  reversed : Bool
  stable : Bool
  unique : Bool

/-- An order, perhaps the other way round. -/
def turned (reversed : Bool) (order : Ordering) : Ordering := if reversed then order.swap else order

/-- The order of two lines by their keys. -/
def Plan.keysOrder (plan : Plan) (a b : List Char) : Ordering :=
  plan.keys.foldl (fun order key =>
    order.then (turned (key.wishes.letters.contains 'r')
      (keyOrder key.wishes (key.part plan.separator a) (key.part plan.separator b)))) .eq

/-- The order of two lines. -/
def Plan.order (plan : Plan) (a b : List Char) : Ordering :=
  let order := plan.keysOrder a b
  if plan.keys.isEmpty then turned plan.reversed (textOrder a b)
  else if plan.stable || plan.unique then order
  else order.then (turned plan.reversed (textOrder a b))

/-- The letters of wishes. -/
def wishLetters : List Char := "bdfghiMnRrV".toList

/-- Reads a position of a key: a field, and perhaps a place in it. -/
def position? (text : List Char) : Option (Nat × Option Nat × List Char) :=
  let field := text.takeWhile Char.isDigit
  if field.isEmpty then none
  else match text.drop field.length with
    | '.' :: rest =>
      let place := rest.takeWhile Char.isDigit
      if place.isEmpty then none
      else some (Decimal.ofDigits field, some (Decimal.ofDigits place), rest.drop place.length)
    | rest => some (Decimal.ofDigits field, none, rest)

/-- Reads a key, or says what is wrong with it. -/
def key? (text : String) : Except String Key := do
  let chars := text.toList
  let wrong (what : String) : Except String Key := .error (what ++ ": invalid field specification " ++ quoted text)
  match position? chars with
  | none => .error ("invalid number at field start: invalid count at start of " ++ quoted text)
  | some (field, place, rest) =>
    if field = 0 then wrong "field number is zero"
    else if place = some 0 then wrong "character offset is zero"
    else
      let letters := rest.takeWhile wishLetters.contains
      let key : Key := ⟨field - 1, (place.getD 1) - 1, none, ⟨letters.contains 'b', false, letters.filter (· ≠ 'b')⟩⟩
      match rest.drop letters.length with
      | [] => .ok key
      | ',' :: more =>
        match position? more with
        | none => .error ("invalid number after ',': invalid count at start of " ++ quoted (String.ofList more))
        | some (stop, place, rest) =>
          let others := rest.takeWhile wishLetters.contains
          if stop = 0 then wrong "field number is zero"
          else if others.length < rest.length then wrong "stray character in field spec"
          else .ok { key with
            stop := some (stop - 1, place.getD 0)
            wishes := ⟨key.wishes.skipsFront, others.contains 'b',
              key.wishes.letters ++ others.filter (· ≠ 'b')⟩ }
      | _ => wrong "stray character in field spec"

end Order

open Pkgset.Tool.Order

/-- The lines of files. -/
def Work.allLines (ending : Char) (paths : List String) (wrong : String → Cause → Work Unit) :
    Work (List (List Char)) := do
  let mut lines : List (List (List Char)) := []
  for path in if paths.isEmpty then ["-"] else paths do
    match ← Work.input path with
    | .ok text => lines := linesOf ending text.toList :: lines
    | .error cause => wrong path cause
  return lines.reverse.flatten

/-- The first of some lines that is out of order, and its number. -/
def disorder? (isWrong : List Char → List Char → Bool) (number : Nat) : List (List Char) → Option (Nat × List Char)
  | a :: b :: rest => if isWrong a b then some (number + 1, b) else disorder? isWrong (number + 1) (b :: rest)
  | _ => none

/-- The lines without those that are equal to the one before. -/
def distinct (same : List Char → List Char → Bool) : List (List Char) → List (List Char)
  | a :: rest =>
    match distinct same rest with
    | b :: others => if same a b then a :: others else a :: b :: others
    | [] => [a]
  | [] => []

/-- Orders lines. -/
def sort (arguments : List String) : Work Nat := do
  let grammar := Grammar.plain
    "b/ignore-leading-blanks d/dictionary-order f/ignore-case g/general-numeric-sort i/ignore-nonprinting M/month-sort h/human-numeric-sort n/numeric-sort R/random-sort /random-source: r/reverse /sort: V/version-sort /batch-size: c/check? C/check-silent /compress-program: /debug /files0-from: k/key: m/merge o/output: s/stable S/buffer-size: t/field-separator: T/temporary-directory: /parallel: u/unique z/zero-terminated"
    true 2
  let given ← grammar.given (arguments.map fun text =>
    if text = "-C" then "--check-silent" else if text = "-c" then "--check" else text)
  let ending := if given.has "z" then '\x00' else '\n'
  let separator ← match given.last? "t" with
    | none => pure none
    | some "\\0" => pure (some '\x00')
    | some text =>
      match text.toList with
      | [c] => pure (some c)
      | [] => Work.fail 2 "empty tab"
      | _ => Work.fail 2 ("multi-character tab " ++ quoted text)
  let byName : List Char := (given.last? "sort").elim [] fun name =>
    match name with
    | "numeric" => ['n']
    | "general-numeric" => ['g']
    | "human-numeric" => ['h']
    | "month" => ['M']
    | "version" => ['V']
    | _ => []
  let letters := byName ++ (wishLetters.filter fun c => c ≠ 'b' && given.has c.toString)
  let standard : Wishes := ⟨given.has "b", given.has "b", letters⟩
  let keys ← (given.all "k").mapM fun text =>
    match key? text with
    | .ok key => pure key
    | .error message => Work.fail 2 message
  let keys := keys.map fun key =>
    if key.wishes.letters.isEmpty && !key.wishes.skipsFront && !key.wishes.skipsBack then { key with wishes := standard }
    else key
  let keys := if keys.isEmpty && (given.has "b" || letters.any (· ≠ 'r')) then [Key.whole standard] else keys
  let kinds := fun (key : Key) => key.wishes.letters.filter "ghMnRV".toList.contains
  for key in keys do
    if 1 < (kinds key).eraseDups.length then
      Work.fail 2 ("options '-" ++ String.ofList ((wishLetters.filter (kinds key).contains)) ++ "' are incompatible")
  let plan : Plan := ⟨keys, separator, given.has "r", given.has "s", given.has "u"⟩
  let wrong (path : String) (cause : Cause) : Work Unit :=
    Work.fail 2 ((if cause = .isFolder then "read failed: " else "cannot read: ") ++ about path cause)
  if given.has "c" || given.has "C" || given.has "check-silent" then
    if let _ :: extra :: _ := given.operands then
      Work.fail 2 ("extra operand " ++ quoted extra ++ " not allowed with -c")
    let path := given.operands.headD "-"
    let lines ← Work.allLines ending [path] wrong
    let isWrong (a b : List Char) : Bool :=
      match plan.order a b with
      | .lt => false
      | .eq => plan.unique
      | .gt => true
    match disorder? isWrong 1 lines with
    | none => return 0
    | some (number, line) =>
      if !(given.has "C" || given.has "check-silent") then
        Work.warn (path ++ ":" ++ digits number ++ ": disorder: " ++ String.ofList line)
      return 1
  for path in given.operands do
    if path != "-" then
      match ← Work.inspect true path with
      | .ok _ => pure ()
      | .error cause => wrong path cause
  let lines ← Work.allLines ending given.operands wrong
  let lines := lines.mergeSort fun a b => plan.order a b != .gt
  let lines := if plan.unique then distinct (fun a b => plan.order a b = .eq) lines else lines
  let text := String.join (lines.map fun line => String.ofList line ++ ending.toString)
  match given.last? "o" with
  | none => Work.put text
  | some path =>
    match ← Work.act (Act.openFile path .output 0o666) with
    | .ok descriptor =>
      discard (Work.act (Act.write descriptor (Raw.toArray text)))
      Work.act (Act.close descriptor)
    | .error cause => Work.fail 2 ("open failed: " ++ about path cause)
  return 0

/-! ## Lines that are the same -/

/-- What of a line is compared with the next one. -/
structure Comparison where
  fields : Nat
  places : Nat
  width : Option Nat
  foldsCase : Bool

/-- The part of a line that is compared. -/
def Comparison.part (comparison : Comparison) (line : List Char) : List Char :=
  let rest := (Key.afterFields none comparison.fields line).drop comparison.places
  let rest := comparison.width.elim rest rest.take
  if comparison.foldsCase then rest.map Char.toUpper else rest

/-- The lines in groups of those that follow each other and are the same. -/
def groups (same : List Char → List Char → Bool) (lines : List (List Char)) : List (List (List Char)) :=
  lines.foldr (fun line found =>
    match found with
    | (other :: group) :: rest => if same line other then (line :: other :: group) :: rest else [line] :: found
    | found => [line] :: found) []

/-- Leaves out lines that are the same as the one before. -/
def uniq (arguments : List String) : Work Nat := do
  let given ← Work.options
    "c/count d/repeated D /all-repeated? f/skip-fields: /group? i/ignore-case s/skip-chars: u/unique z/zero-terminated w/check-chars:"
    arguments
  let ending := if given.has "z" then '\x00' else '\n'
  let count (key text : String) : Work (Option Nat) := do
    match given.last? key with
    | none => return none
    | some told =>
      match natural? told with
      | some count => return some count
      | none => Work.fail 1 (told ++ ": invalid number of " ++ text)
  let fields ← count "f" "fields to skip"
  let places ← count "s" "bytes to skip"
  let width ← count "w" "bytes to compare"
  let comparison : Comparison := ⟨fields.getD 0, places.getD 0, width, given.has "i"⟩
  let (source, target) ← match given.operands with
    | [] => pure ("-", none)
    | [source] => pure (source, none)
    | [source, target] => pure (source, if target = "-" then none else some target)
    | _ :: _ :: extra :: _ => Work.misuse 1 ("extra operand " ++ quoted extra)
  let text ← match ← Work.input source with
    | .ok text => pure text
    | .error .isFolder => Work.fail 1 ("error reading " ++ quoted source ++ ": " ++ Cause.message .isFolder)
    | .error cause => Work.fail 1 (about source cause)
  let found := groups (fun a b => comparison.part a = comparison.part b) (linesOf ending text.toList)
  let shown (line : List Char) : String := String.ofList line ++ ending.toString
  let all := given.has "D" || given.has "all-repeated"
  let output := String.join (found.map fun group =>
    let isSingle := decide (group.length = 1)
    if all then if isSingle then "" else String.join (group.map shown)
    else if (given.has "d" && isSingle) || (given.has "u" && !isSingle) then ""
    else (if given.has "c" then right 7 (digits group.length) ++ " " else "") ++ shown (group.headD []))
  match target with
  | none => Work.put output
  | some path =>
    match ← Work.act (Act.openFile path .output 0o666) with
    | .ok descriptor =>
      discard (Work.act (Act.write descriptor (Raw.toArray output)))
      Work.act (Act.close descriptor)
    | .error cause => Work.fail 1 (about path cause)
  return 0

/-! ## Two files -/

/-- Reads the two files that are compared. -/
def Work.pairOf (operands : List String) : Work (List Char × List Char) := do
  match operands with
  | [first, second] =>
    let read (path : String) : Work (List Char) := do
      match ← Work.input path with
      | .ok text => return text.toList
      | .error cause => Work.fail 1 (about path cause)
    return (← read first, ← read second)
  | [] => Work.misuse 1 "missing operand"
  | [first] => Work.misuse 1 ("missing operand after " ++ quoted first)
  | _ :: _ :: extra :: _ => Work.misuse 1 ("extra operand " ++ quoted extra)

/-- A file that should be in order, while it is read: its path, how many lines have been
    read, and whether a line out of order has been found. -/
structure Ordered where
  path : String
  number : Nat
  broken : Bool

/-- Looks whether a line that has been read is out of order behind another. What is wrong is
    said once. -/
def Ordered.check (file : Ordered) (isWrong : Bool) (message : Work Unit) : Work Ordered := do
  if isWrong && !file.broken then
    message
    return { file with broken := true }
  else return file

/-- How two files are compared line by line: whether their order is checked, and what is
    done with the lines of the first file, of the second, and of both. -/
structure Pairing where
  checks : Bool
  first : List Char → Work Unit
  second : List Char → Work Unit
  both : List Char → Work Unit

namespace Pairing

/-- Looks at the lines around one that has been taken off a file: the next one must not
    come before it, and at the end it must not come before the previous one. -/
def next (pairing : Pairing) (differs : Bool) (file : Ordered) (before : Option (List Char)) (line : List Char)
    (rest : List (List Char)) : Work Ordered :=
  let isWrong : Bool := match rest.head?, before with
    | some after, _ => textOrder line after = .gt
    | none, some before => textOrder before line = .gt
    | none, none => false
  file.check (pairing.checks && differs && isWrong) (Work.warn ("file " ++ file.path ++ " is not in sorted order"))

/-- Compares the lines of two files. -/
def compare (pairing : Pairing) (differs : Bool) (one two : Ordered) (beforeA beforeB : Option (List Char)) :
    List (List Char) → List (List Char) → Work Bool
  | [], [] => return one.broken || two.broken
  | a :: as, [] => do
    pairing.first a
    compare pairing true (← pairing.next true one beforeA a as) two (some a) beforeB as []
  | [], b :: bs => do
    pairing.second b
    compare pairing true one (← pairing.next true two beforeB b bs) beforeA (some b) [] bs
  | a :: as, b :: bs => do
    match textOrder a b with
    | .lt =>
      pairing.first a
      compare pairing true (← pairing.next true one beforeA a as) two (some a) beforeB as (b :: bs)
    | .gt =>
      pairing.second b
      compare pairing true one (← pairing.next true two beforeB b bs) beforeA (some b) (a :: as) bs
    | .eq =>
      pairing.both a
      let one ← pairing.next differs one beforeA a as
      let two ← pairing.next differs two beforeB b bs
      compare pairing differs one two (some a) (some b) as bs
termination_by as bs => as.length + bs.length

end Pairing

/-- Compares two files in order, line by line. -/
def comm (arguments : List String) : Work Nat := do
  let given ← Work.options "1 2 3 /check-order /nocheck-order /output-delimiter: /total z/zero-terminated" arguments
  let (first, second) ← Work.pairOf given.operands
  let separator := (given.last? "output-delimiter").getD "\t"
  let tabs (before : List String) : String := String.join ((before.filter (!given.has ·)).map fun _ => separator)
  let shown (key : String) (before : List String) (line : List Char) : Work Unit := do
    if !given.has key then Work.put (tabs before ++ String.ofList line ++ "\n")
  let pairing : Pairing := ⟨!given.has "nocheck-order", shown "1" [], shown "2" ["1"], shown "3" ["1", "2"]⟩
  if ← pairing.compare false ⟨"1", 0, false⟩ ⟨"2", 0, false⟩ none none (linesOf '\n' first) (linesOf '\n' second) then
    Work.warn "input is not in sorted order"
    return 1
  else return 0

/-- The fields of a line. -/
def fieldsOf (separator : Option Char) (line : List Char) : List String :=
  match separator with
  | some c => (String.ofList line).splitOn c.toString
  | none => ((String.ofList (line.map fun c => if c = '\t' then ' ' else c)).splitOn " ").filter (· ≠ "")

/-- How lines are joined: the fields that they have in common, what stands between fields,
    what stands for an empty one, the fields that are wanted, and the files whose lines are
    shown alone. -/
structure Joining where
  separator : Option Char
  fields : Nat × Nat
  foldsCase : Bool
  empty : String
  wanted : Option (List String)
  alone : List String
  pairs : Bool
  checks : Bool

namespace Joining

/-- A line of a file: its key, its fields and its text. -/
structure Row where
  key : List Char
  fields : List String
  text : List Char

/-- The rows of a file. -/
def rows (joining : Joining) (field : Nat) (text : List Char) : List Row :=
  (linesOf '\n' text).map fun line =>
    let fields := fieldsOf joining.separator line
    let key := ((fields[field - 1]?).getD "").toList
    ⟨if joining.foldsCase then key.map Char.toLower else key, fields, line⟩

/-- Writes a line of the fields of one or two rows. -/
def write (joining : Joining) (a b : Option Row) : Work Unit :=
  let others (row : Row) (field : Nat) : List String := row.fields.eraseIdx (field - 1)
  let key := ((a.bind fun row => row.fields[joining.fields.1 - 1]?).orElse fun _ =>
    b.bind fun row => row.fields[joining.fields.2 - 1]?).getD ""
  let filled (text : String) : String := if text = "" then joining.empty else text
  let texts := match joining.wanted with
    | none => key :: (a.elim [] (others · joining.fields.1)) ++ b.elim [] (others · joining.fields.2)
    | some wanted => wanted.map fun place =>
      let found (row : Option Row) (n : String) : String :=
        (row.bind fun row => row.fields[(natural? n).getD 1 - 1]?).getD ""
      match place.splitOn "." with
      | ["0"] => filled key
      | ["1", n] => filled (found a n)
      | ["2", n] => filled (found b n)
      | _ => ""
  Work.put ((joining.separator.getD ' ').toString.intercalate texts ++ "\n")

/-- Reads the next row of a file behind another. -/
def next (joining : Joining) (differs : Bool) (file : Ordered) (row : Row) (rest : List Row) : Work Ordered :=
  let file := { file with number := file.number + 1 }
  match rest with
  | [] => return file
  | after :: _ => file.check (joining.checks && differs && textOrder row.key after.key = .gt) (Work.warn
      (file.path ++ ":" ++ digits (file.number + 1) ++ ": is not sorted: " ++ String.ofList after.text))

/-- Reads rows as long as they have a key. -/
def takeSame (joining : Joining) (differs : Bool) (key : List Char) (file : Ordered) :
    List Row → Work (List Row × List Row × Ordered)
  | [] => return ([], [], file)
  | row :: rest => do
    if row.key != key then return ([], row :: rest, file)
    let file ← joining.next differs file row rest
    let (same, rest, file) ← takeSame joining differs key file rest
    return (row :: same, rest, file)

/-- Joins the rows of two files, within a number of steps, and tells whether one of them was
    out of order. -/
def run (joining : Joining) : Nat → Bool → Ordered → Ordered → List Row → List Row → Work Bool
  | 0, _, one, two, _, _ => return one.broken || two.broken
  | bound + 1, differs, one, two, as, bs => do
    match as, bs with
    | [], [] => return one.broken || two.broken
    | a :: as, [] =>
      if joining.alone.contains "1" then joining.write (some a) none
      run joining bound differs (← joining.next differs one a as) two as []
    | [], b :: bs =>
      if joining.alone.contains "2" then joining.write none (some b)
      run joining bound differs one (← joining.next differs two b bs) [] bs
    | a :: restA, b :: restB =>
      match textOrder a.key b.key with
      | .lt =>
        if joining.alone.contains "1" then joining.write (some a) none
        run joining bound true (← joining.next differs one a restA) two restA bs
      | .gt =>
        if joining.alone.contains "2" then joining.write none (some b)
        run joining bound true one (← joining.next differs two b restB) as restB
      | .eq =>
        let (sameA, as, one) ← joining.takeSame differs a.key one as
        let (sameB, bs, two) ← joining.takeSame differs a.key two bs
        if joining.pairs then
          for x in sameA do
            for y in sameB do joining.write (some x) (some y)
        run joining bound differs one two as bs

end Joining

/-- Joins the lines of two files in order that have a field in common. -/
def join (arguments : List String) : Work Nat := do
  let given ← Work.options
    "a: e: i/ignore-case j: 1: 2: o: t: v: /check-order /nocheck-order /header z/zero-terminated" arguments
  let (first, second) ← Work.pairOf given.operands
  let field (key : String) : Nat := (((given.last? key).orElse fun _ => given.last? "j").bind natural?).getD 1
  let joining : Joining := {
    separator := (given.last? "t").bind (·.toList.head?)
    fields := (field "1", field "2")
    foldsCase := given.has "i"
    empty := (given.last? "e").getD ""
    wanted := (given.last? "o").map fun told => (told.splitOn ",").flatMap (·.splitOn " ")
    alone := given.all "a" ++ given.all "v"
    pairs := !given.has "v"
    checks := !given.has "nocheck-order" }
  let one := joining.rows joining.fields.1 first
  let two := joining.rows joining.fields.2 second
  let path (place : Nat) : String := (given.operands[place]?).getD ""
  if ← joining.run (one.length + two.length + 1) false ⟨path 0, 0, false⟩ ⟨path 1, 0, false⟩ one two then
    Work.warn "input is not in sorted order"
    return 1
  else return 0

end Pkgset.Tool

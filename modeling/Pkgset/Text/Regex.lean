import Pkgset.Text.CharSet
import Pkgset.Text.Decimal

/-!
# Regular expressions

Expressions that match parts of texts, in their basic and their extended form. Of all
parts that match, the first counts, and of those that start there the longest one.
-/

namespace Pkgset

/-- A regular expression. -/
inductive Regex where
  | nothing
  | exactly (c : Char)
  | anyChar
  /-- A character in one of some sets, or in none of them. -/
  | within (inside : Bool) (sets : List CharSet)
  | sequence (first second : Regex)
  | either (first second : Regex)
  /-- A part whose match is known by a number. -/
  | group (number : Nat) (inner : Regex)
  | repeated (inner : Regex) (least : Nat) (most : Option Nat)
  /-- What a group has matched, once more. -/
  | same (number : Nat)
  | lineStart
  | lineEnd
  | textStart
  | textEnd
  /-- The place between a word and what is no word. -/
  | wordEdge (starts ends : Bool)
  | noEdge
  deriving DecidableEq, Repr

/-- The parts of a text that the groups of an expression have matched; the first group
    is the whole. -/
abbrev Groups := List (Nat × Nat × Nat)

namespace Regex

/-! ## Matching -/

/-- How an expression is matched with a text: whether cases differ, and what counts as
    the ends of a line. -/
structure Matching where
  text : Array Char
  ignoresCase : Bool
  startsLine : Bool
  endsLine : Bool
  /-- Lines end within the text too. -/
  manyLines : Bool

namespace Matching

/-- The character at a place. -/
def at? (matching : Matching) (place : Nat) : Option Char := matching.text[place]?

/-- Whether two characters count as the same. -/
def same (matching : Matching) (a b : Char) : Bool :=
  a = b || (matching.ignoresCase && a.toLower = b.toLower)

/-- Whether a set has a character, perhaps in its other case. -/
def has (matching : Matching) (sets : List CharSet) (c : Char) : Bool :=
  sets.any (·.has c) || (matching.ignoresCase && sets.any fun set => set.has c.toLower || set.has c.toUpper)

/-- Whether the character at a place belongs to a word. -/
def inWord (matching : Matching) (place : Nat) : Bool :=
  (matching.at? place).any fun c => c.isAlphanum || c = '_'

/-- Whether a word starts or ends at a place, or both sides of it are alike. -/
def edge (matching : Matching) (place : Nat) : Bool × Bool :=
  let before := 0 < place && matching.inWord (place - 1)
  let after := matching.inWord place
  (!before && after, before && !after)

end Matching

/-- A place that matching has come to, with the groups so far. -/
abbrev Reached := Nat × Groups

/-- Places without those that come again. -/
def distinct (found : List Reached) : List Reached :=
  found.foldl (fun kept reached => if kept.contains reached then kept else kept ++ [reached]) []

/-- The places with the groups of the first that has come to each. -/
def firsts (found : List Reached) : List Reached :=
  found.foldl (fun kept reached => if kept.any (·.1 = reached.1) then kept else kept ++ [reached]) []

/-- Whether an expression asks for what a group has matched. -/
def looksBack : Regex → Bool
  | .same _ => true
  | .sequence first second | .either first second => looksBack first || looksBack second
  | .group _ inner | .repeated inner _ _ => looksBack inner
  | _ => false

/-- Repeats a step from some places on, the most rounds first. A round that stays where
    it is does not count. -/
def rounds (step : Reached → List Reached) (least : Nat) (most : Option Nat) : Nat → Nat → Reached → List Reached
  | 0, _, _ => []
  | bound + 1, count, reached =>
    let ended := if least ≤ count then [reached] else []
    if most.any (· ≤ count) then ended
    else
      let next := (step reached).filter fun found => found.1 != reached.1 || count < least
      next.flatMap (rounds step least most bound (count + 1)) ++ ended

/-- Repeats a step that does not ask for groups: every place is reached once. -/
def closure (step : Reached → List Reached) : Nat → List Reached → List Reached → List Reached
  | 0, _, found => found
  | _, [], found => found
  | bound + 1, reached :: waiting, found =>
    let next := (step reached).filter fun other =>
      !(found.any (·.1 = other.1)) && !(waiting.any (·.1 = other.1)) && other.1 != reached.1
    closure step bound (next ++ waiting) (found ++ next)

/-- The places that matching comes to from a place, in the order of preference. -/
def ends (matching : Matching) (tidy : List Reached → List Reached) : Regex → Reached → List Reached
  | .nothing, reached => [reached]
  | .exactly c, (place, groups) =>
    if (matching.at? place).any (matching.same c) then [(place + 1, groups)] else []
  | .anyChar, (place, groups) => if (matching.at? place).isSome then [(place + 1, groups)] else []
  | .within inside sets, (place, groups) =>
    if (matching.at? place).any fun c => matching.has sets c = inside then [(place + 1, groups)] else []
  | .sequence first second, reached =>
    tidy ((ends matching tidy first reached).flatMap (ends matching tidy second))
  | .either first second, reached => tidy (ends matching tidy first reached ++ ends matching tidy second reached)
  | .group number inner, (place, groups) =>
    (ends matching tidy inner (place, groups)).map fun (stop, found) =>
      (stop, (number, place, stop) :: found.filter (·.1 != number))
  | .repeated inner least most, (place, groups) =>
    let step := ends matching tidy inner
    let bound := matching.text.size - place + least + 2
    match least, most with
    | 0, none =>
      if looksBack inner then distinct (rounds step 0 none bound 0 (place, groups))
      else
        let found := closure step ((bound + 1) * (bound + 1)) [(place, groups)] [(place, groups)]
        (found.mergeSort fun a b => b.1 ≤ a.1)
    | _, _ => tidy (rounds step least most bound 0 (place, groups))
  | .same number, (place, groups) =>
    match groups.lookup number with
    | none => []
    | some (start, stop) =>
      let size := stop - start
      let matches_ := (List.range size).all fun n =>
        match matching.at? (start + n), matching.at? (place + n) with
        | some a, some b => matching.same a b
        | _, _ => false
      if matches_ then [(place + size, groups)] else []
  | .lineStart, (place, groups) =>
    let starts := (place = 0 && matching.startsLine) ||
      (matching.manyLines && 0 < place && matching.at? (place - 1) = some '\n')
    if starts then [(place, groups)] else []
  | .lineEnd, (place, groups) =>
    let stops := (place = matching.text.size && matching.endsLine) || (matching.manyLines && matching.at? place = some '\n')
    if stops then [(place, groups)] else []
  | .textStart, (place, groups) => if place = 0 then [(place, groups)] else []
  | .textEnd, (place, groups) => if place = matching.text.size then [(place, groups)] else []
  | .wordEdge starts stops, (place, groups) =>
    let (starting, ending) := matching.edge place
    if (starts && starting) || (stops && ending) then [(place, groups)] else []
  | .noEdge, (place, groups) =>
    let (starting, ending) := matching.edge place
    if starting || ending then [] else [(place, groups)]

/-- The longest match at a place that passes a test of where it stops, with its groups. -/
def matchWhere? (matching : Matching) (regex : Regex) (accepts : Nat → Bool) (place : Nat) : Option Groups :=
  let tidy := if looksBack regex then distinct else firsts
  let found := (ends matching tidy regex (place, [])).filter (accepts ·.1)
  let best := found.foldl (fun (best : Option Reached) reached =>
    match best with
    | none => some reached
    | some other => if other.1 < reached.1 then some reached else best) none
  best.map fun (stop, groups) => (0, place, stop) :: groups

/-- The longest match at a place, with its groups. -/
def matchAt? (matching : Matching) (regex : Regex) (place : Nat) : Option Groups :=
  matchWhere? matching regex (fun _ => true) place

/-- The first match from a place on that passes a test of where it starts and stops, within
    a number of places. -/
def searchFrom (matching : Matching) (regex : Regex) (accepts : Nat → Nat → Bool) : Nat → Nat → Option Groups
  | 0, _ => none
  | bound + 1, place =>
    match matchWhere? matching regex (accepts place) place with
    | some groups => some groups
    | none => searchFrom matching regex accepts bound (place + 1)

/-- The first match from a place on that passes a test of where it starts and stops. -/
def searchWhere (matching : Matching) (regex : Regex) (accepts : Nat → Nat → Bool) (place : Nat) : Option Groups :=
  searchFrom matching regex accepts (matching.text.size + 1 - place) place

/-- The first match from a place on. -/
def search (matching : Matching) (regex : Regex) (place : Nat) : Option Groups :=
  searchWhere matching regex (fun _ _ => true) place

/-- The matching of a text that is a line. -/
def line (text : String) (ignoresCase : Bool) : Matching := ⟨text.toList.toArray, ignoresCase, true, true, false⟩

/-- The part of a text that a group has matched. -/
def part? (matching : Matching) (groups : Groups) (number : Nat) : Option String :=
  (groups.lookup number).map fun (start, stop) => String.ofList (matching.text.extract start stop).toList

/-! ## Reading -/

/-- What is wrong with the text of an expression. -/
inductive Fault where
  | openBracket | openGroup | closeGroup | openBrace | badBrace | badRange | badClass | badRepeat | endsInBackslash
  | badReference | tooGreat | meaningless
  deriving DecidableEq, Repr

/-- The message of what is wrong. -/
def Fault.message : Fault → String
  | .openBracket => "Unmatched [, [^, [:, [., or [="
  | .openGroup => "Unmatched ( or \\("
  | .closeGroup => "Unmatched ) or \\)"
  | .openBrace => "Unmatched \x7b or \\\x7b"
  | .badBrace => "Invalid content of \\\x7b\\\x7d"
  | .badRange => "Invalid range end"
  | .badClass => "Invalid character class name"
  | .badRepeat => "Invalid preceding regular expression"
  | .endsInBackslash => "Trailing backslash"
  | .badReference => "Invalid back reference"
  | .tooGreat => "Regular expression too big"
  | .meaningless => "Invalid regular expression"

/-- The sets that stand in brackets, and the text behind them. -/
def brackets : Nat → Bool → List Char → Except Fault (List CharSet × List Char)
  | 0, _, _ => .error .openBracket
  | _, _, [] => .error .openBracket
  | bound + 1, _, '[' :: mark :: rest =>
    if mark = ':' || mark = '.' || mark = '=' then
      let name := rest.takeWhile (· ≠ mark)
      match rest.drop name.length with
      | _ :: ']' :: rest => do
        let set ← if mark = ':' then
            if (CharSet.named? (String.ofList name)).isSome then .ok (CharSet.named (String.ofList name)) else .error .badClass
          else match name with
            | [c] => .ok (CharSet.range c c)
            | _ => .error .openBracket
        let (sets, rest) ← brackets bound false rest
        return (set :: sets, rest)
      | _ => .error .openBracket
    else one bound '[' (mark :: rest)
  | bound + 1, first, ']' :: rest => if first then one bound ']' rest else .ok ([], rest)
  | bound + 1, _, c :: rest => one bound c rest
where
  /-- A character in brackets, or a range that it starts. -/
  one (bound : Nat) (c : Char) (rest : List Char) : Except Fault (List CharSet × List Char) :=
    match rest with
    | '-' :: last :: after =>
      if last = ']' then do
        let (sets, rest) ← brackets bound false rest
        return (.range c c :: sets, rest)
      else if last < c then .error .badRange
      else do
        let (sets, rest) ← brackets bound false after
        return (.range c last :: sets, rest)
    | rest => do
      let (sets, rest) ← brackets bound false rest
      return (.range c c :: sets, rest)

/-- The smallest parts of the text of an expression. -/
inductive Mark where
  | ending
  | part (regex : Regex)
  | anchor (regex : Regex)
  | brackets
  | star | plus | optional | bar | openGroup | closeGroup | openBrace
  deriving DecidableEq

/-- How far a text has been read: what is left of it, how many groups have been opened,
    and which have been closed. -/
structure Progress where
  rest : List Char
  groups : Nat
  closed : List Nat

/-- What reads. -/
abbrev Parsing := StateT Progress (Except Fault)

/-- The characters of words. -/
def wordSets : List CharSet := [.named "alnum", .range '_' '_']

/-- What a character behind a backslash means in both forms. -/
def escaped (c : Char) : Mark :=
  match c with
  | 'w' => .part (.within true wordSets)
  | 'W' => .part (.within false wordSets)
  | 's' => .part (.within true [.named "space"])
  | 'S' => .part (.within false [.named "space"])
  | 'b' => .anchor (.wordEdge true true)
  | 'B' => .anchor .noEdge
  | '<' => .anchor (.wordEdge true false)
  | '>' => .anchor (.wordEdge false true)
  | '\x60' => .anchor .textStart
  | '\'' => .anchor .textEnd
  | c => if '1' ≤ c && c ≤ '9' then .part (.same (c.toNat - 48)) else .part (.exactly c)

/-- The mark of a character behind a backslash or without one, where it is an operator. -/
def operator (c : Char) : Option Mark :=
  match c with
  | '+' => some .plus
  | '?' => some .optional
  | '|' => some .bar
  | '(' => some .openGroup
  | ')' => some .closeGroup
  | '{' => some .openBrace
  | _ => none

/-- Whether a basic expression ends here or has a part of it closed. -/
def endsPart : List Char → Bool
  | [] => true
  | '\\' :: c :: _ => c = ')' || c = '|'
  | _ => false

/-- Reads a mark. The first one of a part may mean something else. -/
def mark (extended first : Bool) : Parsing Mark := do
  let progress ← get
  let go (rest : List Char) (found : Mark) : Parsing Mark := do
    set { progress with rest }
    return found
  match progress.rest with
  | [] => return .ending
  | ['\\'] => throw .endsInBackslash
  | '\\' :: c :: rest =>
    match if extended then none else operator c with
    | some found => go rest found
    | none => go rest (if extended && (operator c).isSome then .part (.exactly c) else escaped c)
  | '[' :: rest => go rest .brackets
  | '.' :: rest => go rest (.part .anyChar)
  | '*' :: rest => go rest (if first && !extended then .part (.exactly '*') else .star)
  | '^' :: rest => go rest (if extended || first then .anchor .lineStart else .part (.exactly '^'))
  | '$' :: rest => go rest (if extended || endsPart rest then .anchor .lineEnd else .part (.exactly '$'))
  | c :: rest => go rest (((if extended then operator c else none)).getD (.part (.exactly c)))

/-- The most times that a part may be repeated. -/
def repeatLimit : Nat := 32767

/-- Reads the numbers between braces; nothing is read if there are none. -/
def braces? (extended : Bool) : Parsing (Option (Nat × Option Nat)) := do
  let progress ← get
  let digits (text : List Char) : List Char × List Char := (text.takeWhile Char.isDigit, text.dropWhile Char.isDigit)
  let close (rest : List Char) : Option (List Char) :=
    match extended, rest with
    | true, '}' :: rest => some rest
    | false, '\\' :: '}' :: rest => some rest
    | _, _ => none
  let number (text : List Char) : Nat := Decimal.ofDigits text
  let (low, rest) := digits progress.rest
  let found : Option (Nat × Option Nat × List Char) :=
    match rest with
    | ',' :: rest =>
      let (high, rest) := digits rest
      (close rest).map fun rest => (number low, if high.isEmpty then none else some (number high), rest)
    | rest => if low.isEmpty then none else (close rest).map fun rest => (number low, some (number low), rest)
  match found with
  | none =>
    if extended then return none
    else throw (if progress.rest.all (fun c => c.isDigit || c = ',') then .openBrace else .badBrace)
  | some (least, most, rest) =>
    if most.any (· < least) then throw .badBrace
    if repeatLimit < least || most.any (repeatLimit < ·) then throw .tooGreat
    set { progress with rest }
    return some (least, most)

mutual

/-- Reads parts one of which has to match, up to the end or the end of a group, and
    tells whether a group ends. -/
def alternatives (extended : Bool) : Nat → Parsing (Regex × Bool)
  | 0 => throw .tooGreat
  | bound + 1 => do
    let (first, last) ← parts extended bound true none
    match last with
    | .bar =>
      let (second, closes) ← alternatives extended bound
      return (.either first second, closes)
    | other => return (first, other = .closeGroup)

/-- Reads parts one after another, and the mark that ends them. The part before may
    still be repeated. -/
def parts (extended : Bool) : Nat → Bool → Option Regex → Parsing (Regex × Mark)
  | 0, _, _ => throw .tooGreat
  | bound + 1, first, before? => do
    let join (rest : Regex) : Regex :=
      match before? with
      | none => rest
      | some before => if rest = .nothing then before else .sequence before rest
    let again (least : Nat) (most : Option Nat) : Parsing (Regex × Mark) :=
      match before? with
      | some before => parts extended bound false (some (.repeated before least most))
      | none => parts extended bound first none
    let next (part : Regex) : Parsing (Regex × Mark) := do
      let (rest, last) ← parts extended bound false (some part)
      return (join rest, last)
    match ← mark extended first with
    | .ending => return (join .nothing, .ending)
    | .bar => return (join .nothing, .bar)
    | .closeGroup => return (join .nothing, .closeGroup)
    | .star => again 0 none
    | .plus => again 1 none
    | .optional => again 0 (some 1)
    | .openBrace =>
      if before?.isNone && extended then throw .badRepeat
      match ← braces? extended with
      | some (least, most) =>
        if before?.isNone then throw .badRepeat
        again least most
      | none => next (.exactly '{')
    | .anchor regex =>
      let (rest, last) ← parts extended bound (regex = .lineStart) none
      let both := if rest = .nothing then regex else .sequence regex rest
      return (join both, last)
    | .brackets =>
      let progress ← get
      let (inside, text) := match progress.rest with
        | '^' :: rest => (false, rest)
        | rest => (true, rest)
      if progress.rest.isEmpty then throw .meaningless
      let (sets, rest) ← brackets (text.length + 1) true text
      set { progress with rest }
      next (.within inside sets)
    | .openGroup =>
      let number := (← get).groups + 1
      modify fun progress => { progress with groups := number }
      let (inner, closes) ← alternatives extended bound
      if !closes then throw .openGroup
      modify fun progress => { progress with closed := number :: progress.closed }
      next (.group number inner)
    | .part regex =>
      if let .same number := regex then
        if !(← get).closed.contains number then throw .badReference
      next regex

end

/-- The expression that a text stands for. -/
def ofText (extended : Bool) (text : String) : Except Fault Regex := do
  let ((regex, closes), _) ← (alternatives extended (4 * text.length + 8)).run ⟨text.toList, 0, []⟩
  if closes then throw .closeGroup
  return regex

/-- The number of groups of an expression. -/
def groupCount : Regex → Nat
  | .sequence first second | .either first second => max (groupCount first) (groupCount second)
  | .group number inner => max number (groupCount inner)
  | .repeated inner _ _ => groupCount inner
  | _ => 0

/-- The expression that matches a text and nothing else. -/
def literal (text : String) : Regex :=
  text.toList.foldr (fun c rest => if rest = .nothing then .exactly c else .sequence (.exactly c) rest) .nothing

end Regex
end Pkgset

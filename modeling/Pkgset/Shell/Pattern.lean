import Pkgset.Text.CharSet

/-!
# Patterns

A pattern is a list of elements: a character, any character, any text, or one of some
sets of characters. A quoted character of a pattern stands for itself.
-/

namespace Pkgset.Shell

/-- An element of a pattern. -/
inductive Element where
  | exactly (c : Char)
  | anyChar
  | anyText
  /-- A character in one of some sets, or in none of them. -/
  | within (inside : Bool) (sets : List CharSet)
  /-- What one of some patterns matches, as often as a sign allows: once, perhaps, often,
      at least once, or never. -/
  | group (sign : Char) (choices : List (List Element))

/-- What texts are matched with. -/
abbrev Pattern := List Element

namespace Pattern

/-- A text of which each character is quoted or not. -/
abbrev Written := List (Char × Bool)

/-- The written text without the escapes in it: a backslash that is not quoted quotes
    what follows. -/
def unescaped : Written → Written
  | ('\\', false) :: (c, _) :: rest => (c, true) :: unescaped rest
  | c :: rest => c :: unescaped rest
  | [] => []

/-- The name of a set of characters behind a bracket, and what follows it. -/
def setName? (text : Written) : Option (String × Written) :=
  match text with
  | (':', false) :: rest =>
    let letters := (rest.takeWhile fun (c, _) => c.isAlpha).map (·.1)
    match rest.drop letters.length with
    | (':', false) :: (']', false) :: rest =>
      let name := String.ofList letters
      if (CharSet.named? name).isSome then some (name, rest) else none
    | _ => none
  | _ => none

/-- Reads sets up to the bracket that ends them; a bracket that comes first is a
    character. -/
def sets? : Nat → Bool → Written → Option (List CharSet × Written)
  | 0, _, _ => none
  | _, _, [] => none
  | bound + 1, isFirst, (c, quoted) :: rest =>
    if c = ']' && !quoted && !isFirst then some ([], rest)
    else match if c = '[' && !quoted then setName? rest else none with
      | some (name, rest) => (sets? bound false rest).map fun (more, rest) => (.named name :: more, rest)
      | none =>
        match rest with
        | ('-', false) :: (']', false) :: _ =>
          (sets? bound false rest).map fun (more, rest) => (.range c c :: more, rest)
        | ('-', false) :: (high, _) :: rest =>
          (sets? bound false rest).map fun (more, rest) => (.range c high :: more, rest)
        | _ => (sets? bound false rest).map fun (more, rest) => (.range c c :: more, rest)

/-- Cuts a text at the bars that no parentheses enclose, up to the one that closes it. -/
def choices? : Nat → Written → Written → Option (List Written × Written)
  | _, _, [] => none
  | depth, current, (c, quoted) :: rest =>
    let goOn (depth : Nat) := choices? depth ((c, quoted) :: current) rest
    if quoted then goOn depth
    else if c = '(' then goOn (depth + 1)
    else if c = ')' then if depth = 0 then some ([current.reverse], rest) else goOn (depth - 1)
    else if c = '|' && depth = 0 then
      (choices? 0 [] rest).map fun (others, rest) => (current.reverse :: others, rest)
    else goOn depth

/-- Whether a group may follow a character. -/
def startsGroup (c : Char) : Bool := ['?', '*', '+', '@', '!'].contains c

/-- How a written text is read as a pattern: whether a caret may stand for the exclamation
    mark that turns sets around, and whether there are groups. -/
structure Style where
  caret : Bool
  groups : Bool

/-- The elements of characters that are quoted or not, at most a number of them. -/
def elements (style : Style) : Nat → Written → Pattern
  | 0, _ => []
  | _, [] => []
  | bound + 1, (c, quoted) :: rest =>
    let group? := match rest with
      | ('(', false) :: inner => if style.groups && !quoted && startsGroup c then choices? 0 [] inner else none
      | _ => none
    match group? with
    | some (found, rest) => .group c (found.map (elements style bound)) :: elements style bound rest
    | none =>
      match c, quoted with
      | '*', false => .anyText :: elements style bound rest
      | '?', false => .anyChar :: elements style bound rest
      | '[', false =>
        let (inside, content) := match rest with
          | ('!', false) :: content => (false, content)
          | ('^', false) :: content => if style.caret then (false, content) else (true, rest)
          | _ => (true, rest)
        match sets? (content.length + 1) true content with
        | some (sets, rest) => .within inside sets :: elements style bound rest
        | none => .exactly c :: elements style bound rest
      | _, _ => .exactly c :: elements style bound rest

/-- The pattern of characters that are quoted or not, in a style. -/
def inStyle (style : Style) (text : Written) : Pattern := elements style text.length (unescaped text)

/-- The pattern of characters that are quoted or not. -/
def ofWritten (caret : Bool) (text : Written) : Pattern := inStyle ⟨caret, false⟩ text

/-- Whether some rest of a text passes a test. -/
def anyRest (test : List Char → Bool) : List Char → Bool
  | [] => test []
  | c :: rest => test (c :: rest) || anyRest test rest

/-- Whether a pattern without groups matches a whole text. -/
def matchesPlain : Pattern → List Char → Bool
  | [], text => text.isEmpty
  | [.anyText], _ => true
  | .anyText :: rest, text => anyRest (matchesPlain rest) text
  | _ :: _, [] => false
  | .exactly d :: rest, c :: text => c = d && matchesPlain rest text
  | .anyChar :: rest, _ :: text => matchesPlain rest text
  | .within inside sets :: rest, c :: text => (sets.any (·.has c)) = inside && matchesPlain rest text
  | .group _ _ :: _, _ => false

/-- Whether a pattern matches a whole text, within a number of steps. -/
def matchesWithin : Nat → Pattern → List Char → Bool
  | 0, _, _ => false
  | _, [], text => text.isEmpty
  | bound + 1, element :: rest, text =>
    let cuts := (List.range (text.length + 1)).map fun size => (text.take size, text.drop size)
    match element, text with
    | .anyText, text => anyRest (matchesWithin bound rest) text
    | .exactly d, c :: text => c = d && matchesWithin bound rest text
    | .anyChar, _ :: text => matchesWithin bound rest text
    | .within inside sets, c :: text => (sets.any (·.has c)) = inside && matchesWithin bound rest text
    | .group sign choices, text =>
      let isChosen (part : List Char) : Bool := choices.any fun choice => matchesWithin bound choice part
      let more (after : List Char) : Bool := matchesWithin bound rest after
      let again (after : List Char) : Bool := matchesWithin bound (.group '*' choices :: rest) after
      match sign with
      | '@' => cuts.any fun (part, after) => isChosen part && more after
      | '?' => more text || cuts.any fun (part, after) => isChosen part && more after
      | '!' => cuts.any fun (part, after) => !isChosen part && more after
      | '*' => more text || cuts.any fun (part, after) => !part.isEmpty && isChosen part && again after
      | _ => cuts.any fun (part, after) => isChosen part && (more after || (!part.isEmpty && again after))
    | _, [] => false

/-- The most steps that matching takes before the length of a text counts. -/
def stepLimit : Nat := 10000

/-- Whether a pattern matches a whole text. -/
def accepts (pattern : Pattern) (text : List Char) : Bool :=
  let isGroup (element : Element) : Bool :=
    match element with
    | .group _ _ => true
    | _ => false
  if pattern.any isGroup then matchesWithin (stepLimit + text.length) pattern text else matchesPlain pattern text

/-- Whether a pattern without quotes matches a whole text. -/
def covers (pattern text : String) : Bool :=
  accepts (ofWritten true (pattern.toList.map fun c => (c, false))) text.toList

/-- Whether a pattern can match anything but one text. -/
def isOpen (pattern : Pattern) : Bool :=
  pattern.any fun element =>
    match element with
    | .exactly _ => false
    | _ => true

/-- Text without the shortest or longest part that a pattern matches at its start. -/
def trimStart (pattern : Pattern) (longest : Bool) (text : List Char) : List Char :=
  let sizes := List.range (text.length + 1)
  let sizes := if longest then sizes.reverse else sizes
  text.drop ((sizes.find? fun size => accepts pattern (text.take size)).getD 0)

/-- Text without the shortest or longest part that a pattern matches at its end. -/
def trimEnd (pattern : Pattern) (longest : Bool) (text : List Char) : List Char :=
  let sizes := List.range (text.length + 1)
  let sizes := if longest then sizes else sizes.reverse
  text.take ((sizes.find? fun size => accepts pattern (text.drop size)).getD text.length)

end Pattern
end Pkgset.Shell

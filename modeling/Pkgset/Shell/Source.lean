import Pkgset.Shell.Syntax
import Pkgset.Text.Dict

/-!
# Texts of commands

A text is read character by character. Where a word is an alias, its text is read in
its place, and the alias does not stand for anything until that text has been left. A
text after a line is read when the line ends.
-/

namespace Pkgset.Shell

/-- What a text breaks, and the line on which that shows. -/
structure Fault where
  line : Nat
  message : String

/-- The smallest parts of a text that mean something. -/
inductive Token where
  | endOfText | newline | word | redirect
  | mark (text : String)
  | keyword (text : String)
  deriving DecidableEq, Repr

/-- How a message names a token. -/
def Token.wording : Token → String
  | .endOfText => "end of file"
  | .newline => "newline"
  | .word => "word"
  | .redirect => "redirection"
  | .mark text | .keyword text => "\"" ++ text ++ "\""

/-- What is heeded in the next token: line ends are skipped, words may be keywords or
    aliases, nothing is expanded in a delimiter, and lists may be assigned. -/
structure Check where
  newlines : Bool
  keywords : Bool
  aliases : Bool
  delimiter : Bool
  lists : Bool
  /-- A word is a regular expression. -/
  expression : Bool

namespace Check

/-- A word like any other. -/
def plain : Check := ⟨false, false, false, false, false, false⟩

/-- The start of a command. -/
def command : Check := ⟨false, true, true, false, true, false⟩

/-- The start of a command, perhaps after some lines. -/
def commandBelow : Check := ⟨true, true, true, false, true, false⟩

/-- A pattern or the end of a choice. -/
def choice : Check := ⟨true, true, false, false, false, false⟩

/-- A word in which aliases are heeded. -/
def opening : Check := ⟨false, false, true, false, true, false⟩

end Check

/-- A text that is being read, perhaps in the place of an alias. -/
structure Frame where
  rest : List Char
  alias? : Option String
  /-- The word behind it may be an alias too. -/
  asksNext : Bool
  /-- Nothing comes after it. -/
  isWhole : Bool

/-- A text after the line that asks for it: its number, the line that ends it, whether
    tabs in front of its lines are dropped, and whether nothing in it is expanded. -/
structure Awaited where
  number : Nat
  delimiter : List Char
  dropsTabs : Bool
  literal : Bool

/-- How far reading has come. -/
structure Source where
  frames : List Frame
  line : Nat
  /-- The aliases whose texts are being read, and those whose texts have just been left. -/
  busy : List String
  leaving : List String
  /-- The last token, with its word or its redirection, and whether it is read again. -/
  last : Token
  word : Word
  mark : String
  descriptor : Option Nat
  again : Bool
  check : Check
  awaited : List Awaited
  texts : List (Nat × Word)
  number : Nat
  aliases : Dict String
  dialect : Dialect
  /-- Whether parentheses behind some characters belong to patterns. -/
  groups : Bool

/-- What reads. -/
abbrev Reading := StateT Source (Except Fault)

namespace Source

/-- The reading of a text from a line on. -/
def ofText (text : List Char) (line number : Nat) (aliases : Dict String) (dialect : Dialect) : Source :=
  { frames := [⟨text, none, false, true⟩], line, busy := [], leaving := [], last := .newline, word := [], mark := "",
    descriptor := none, again := false, check := .plain, awaited := [], texts := [], number, aliases, dialect,
    groups := false }

/-- Leaves the texts of aliases that have been read. -/
def settled (source : Source) : List Frame → Source
  | [] => { source with frames := [] }
  | frame :: others =>
    if frame.rest.isEmpty && !frame.isWhole then
      settled { source with
        leaving := frame.alias?.toList ++ source.leaving
        check := if frame.asksNext then { source.check with aliases := true } else source.check } others
    else { source with frames := frame :: others }

/-- Forgets the aliases whose texts have been left. -/
def released (source : Source) : Source :=
  if source.leaving.isEmpty then source
  else { source with busy := source.busy.filter (!source.leaving.contains ·), leaving := [] }

/-- The text that is read next, up to the end of an alias. -/
def rest (source : Source) : List Char := source.frames.head?.elim [] (·.rest)

/-- Puts a text in the place of what is read next. -/
def setRest (source : Source) (rest : List Char) : Source :=
  { source with
    frames := match source.frames with
      | frame :: others => { frame with rest } :: others
      | [] => [⟨rest, none, false, true⟩] }

end Source

namespace Reading
variable {α : Type}

/-- Stops at something that breaks the rules. -/
def fault (message : String) : Reading α := fun source => .error ⟨source.line, message⟩

/-- The next character. -/
def next : Reading (Option Char) := fun source =>
  let source := source.released
  let source := source.settled source.frames
  match source.rest with
  | [] => .ok (none, source)
  | c :: rest => .ok (some c, source.setRest rest)

/-- Goes back before a character. -/
def back (c : Option Char) : Reading Unit :=
  match c with
  | none => return ()
  | some c => modify fun source => source.setRest (c :: source.rest)

/-- The next character, without going on. -/
def peek : Reading (Option Char) := do
  let c ← next
  back c
  return c

/-- Counts a line. -/
def addLine : Reading Unit := modify fun source => { source with line := source.line + 1 }

/-- A text without the joined lines in front, and their number. -/
def afterJoins : List Char → Nat × List Char
  | '\\' :: '\n' :: rest =>
    let (lines, rest) := afterJoins rest
    (lines + 1, rest)
  | rest => (0, rest)

/-- The next character behind joined lines. -/
def nextJoined : Reading (Option Char) := do
  back (← next)
  modify fun source =>
    let (lines, rest) := afterJoins source.rest
    if lines = 0 then source else { source.setRest rest with line := source.line + lines }
  next

/-- The next character behind joined lines, without going on. -/
def peekJoined : Reading (Option Char) := do
  let c ← nextJoined
  back c
  return c

/-- Whether a certain character comes next; if so, it is taken. -/
def takes (c : Char) : Reading Bool := do
  let found ← nextJoined
  if found = some c then return true
  back found
  return false

/-- Goes on to the end of a line, out of aliases as well. -/
def skipLine : Reading Unit := modify fun source =>
  let rec skip (source : Source) : List Frame → Source
    | [] => { source with frames := [] }
    | frame :: others =>
      let rest := frame.rest.dropWhile (· ≠ '\n')
      if rest.isEmpty && !frame.isWhole then
        skip { source with leaving := frame.alias?.toList ++ source.leaving } others
      else { source with frames := { frame with rest } :: others }
  skip source source.frames

/-- Notes the token that has been read. -/
def note (token : Token) : Reading Token := do
  modify fun source => { source with last := token }
  return token

/-- Lets the last token be read again. -/
def keep : Reading Unit := modify fun source => { source with again := true }

/-- Says what is heeded in the next token. -/
def heed (check : Check) : Reading Unit := modify fun source => { source with check }

/-- Reads the text of an alias before what comes next. -/
def enter (name : String) (text : List Char) : Reading Unit := modify fun source =>
  let asksNext := text.getLast?.any fun c => c = ' ' || c = '\t'
  { source with frames := ⟨text, some name, asksNext, false⟩ :: source.frames, busy := name :: source.busy }

/-- Whether more is understood than in every shell. -/
def isRich : Reading Bool := return (← get).dialect = .rich

/-- Stops at the last token, where something else is wanted. -/
def unexpected (wanted : Option Token) : Reading α := do
  let source ← get
  match source.dialect with
  | .plain =>
    fault ("Syntax error: " ++ source.last.wording ++ " unexpected" ++
      wanted.elim "" fun token => " (expecting " ++ token.wording ++ ")")
  | .rich =>
    let near (text : String) := "syntax error near unexpected token \x60" ++ text ++ "'"
    fault (match source.last with
      | .endOfText => "syntax error: unexpected end of file"
      | .newline => near "newline"
      | .word => near (String.ofList (Word.characters source.word))
      | .redirect => near source.mark
      | .mark text | .keyword text => near text)

/-- Stops where a quotation has no end. -/
def unclosed (plain : String) (mark : Char) : Reading α := do
  if ← isRich then fault ("unexpected EOF while looking for matching \x60" ++ mark.toString ++ "'")
  else fault ("Syntax error: " ++ plain)

end Reading
end Pkgset.Shell

import Pkgset.Kernel.Account
import Pkgset.Shell.Pattern
import Pkgset.Text.Regex
import Pkgset.Tool.Mode

/-!
# Queries on files

A query asks something of each file of a tree, or does something with it. Queries are
joined by words; one that follows another counts only if that one holds.
-/

namespace Pkgset.Tool.Find
open Kernel Shell

/-- How something is compared with a number. -/
inductive Range where
  | exactly (n : Nat) | above (n : Nat) | below (n : Nat)

/-- Whether a number is in a range. -/
def Range.holds (range : Range) (n : Nat) : Bool :=
  match range with
  | .exactly m => n = m
  | .above m => m < n
  | .below m => n < m

/-- How the permissions of a file are compared: all of them, those that are told, or any
    of those. -/
inductive Manner where
  | exact | every | some_

/-- A query on a file. -/
inductive Query where
  | always (holds : Bool)
  | name (pattern : Pattern) (ignoresCase : Bool)
  | path (pattern : Pattern) (ignoresCase : Bool)
  | target (pattern : Pattern) (ignoresCase : Bool)
  | regex (regex : Regex) (ignoresCase : Bool)
  | kind (letters : List Char) (crosses : Bool)
  | empty
  | size (range : Range) (unit : Nat)
  | mode (manner : Manner) (ofFolder ofFile : Nat)
  | names (range : Range)
  | number (range : Range)
  | newer (moment : Int)
  /-- The age in a unit of nanoseconds. -/
  | age (range : Range) (unit : Nat)
  | owned (isRoot : Bool)
  | same (id : InodeId)
  | allowed (letter : Char)
  | print (ending : String)
  | printTo (path ending : String)
  | format (text : String)
  | list
  | run (arguments : List String) (inFolder : Bool)
  | collect (place : Nat) (arguments : List String) (inFolder : Bool)
  | ask (arguments : List String)
  | delete
  | skip
  | quit
  | negation (query : Query)
  | both (first second : Query)
  | either (first second : Query)
  | sequence (first second : Query)

/-- Whether a query does something with the files it is asked of. -/
def Query.acts : Query → Bool
  | .print _ | .printTo _ _ | .format _ | .list | .run _ _ | .collect _ _ _ | .ask _ | .delete | .quit => true
  | .negation query => query.acts
  | .both first second | .either first second | .sequence first second => first.acts || second.acts
  | _ => false

/-- Whether a query removes files. -/
def Query.deletes : Query → Bool
  | .delete => true
  | .negation query => query.deletes
  | .both first second | .either first second | .sequence first second => first.deletes || second.deletes
  | _ => false

/-- How a tree is walked. -/
structure Walk where
  /-- Whether links are followed: never, at the start, or always. -/
  follows : Char
  least : Nat
  most : Option Nat
  depthFirst : Bool
  regexKind : String
  now : Int

/-- What is left to be read, and what has been read of the way to walk. -/
structure Progress where
  rest : List String
  walk : Walk
  collected : Nat

/-- What reads queries. -/
abbrev Reading := StateT Progress Work

namespace Reading
variable {α : Type}

/-- Says what is wrong. -/
def fail (text : String) : Reading α := Work.fail 1 text

/-- The argument of a word. -/
def argument (word : String) : Reading String := do
  let progress ← get
  match progress.rest with
  | [] => fail ("missing argument to \x60" ++ word ++ "'")
  | value :: rest =>
    set { progress with rest }
    return value

/-- The range that a text tells. -/
def range? (text : String) : Option Range :=
  match text.toList with
  | '+' :: digits => (natural? (String.ofList digits)).map .above
  | '-' :: digits => (natural? (String.ofList digits)).map .below
  | _ => (natural? text).map .exactly

/-- The range that is the argument of a word. -/
def range (word : String) : Reading Range := do
  let text ← argument word
  match range? text with
  | some range => return range
  | none => fail ("invalid argument \x60" ++ text ++ "' to \x60" ++ word ++ "'")

/-- The pattern that a text is. Separators of paths are nothing special in it. -/
def pattern (ignoresCase : Bool) (text : String) : Pattern :=
  Pattern.ofWritten true ((if ignoresCase then text.toLower else text).toList.map (·, false))

/-- The letters of kinds of files. -/
def kinds (word text : String) : Reading (List Char) := do
  let rec go : List Char → Reading (List Char)
    | [] => return []
    | c :: rest => do
      if !"bcdpflsD".toList.contains c then fail ("Unknown argument to " ++ word ++ ": " ++ c.toString)
      match rest with
      | [] => return [c]
      | [','] =>
        fail ("Last file type in list argument to " ++ word ++ " is missing, i.e., list is ending on: ','")
      | ',' :: rest => return c :: (← go rest)
      | _ => fail ("Must separate multiple arguments to " ++ word ++ " using: ','")
  if text = "" then fail ("Arguments to " ++ word ++ " should contain at least one letter")
  go text.toList

/-- The permissions that a text tells. -/
def mode (text : String) : Reading Query := do
  let (manner, body) := match text.toList with
    | '-' :: rest => (Manner.every, String.ofList rest)
    | '/' :: rest => (Manner.some_, String.ofList rest)
    | _ => (Manner.exact, text)
  match Mode.ofText? body with
  | some changes => return .mode manner (Mode.apply changes true 0 0) (Mode.apply changes false 0 0)
  | none => fail ("invalid mode " ++ quoted text)

/-- The size that a text tells. -/
def size (text : String) : Reading Query := do
  let wrong : Reading Query := fail ("invalid -size type \x60" ++ ((text.toList.getLast?).elim "" (·.toString)) ++ "'")
  let unit? : Option Nat := match text.toList.getLast? with
    | some 'c' => some 1
    | some 'w' => some 2
    | some 'b' => some 512
    | some 'k' => some 1024
    | some 'M' => some 1048576
    | some 'G' => some 1073741824
    | some c => if c.isDigit then some 512 else none
    | none => none
  let digits := if text.toList.getLast?.any Char.isDigit then text else (text.dropEnd 1).toString
  match unit?, range? digits with
  | some unit, some range => return .size range unit
  | none, _ => wrong
  | _, none => fail ("Invalid argument \x60" ++ text ++ "' to -size")

/-- The commands up to a semicolon, or up to a plus sign behind braces. -/
def command (word : String) : Reading (List String × Bool) := do
  let progress ← get
  let rec go : List String → List String → Option (List String × Bool × List String)
    | _, [] => none
    | found, ";" :: rest => some (found.reverse, false, rest)
    | "{}" :: found, "+" :: rest => some (("{}" :: found).reverse, true, rest)
    | found, other :: rest => go (other :: found) rest
  match go [] progress.rest with
  | some (arguments, collects, rest) =>
    if arguments.isEmpty || (collects && arguments.length = 1) then
      if arguments.isEmpty then fail ("missing argument to \x60" ++ word ++ "'")
    if collects && 1 < (arguments.filter (·.contains "{}")).length then
      fail ("Only one instance of \x7b\x7d is supported with " ++ word ++ " ... +")
    set { progress with rest }
    return (arguments, collects)
  | none => fail ("missing argument to \x60" ++ word ++ "'")

/-- An expression of another kind, in which plus signs and question marks are operators. -/
def asBasic : List Char → List Char
  | '\\' :: c :: rest => '\\' :: c :: asBasic rest
  | '+' :: rest => '\\' :: '+' :: asBasic rest
  | '?' :: rest => '\\' :: '?' :: asBasic rest
  | c :: rest => c :: asBasic rest
  | [] => []

/-- The query that asks whether a path matches an expression. -/
def regex (ignoresCase : Bool) (text : String) : Reading Query := do
  let kind := (← get).walk.regexKind
  let extended := ["posix-extended", "egrep", "posix-egrep", "gnu-awk", "awk", "posix-awk"].contains kind
  let isBasic := ["posix-basic", "sed", "grep", "ed", "posix-minimal-basic"].contains kind
  let written := if extended || isBasic then text else String.ofList (asBasic text.toList)
  match Regex.ofText extended written with
  | .ok regex => return .regex regex ignoresCase
  | .error fault => fail ("failed to compile regular expression '" ++ text ++ "': " ++ fault.message)

/-- The names of the kinds of expressions. -/
def regexKinds : List String := ["findutils-default", "ed", "emacs", "gnu-awk", "grep", "posix-awk", "awk", "posix-basic",
  "posix-egrep", "egrep", "posix-extended", "posix-minimal-basic", "sed"]

/-- What is known of a file that is told to compare others with. -/
def reference (path : String) : Reading (InodeId × Inode) := do
  match ← Work.inspect true path with
  | .ok found => return found
  | .error cause => fail (quoted path ++ ": " ++ cause.message)

/-- A number that is the argument of a word. -/
def depth (word : String) : Reading Nat := do
  let text ← argument word
  match natural? text with
  | some n => return n
  | none => fail ("Expected a positive decimal integer argument to " ++ word ++ ", but got " ++ quoted text)

/-- Changes the way to walk. -/
def onWalk (change : Walk → Walk) : Reading Query := do
  modify fun progress => { progress with walk := change progress.walk }
  return .always true

/-- What is wrong with the format of what is written about files. -/
def formatFaults : List Char → List String
  | '%' :: rest =>
    let flags := rest.takeWhile fun c => "-+#0123456789".toList.contains c
    match rest.drop flags.length with
    | letter :: _ =>
      (if "%pPfhHdyYsmMluUgGinkbDFStacTAC".toList.contains letter then []
        else ["unrecognized format directive \x60%" ++ letter.toString ++ "'"]) ++ formatFaults (rest.drop 1)
    | [] => []
  | '\\' :: c :: rest =>
    (if "abfnrtvc\\01234567".toList.contains c then [] else ["unrecognized escape \x60\\" ++ c.toString ++ "'"]) ++
      formatFaults rest
  | _ :: rest => formatFaults rest
  | [] => []
termination_by text => text.length
decreasing_by all_goals (simp only [List.length_cons, List.length_drop]; omega)

/-- The query that a word asks. -/
def query (word : String) : Reading Query := do
  let day := 86400 * 1000000000
  let minute := 60 * 1000000000
  match word with
  | "-true" | "-daystart" | "-noleaf" | "-warn" | "-nowarn" | "-xdev" | "-mount" | "-ignore_readdir_race"
  | "-noignore_readdir_race" => return .always true
  | "-false" => return .always false
  | "-name" | "-iname" =>
    let ignoresCase : Bool := word = "-iname"
    return .name (pattern ignoresCase (← argument word)) ignoresCase
  | "-path" | "-wholename" | "-ipath" | "-iwholename" =>
    let ignoresCase := word.startsWith "-i"
    return .path (pattern ignoresCase (← argument word)) ignoresCase
  | "-lname" | "-ilname" =>
    let ignoresCase : Bool := word = "-ilname"
    return .target (pattern ignoresCase (← argument word)) ignoresCase
  | "-regex" => regex false (← argument word)
  | "-iregex" => regex true (← argument word)
  | "-regextype" =>
    let kind ← argument word
    if !regexKinds.contains kind then
      fail ("Unknown regular expression type " ++ quoted kind ++ "; valid types are " ++
        ", ".intercalate (regexKinds.map quoted) ++ ".")
    onWalk fun walk => { walk with regexKind := kind }
  | "-type" => return .kind (← kinds word (← argument word)) false
  | "-xtype" => return .kind (← kinds word (← argument word)) true
  | "-empty" => return .empty
  | "-size" => size (← argument word)
  | "-perm" => mode (← argument word)
  | "-links" => return .names (← range word)
  | "-inum" => return .number (← range word)
  | "-newer" | "-anewer" | "-cnewer" | "-newermm" => return .newer (← reference (← argument word)).2.modified
  | "-mtime" | "-atime" | "-ctime" => return .age (← range word) day
  | "-mmin" | "-amin" | "-cmin" => return .age (← range word) minute
  | "-uid" | "-gid" =>
    return .owned ((← range word).holds 0)
  | "-user" | "-group" =>
    let name ← argument word
    match (Account.find? name).map (·.user) with
    | some user => return .owned (user = 0)
    | none =>
      match natural? name with
      | some n => return .owned (n = 0)
      | none => fail (quoted name ++ " is not the name of " ++
          (if word = "-user" then "a known user" else "an existing group"))
  | "-nouser" | "-nogroup" => return .always false
  | "-samefile" => return .same (← reference (← argument word)).1
  | "-readable" => return .allowed 'r'
  | "-writable" => return .allowed 'w'
  | "-executable" => return .allowed 'x'
  | "-print" => return .print "\n"
  | "-print0" => return .print "\x00"
  | "-fprint" | "-fprint0" =>
    let path ← argument word
    match ← Work.act (Act.openFile path .output 0o666) with
    | .ok descriptor => Work.act (Act.close descriptor)
    | .error cause => fail (quoted path ++ ": " ++ cause.message)
    return .printTo path (if word = "-fprint" then "\n" else "\x00")
  | "-printf" =>
    let text ← argument word
    for fault in formatFaults text.toList do Work.warn ("warning: " ++ fault)
    return .format text
  | "-ls" => return .list
  | "-exec" | "-execdir" =>
    let (arguments, collects) ← command word
    let inFolder : Bool := word = "-execdir"
    if collects then
      let place := (← get).collected
      modify fun progress => { progress with collected := place + 1 }
      return .collect place arguments.dropLast inFolder
    else return .run arguments inFolder
  | "-ok" | "-okdir" =>
    let (arguments, _) ← command word
    return .ask arguments
  | "-delete" =>
    discard (onWalk fun walk => { walk with depthFirst := true })
    return .delete
  | "-prune" => return .skip
  | "-quit" => return .quit
  | "-depth" | "-d" => onWalk fun walk => { walk with depthFirst := true }
  | "-follow" => onWalk fun walk => { walk with follows := 'L' }
  | "-maxdepth" =>
    let most ← depth word
    onWalk fun walk => { walk with most := some most }
  | "-mindepth" =>
    let least ← depth word
    onWalk fun walk => { walk with least }
  | word => fail ("unknown predicate \x60" ++ word ++ "'")

/-- Whether an argument belongs to a query. -/
def startsQuery (leading : Bool) (text : String) : Bool :=
  match text with
  | "(" | "!" => true
  | ")" | "," => !leading
  | "-" => false
  | text => text.startsWith "-"

mutual

/-- Reads queries that are asked one after another. -/
def series : Nat → Reading Query
  | 0 => return .always true
  | bound + 1 => do
    let first ← choices bound
    match (← get).rest with
    | "," :: rest =>
      modify fun progress => { progress with rest }
      if rest.isEmpty then fail "expected an expression after ','"
      return .sequence first (← series bound)
    | _ => return first

/-- Reads queries of which one has to hold. -/
def choices : Nat → Reading Query
  | 0 => return .always true
  | bound + 1 => do
    let first ← joined bound
    match (← get).rest with
    | word :: rest =>
      if word = "-o" || word = "-or" then
        modify fun progress => { progress with rest }
        if rest.isEmpty then fail ("expected an expression after " ++ quoted word)
        return .either first (← choices bound)
      else return first
    | [] => return first

/-- Reads queries all of which have to hold. -/
def joined : Nat → Reading Query
  | 0 => return .always true
  | bound + 1 => do
    let first ← single bound
    match (← get).rest with
    | [] | ")" :: _ | "," :: _ | "-o" :: _ | "-or" :: _ => return first
    | word :: rest =>
      if word = "-a" || word = "-and" then
        modify fun progress => { progress with rest }
        if rest.isEmpty then fail ("expected an expression after " ++ quoted word)
      return .both first (← joined bound)

/-- Reads one query. -/
def single : Nat → Reading Query
  | 0 => return .always true
  | bound + 1 => do
    let progress ← get
    match progress.rest with
    | [] => return .always true
    | word :: rest =>
      set { progress with rest }
      match word with
      | "!" | "-not" =>
        if rest.isEmpty then fail ("expected an expression after " ++ quoted word)
        return .negation (← single bound)
      | "(" =>
        if rest.head? = some ")" then fail "invalid expression; empty parentheses are not allowed."
        let inner ← series bound
        match (← get).rest with
        | ")" :: rest =>
          modify fun progress => { progress with rest }
          return inner
        | _ => fail "invalid expression; I was expecting to find a ')' somewhere but did not see one."
      | ")" => fail "you have too many ')'"
      | "-o" | "-or" | "-a" | "-and" | "," =>
        fail ("invalid expression; you have used a binary operator " ++ quoted word ++ " with nothing before it.")
      | word =>
        if !startsQuery false word then fail ("paths must precede expression: \x60" ++ word ++ "'")
        query word

end

/-- Reads all of a query. -/
def whole : Reading Query := do
  let progress ← get
  if progress.rest.isEmpty then return .print "\n"
  let found ← series (8 * progress.rest.length + 8)
  if (← get).rest.head? = some ")" then fail "you have too many ')'"
  return if found.acts then found else .both found (.print "\n")

end Reading
end Pkgset.Tool.Find

import Pkgset.Shell.Source

/-!
# Reading commands

Words end at blanks and operators that are not quoted. Keywords are words without
quotes where a command may start. One command is read at a time, up to the end of its
last line, because it may define the aliases of the next. The bound of a function limits
how far it reads.
-/

namespace Pkgset.Shell.Reader
open Reading

/-! ## Characters and words -/

/-- Whether a character that is not quoted ends a word. -/
def endsWord (c : Char) : Bool := [' ', '\t', '\n', ';', '&', '|', '<', '>', '(', ')'].contains c

/-- Whether a name may start with a character. -/
def startsName (c : Char) : Bool := c.isAlpha || c = '_'

/-- Whether a name may go on with a character. -/
def inName (c : Char) : Bool := startsName c || c.isDigit

/-- Whether a group of patterns may follow a piece. -/
def startsGroup (piece : Piece) : Bool :=
  match piece with
  | .char c false => ['?', '*', '+', '@', '!'].contains c
  | _ => false

/-- Whether a text is a name. -/
def isName (text : String) : Bool :=
  match text.toList with
  | c :: rest => startsName c && rest.all inName
  | [] => false

/-- Whether a character by itself names a parameter. -/
def isSpecial (c : Char) : Bool := ['#', '?', '$', '!', '@', '*', '-'].contains c || c.isDigit

/-- The words with a meaning of their own where a command may start. -/
def keywords : List String :=
  ["!", "case", "do", "done", "elif", "else", "esac", "fi", "for", "if", "in", "then", "until", "while", "\x7b",
    "\x7d"]

/-- The keywords that only a rich dialect has. -/
def richKeywords : List String := ["[[", "function", "time"]

/-- Whether a sequence of commands ends at a token. -/
def endsSequence (token : Token) : Bool :=
  [.endOfText, .mark ")", .mark ";;", .mark ";&", .mark ";;&", .keyword "do", .keyword "done", .keyword "elif",
    .keyword "else", .keyword "esac", .keyword "fi", .keyword "then", .keyword "\x7d"].contains token

/-- The builtin commands that do more than others when they fail. Functions do not
    have their names. -/
def specialNames : List String :=
  [".", ":", "break", "continue", "eval", "exec", "exit", "export", "local", "readonly", "return", "set", "shift",
    "times", "trap", "unset"]

/-- The commands that take assignments of lists. -/
def listTakers : List String := ["declare", "typeset", "local", "export", "readonly"]

/-- Drops a place in brackets. -/
def afterPlace : Nat → Word → Option Word
  | 0, rest => some rest
  | _, [] => none
  | depth + 1, .char ']' false :: rest => afterPlace depth rest
  | depth, .char '[' false :: rest => afterPlace (depth + 1) rest
  | depth + 1, _ :: rest => afterPlace (depth + 1) rest

/-- Whether a word is an assignment. -/
def isAssignment (rich : Bool) (word : Word) : Bool :=
  match word with
  | .char c false :: _ =>
    let isPart (piece : Piece) : Bool :=
      match piece with
      | .char c false => inName c
      | _ => false
    let rest := word.dropWhile isPart
    let rest := match rest with
      | .char '[' false :: more => if rich then (afterPlace 1 more).getD rest else rest
      | _ => rest
    let rest := match rest with
      | .char '+' false :: more => if rich then more else rest
      | _ => rest
    startsName c && (match rest with
      | .char '=' false :: _ => true
      | _ => false)
  | _ => false

/-! ## Quotations -/

/-- What quotes characters. -/
inductive Manner where
  | bare | double | single | sum
  deriving DecidableEq

/-- Where a run of pieces stands. -/
structure Quoting where
  manner : Manner
  quoted : Bool
  /-- The open braces, and those of them that stand between double quotes. -/
  depth : Nat
  quotedDepth : Nat
  /-- Whether double quotes are open between braces. -/
  inner : Bool
  /-- The open parentheses of an arithmetic expression or a pattern. -/
  parens : Nat
  /-- The characters that end the run. -/
  stops : List Char

namespace Quoting

/-- A word of a command. -/
def word : Quoting := ⟨.bare, false, 0, 0, false, 0, []⟩

/-- A text after a line. -/
def text : Quoting := ⟨.double, true, 0, 0, false, 0, []⟩

/-- An arithmetic expression. -/
def sum : Quoting := ⟨.sum, true, 0, 0, false, 0, []⟩

/-- What stands between braces. -/
def braces (manner : Manner) (stops : List Char) : Quoting :=
  let quoted := manner != .bare
  ⟨manner, quoted, 1, if quoted then 1 else 0, false, 0, stops⟩

/-- Whether a backslash before a character is kept. -/
def keepsBackslash (quoting : Quoting) (inText : Bool) (c : Char) : Bool :=
  quoting.quoted && c != '\\' && c != '\x60' && c != '$' &&
    (c != '"' || (inText && quoting.depth = 0)) && (c != '\x7d' || quoting.depth = 0)

/-- The quoting behind a double quote. -/
def toggled (quoting : Quoting) : Quoting :=
  let quoting := if quoting.depth = 0 then quoting else { quoting with inner := !quoting.inner }
  match quoting.manner with
  | .bare => { quoting with manner := .double, quoted := true }
  | _ => if quoting.quotedDepth = 0 then { quoting with manner := .bare, quoted := false } else quoting

end Quoting

/-- What ends a run of pieces. -/
inductive Close where
  | ending | brace | sum
  | stop (c : Char)
  deriving DecidableEq

/-- Reads characters while they pass a test. -/
def takeWhile (test : Char → Bool) : Nat → List Char → Reading (List Char)
  | 0, found => return found.reverse
  | bound + 1, found => do
    match ← nextJoined with
    | some c => if test c then takeWhile test bound (c :: found) else back (some c); return found.reverse
    | none => return found.reverse

/-- The value of a digit. -/
def digitOf (c : Char) : Nat :=
  if c.isDigit then c.toNat - 48 else if 'a' ≤ c ∧ c ≤ 'f' then c.toNat - 87 else c.toNat - 55

/-- Reads at most some digits of a base. -/
def digits (base : Nat) : Nat → List Char → List Char × List Char
  | 0, text => ([], text)
  | _, [] => ([], [])
  | bound + 1, c :: rest =>
    let isDigit := (c.isDigit || ('a' ≤ c ∧ c ≤ 'f') || ('A' ≤ c ∧ c ≤ 'F')) && digitOf c < base
    if isDigit then
      let (more, rest) := digits base bound rest
      (c :: more, rest)
    else ([], c :: rest)

/-- The number that digits of a base stand for. -/
def numberOf (base : Nat) (text : List Char) : Nat := text.foldl (fun n c => base * n + digitOf c) 0

/-- The characters that a backslash and the letter after it stand for. -/
def escapes : List (Char × Char) :=
  [('a', '\x07'), ('b', '\x08'), ('e', '\x1b'), ('E', '\x1b'), ('f', '\x0c'), ('n', '\n'), ('r', '\x0d'),
    ('t', '\t'), ('v', '\x0b'), ('\\', '\\'), ('\'', '\''), ('"', '"'), ('?', '?')]

/-- The text between a dollar sign with a quote and the quote after it, with its escapes
    resolved, and what follows. -/
def escaped? : Nat → List Char → Option (List Char × List Char)
  | 0, _ => none
  | _, [] => none
  | _, '\'' :: rest => some ([], rest)
  | bound + 1, '\\' :: c :: rest =>
    let goOn (text rest : List Char) : Option (List Char × List Char) :=
      (escaped? bound rest).map fun (more, rest) => (text ++ more, rest)
    match escapes.lookup c with
    | some meant => goOn [meant] rest
    | none =>
      let number (base count : Nat) (rest : List Char) : Option (List Char × List Char) :=
        let (found, after) := digits base count rest
        if found.isEmpty then goOn ['\\', c] rest else goOn [Char.ofNat (numberOf base found % 256)] after
      if c = 'x' then number 16 2 rest
      else if c.isDigit && digitOf c < 8 then number 8 3 (c :: rest)
      else if c = 'u' || c = 'U' then
        let (found, after) := digits 16 (if c = 'u' then 4 else 8) rest
        let n := numberOf 16 found
        let wide := 65536 ≤ n
        let body := (Nat.toDigits 16 n).map Char.toUpper
        let zeros := List.replicate ((if wide then 8 else 4) - body.length) '0'
        if found.isEmpty then goOn ['\\', c] rest
        else if n < 128 then goOn [Char.ofNat n] after
        else goOn ('\\' :: (if wide then 'U' else 'u') :: zeros ++ body) after
      else if c = 'c' then
        match rest with
        | d :: rest => goOn [Char.ofNat (d.toNat % 32)] rest
        | [] => none
      else goOn ['\\', c] rest
  | bound + 1, c :: rest => (escaped? bound rest).map fun (more, rest) => (c :: more, rest)

/-! ## Texts after a line -/

/-- Whether a text after a line ends here; tabs in front may be dropped. -/
def endsText (awaited : Awaited) : Reading Bool := do
  back (← next)
  let rest := (← get).rest
  let rest := if awaited.dropsTabs then rest.dropWhile (· = '\t') else rest
  modify (·.setRest rest)
  let after := rest.drop awaited.delimiter.length
  if rest.take awaited.delimiter.length = awaited.delimiter && (after.isEmpty || after.head? = some '\n') then
    modify (·.setRest (after.drop 1))
    addLine
    return true
  else return false

/-- Reads a text after a line in which nothing is expanded. -/
def literalText (awaited : Awaited) : Nat → List (List Char) → Reading (List Char)
  | 0, found => return found.reverse.flatten
  | bound + 1, found => do
    if ← endsText awaited then return found.reverse.flatten
    let (line, after) := (← get).rest.span (· ≠ '\n')
    modify (·.setRest (after.drop 1))
    if after.isEmpty then return (line :: found).reverse.flatten
    addLine
    literalText awaited bound ((line ++ ['\n']) :: found)

/-- The letters behind the name of a parameter that change its value. -/
def recasing : List Char := ['^', ',']

/-- How deep texts are read. -/
def limit : Nat := 10000000

/-- Stops where commands go too deep. -/
def tooDeep {α : Type} : Reading α := fault "too deep"

mutual

/-- Reads pieces, in a text after a line or in a word. -/
def pieces : Nat → Option Awaited → Quoting → List Piece → Reading (Word × Quoting × Close)
  | 0, _, _, _ => tooDeep
  | bound + 1, awaited?, quoting, found => do
    let ending : Reading (Word × Quoting × Close) := do
      if quoting.manner = .sum then unclosed "Missing '))'" ')'
      else if quoting.manner != .bare && awaited?.isNone then
        unclosed "Unterminated quoted string" (if quoting.manner = .single then '\'' else '"')
      else if quoting.depth != 0 then unclosed "Missing '\x7d'" '\x7d'
      else return (found.reverse, quoting, .ending)
    match ← if quoting.manner = .single then next else nextJoined with
    | none => ending
    | some c =>
      let quoted := quoting.quoted
      if c = '\n' then
        if quoting.manner = .bare && quoting.depth = 0 then
          back (some c)
          return (found.reverse, quoting, .ending)
        addLine
        let found := .char c (quoted || quoting.manner != .bare) :: found
        match awaited? with
        | some awaited =>
          back (← nextJoined)
          if ← endsText awaited then
            if quoting.depth = 0 && quoting.manner != .sum then return (found.reverse, quoting, .ending) else ending
          else pieces bound awaited? quoting found
        | none => pieces bound awaited? quoting found
      else if quoting.manner = .single then
        if c = '\'' then pieces bound awaited? { quoting with manner := .bare, quoted := false } (.quotes :: found)
        else pieces bound awaited? quoting (.char c (awaited?.isNone || quoted) :: found)
      else if quoting.stops.contains c && quoting.depth = 1 && !quoting.inner && quoting.parens = 0 then
        return (found.reverse, quoting, .stop c)
      else match c with
      | '\\' =>
        match ← next with
        | none => pieces bound awaited? quoting (.char '\\' true :: found)
        | some d =>
          let found := if quoting.keepsBackslash awaited?.isSome d then .char '\\' true :: found else found
          pieces bound awaited? quoting (.char d true :: found)
      | '$' =>
        let (more, quoting) ← dollar bound awaited? quoting
        pieces bound awaited? quoting (more ++ found)
      | '\x60' =>
        if (← get).check.delimiter then pieces bound awaited? quoting (.char c quoted :: found)
        else
          let command ← backquoted bound quoting
          pieces bound awaited? quoting (.output command quoted :: found)
      | '\x7d' =>
        if !quoting.inner && 0 < quoting.depth then
          let quoting := { quoting with depth := quoting.depth - 1, quotedDepth := quoting.quotedDepth - 1 }
          return (found.reverse, quoting, .brace)
        else pieces bound awaited? quoting (.char c quoted :: found)
      | _ =>
        match quoting.manner with
        | .sum =>
          if c = '(' then
            pieces bound awaited? { quoting with parens := quoting.parens + 1 } (.char c quoted :: found)
          else if c = ')' then
            if 0 < quoting.parens then
              pieces bound awaited? { quoting with parens := quoting.parens - 1 } (.char c quoted :: found)
            else if quoting.depth = 0 then
              if ← takes ')' then return (found.reverse, quoting, .sum)
              else pieces bound awaited? quoting (.char c quoted :: found)
            else pieces bound awaited? quoting (.char c quoted :: found)
          else pieces bound awaited? quoting (.char c quoted :: found)
        | .bare =>
          if c = '"' then
            pieces bound awaited? quoting.toggled (if awaited?.isNone then .quotes :: found else found)
          else if c = '\'' then
            pieces bound awaited? { quoting with manner := .single }
              (if awaited?.isNone then .quotes :: found else found)
          else if 0 < quoting.parens && quoting.depth = 0 && endsWord c then
            let parens := if c = '(' then quoting.parens + 1 else if c = ')' then quoting.parens - 1 else quoting.parens
            pieces bound awaited? { quoting with parens } (.char c quoted :: found)
          else if c = '(' && quoting.depth = 0 && (← get).groups && found.head?.any startsGroup then
            pieces bound awaited? { quoting with parens := 1 } (.char c quoted :: found)
          else if endsWord c && quoting.depth = 0 then
            let rich := (← get).dialect = .rich
            let following ← if rich then peek else pure none
            if rich && c = '(' && (← get).check.lists && isAssignment true found.reverse &&
                found.head?.any (fun piece => match piece with | .char '=' _ => true | _ => false) then
              let words ← items bound []
              pieces bound awaited? quoting (.items words :: found)
            else if rich && (c = '<' || c = '>') && following = some '(' then
              discard next
              let command ← enclosed bound
              pieces bound awaited? quoting (.pipe command (c = '<') :: found)
            else if (← get).check.expression && ['(', ')', '|', '<', '>'].contains c then
              pieces bound awaited? quoting (.char c quoted :: found)
            else
              back (some c)
              return (found.reverse, quoting, .ending)
          else pieces bound awaited? quoting (.char c quoted :: found)
        | _ =>
          if c = '"' && (awaited?.isNone || quoting.depth != 0) then
            pieces bound awaited? quoting.toggled (if awaited?.isNone then .quotes :: found else found)
          else pieces bound awaited? quoting (.char c quoted :: found)

/-- Reads what stands behind a dollar sign. The pieces come in reverse. -/
def dollar : Nat → Option Awaited → Quoting → Reading (List Piece × Quoting)
  | 0, _, _ => tooDeep
  | bound + 1, awaited?, quoting => do
    let quoted := quoting.quoted
    let alone : Reading (List Piece × Quoting) := return ([.char '$' quoted], quoting)
    let rich ← isRich
    match ← nextJoined with
    | none => alone
    | some c =>
      if (← get).check.delimiter then back (some c); alone
      else if c = '(' then
        if ← takes '(' then
          let (expression, _, _) ← pieces bound awaited? Quoting.sum []
          return ([.sum expression quoted], quoting)
        else return ([.output (← enclosed bound) quoted], quoting)
      else if c = '\x7b' then if rich then richBraces bound awaited? quoting else braces bound awaited? quoting
      else if startsName c then
        let name ← takeWhile inName bound [c]
        return ([.parameter (String.ofList name) none .value quoted], quoting)
      else if isSpecial c then return ([.parameter c.toString none .value quoted], quoting)
      else if rich && c = '\'' && quoting.manner = .bare then
        let rest := (← get).rest
        match escaped? (rest.length + 1) rest with
        | none => unclosed "" '\''
        | some (text, after) =>
          modify (·.setRest after)
          return ((text.map fun c => .char c true).reverse ++ [.quotes], quoting)
      else if rich && c = '"' && quoting.manner = .bare then
        back (some c)
        return ([], quoting)
      else back (some c); alone

/-- Reads the rest of the braces around a parameter, and gives the use that is made of
    them with what stands in them. -/
def bracesRest : Nat → Option Awaited → Quoting → String → Bool → (Word → Use) → Reading (List Piece × Quoting)
  | 0, _, _, _, _, _ => tooDeep
  | bound + 1, awaited?, quoting, name, isPattern, use => do
    let manner := if isPattern then .bare else if quoting.manner = .sum then .double else quoting.manner
    if manner != quoting.manner || quoting.inner then
      let (word, _, _) ← pieces bound awaited? (Quoting.braces manner []) []
      return ([.parameter name none (use word) quoting.quoted], quoting)
    else
      let inside :=
        { quoting with
          depth := quoting.depth + 1, quotedDepth := quoting.quotedDepth + (if quoting.quoted then 1 else 0) }
      let (word, after, _) ← pieces bound awaited? inside []
      return ([.parameter name none (use word) quoting.quoted], after)

/-- Reads a parameter in braces. -/
def braces : Nat → Option Awaited → Quoting → Reading (List Piece × Quoting)
  | 0, _, _ => tooDeep
  | bound + 1, awaited?, quoting => do
    let wrong : Reading (List Piece × Quoting) := bracesRest bound awaited? quoting "" false fun _ => .wrong
    let used (name : String) : Reading (List Piece × Quoting) := do
      let colon ← takes ':'
      let c ← nextJoined
      match c with
      | some '\x7d' =>
        if colon then
          let (pieces, quoting) ← bracesRest bound awaited? quoting name false fun word => .orElse true word
          return (pieces, quoting)
        else return ([.parameter name none .value quoting.quoted], quoting)
      | some '-' => bracesRest bound awaited? quoting name false (.orElse colon)
      | some '+' => bracesRest bound awaited? quoting name false (.ifSet colon)
      | some '?' => bracesRest bound awaited? quoting name false (.orFail colon)
      | some '=' => bracesRest bound awaited? quoting name false (.orAssign colon)
      | some '%' =>
        if colon then wrong
        else
          let longest ← takes '%'
          bracesRest bound awaited? quoting name true (.trim true longest)
      | some '#' =>
        if colon then wrong
        else
          let longest ← takes '#'
          bracesRest bound awaited? quoting name true (.trim false longest)
      | _ => wrong
    let named (c : Char) : Reading String :=
      return String.ofList (← takeWhile (if c.isDigit then Char.isDigit else inName) bound [c])
    match ← nextJoined with
    | none => wrong
    | some c =>
      if inName c then used (← named c)
      else if c = '\x7d' then back (some c); wrong
      else if c = '#' then
        match ← nextJoined with
        | none => wrong
        | some d =>
          if inName d then
            let name ← named d
            if (← peekJoined) = some '\x7d' then bracesRest bound awaited? quoting name false fun _ => .length
            else wrong
          else if d != '\x7d' && (← peekJoined) = some '\x7d' then
            if isSpecial d then bracesRest bound awaited? quoting d.toString false fun _ => .length
            else wrong
          else back (some d); used "#"
      else if isSpecial c then used c.toString
      else wrong

/-- Reads a parameter in braces that has more uses. -/
def richBraces : Nat → Option Awaited → Quoting → Reading (List Piece × Quoting)
  | 0, _, _ => tooDeep
  | bound + 1, awaited?, quoting => do
    let outer : Manner := if quoting.manner = .bare then .bare else .double
    let group (manner : Manner) (stops : List Char) : Reading (Word × Close) := do
      let (word, _, close) ← pieces bound awaited? (Quoting.braces manner stops) []
      return (word, close)
    let given (name : String) (place : Option Word) (use : Use) : Reading (List Piece × Quoting) :=
      return ([.parameter name place use quoting.quoted], quoting)
    let wrong : Reading (List Piece × Quoting) := do
      discard (group outer [])
      given "" none .wrong
    let indirect ← if (← peekJoined) = some '!' then do
        discard nextJoined
        if (← peekJoined).any inName then pure true else back (some '!'); pure false
      else pure false
    let counted ← if (← peekJoined) = some '#' then do
        discard nextJoined
        match ← peekJoined with
        | some d =>
          if inName d then pure true
          else if d != '\x7d' && isSpecial d then
            discard nextJoined
            let closes := (← peekJoined) = some '\x7d'
            back (some d)
            if closes then pure true else back (some '#'); pure false
          else back (some '#'); pure false
        | none => pure false
      else pure false
    match ← nextJoined with
    | none => wrong
    | some c =>
      if !inName c && !isSpecial c then back (some c); wrong
      else
        let name ← if inName c then
            pure (String.ofList (← takeWhile (if c.isDigit then Char.isDigit else inName) bound [c]))
          else pure c.toString
        let place ← if startsName c && (← takes '[') then pure (some (← group .bare [']']).1) else pure none
        if counted then
          if ← takes '\x7d' then given name place .length else wrong
        else
          let wrap (use : Use) : Use := if indirect then .indirect use else use
          let finish (use : Use) : Reading (List Piece × Quoting) := given name place (wrap use)
          match ← nextJoined with
          | some '\x7d' =>
            if indirect && place.isSome then given name place .places else finish .value
          | some '-' => finish (.orElse false (← group outer []).1)
          | some '+' => finish (.ifSet false (← group outer []).1)
          | some '?' => finish (.orFail false (← group outer []).1)
          | some '=' => finish (.orAssign false (← group outer []).1)
          | some ':' =>
            match ← nextJoined with
            | some '-' => finish (.orElse true (← group outer []).1)
            | some '+' => finish (.ifSet true (← group outer []).1)
            | some '?' => finish (.orFail true (← group outer []).1)
            | some '=' => finish (.orAssign true (← group outer []).1)
            | d =>
              back d
              let (start, close) ← group .sum [':']
              if close = .stop ':' then finish (.part start (some (← group .sum []).1)) else finish (.part start none)
          | some '%' =>
            let longest ← takes '%'
            finish (.trim true longest (← group .bare []).1)
          | some '#' =>
            let longest ← takes '#'
            finish (.trim false longest (← group .bare []).1)
          | some '/' =>
            let manner ← if ← takes '/' then pure '/' else if ← takes '#' then pure '#' else if ← takes '%' then pure '%'
              else pure ' '
            let (pattern, close) ← group .bare ['/']
            if close = .stop '/' then finish (.replace manner pattern (← group outer []).1)
            else finish (.replace manner pattern [])
          | some '^' =>
            let whole ← takes '^'
            finish (.recase true whole (← group .bare []).1)
          | some ',' =>
            let whole ← takes ','
            finish (.recase false whole (← group .bare []).1)
          | some '@' =>
            match ← nextJoined with
            | some '\x7d' => if indirect then given name none (.names false) else wrong
            | some letter => if ← takes '\x7d' then finish (.transform letter) else wrong
            | none => wrong
          | some '*' => if indirect && (← takes '\x7d') then given name none (.names true) else wrong
          | d =>
            back d
            wrong

/-- Reads a command in parentheses, behind the first of them. -/
def enclosed : Nat → Reading Command
  | 0 => tooDeep
  | bound + 1 => do
    let awaited := (← get).awaited
    modify fun source => { source with awaited := [] }
    let command ← sequence bound false true .nothing
    if (← token bound) != .mark ")" then unexpected (some (.mark ")"))
    modify fun source =>
      { source with texts := source.texts ++ source.awaited.map fun late => (late.number, []), awaited }
    return command

/-- Reads a command in backquotes, behind the first of them. Its text is read by itself. -/
def backquoted : Nat → Quoting → Reading Command
  | 0, _ => tooDeep
  | bound + 1, quoting => do
    let text ← backquotedText bound quoting []
    let outer ← get
    set { outer with frames := [⟨text, none, false, true⟩], line := 1, awaited := [], again := false }
    let command ← sequence bound false true .nothing
    modify fun source =>
      { source with frames := outer.frames, line := outer.line, awaited := outer.awaited, again := false }
    return command

/-- Reads up to a backquote. -/
def backquotedText : Nat → Quoting → List Char → Reading (List Char)
  | 0, _, _ => tooDeep
  | bound + 1, quoting, found => do
    match ← nextJoined with
    | none => unclosed "EOF in backquote substitution" '\x60'
    | some '\x60' => return found.reverse
    | some '\\' =>
      match ← next with
      | none => unclosed "EOF in backquote substitution" '\x60'
      | some c =>
        let meant := c = '\\' || c = '\x60' || c = '$' || (quoting.quoted && c = '"')
        backquotedText bound quoting (if meant then c :: found else c :: '\\' :: found)
    | some c =>
      if c = '\n' then addLine
      backquotedText bound quoting (c :: found)

/-- Reads the elements of a list, up to the parenthesis behind it. -/
def items : Nat → List Word → Reading (List Word)
  | 0, _ => tooDeep
  | bound + 1, found => do
    heed { Check.plain with newlines := true }
    match ← token bound with
    | .word => items bound ((← get).word :: found)
    | .mark ")" => return found.reverse
    | _ => unexpected none

/-- Reads the texts that are awaited after a line. -/
def readTexts : Nat → Reading Unit
  | 0 => tooDeep
  | bound + 1 => do
    match (← get).awaited with
    | [] => return ()
    | awaited :: others =>
      modify fun source => { source with awaited := others }
      let word ← if awaited.literal then do
          pure ((← literalText awaited bound []).map fun c => Piece.char c true)
        else do
          back (← nextJoined)
          if ← endsText awaited then pure []
          else
            let (word, _, _) ← textPieces bound awaited
            pure word
      modify fun source => { source with texts := source.texts ++ [(awaited.number, word)] }
      readTexts bound

/-- Reads a text after a line. What follows it is kept apart while it is read. -/
def textPieces : Nat → Awaited → Reading (Word × Quoting × Close)
  | 0, _ => tooDeep
  | bound + 1, awaited => do
    let check := (← get).check
    heed .plain
    let found ← pieces bound (some awaited) Quoting.text []
    heed check
    return found

/-- Reads a token, unless the last one is read again. -/
def rawToken : Nat → Reading Token
  | 0 => tooDeep
  | bound + 1 => do
    if (← get).again then
      modify fun source => { source with again := false }
      return (← get).last
    let rich ← isRich
    match ← nextJoined with
    | some ' ' | some '\t' => rawToken bound
    | some '#' =>
      skipLine
      rawToken bound
    | some '\n' =>
      addLine
      note .newline
    | none => note .endOfText
    | some '&' =>
      if ← takes '&' then note (.mark "&&")
      else if rich && (← peek) = some '>' then
        discard next
        let mark := if ← takes '>' then "&>>" else "&>"
        modify fun source => { source with mark, descriptor := none }
        note .redirect
      else note (.mark "&")
    | some '|' =>
      if ← takes '|' then note (.mark "||")
      else if rich && (← takes '&') then note (.mark "|&")
      else note (.mark "|")
    | some ';' =>
      if ← takes ';' then
        if rich && (← takes '&') then note (.mark ";;&") else note (.mark ";;")
      else if rich && (← takes '&') then note (.mark ";&")
      else note (.mark ";")
    | some '(' =>
      if (← get).check.expression then back (some '('); wordToken bound else note (.mark "(")
    | some ')' => note (.mark ")")
    | some c =>
      back (some c)
      wordToken bound

/-- Reads a word, or the mark of a redirection with the descriptor before it. -/
def wordToken : Nat → Reading Token
  | 0 => tooDeep
  | bound + 1 => do
    let (word, _, _) ← pieces bound none Quoting.word []
    let rich ← isRich
    let descriptor? : Option (Option Nat) :=
      match word with
      | [] => some none
      | _ => match Word.plain? word with
        | some text =>
          let isShort := text.length = 1 || rich
          if isShort && text.all Char.isDigit then some (text.toNat?) else none
        | none => none
    match descriptor?, ← peek with
    | some descriptor, some c =>
      if c = '<' || c = '>' then
        discard next
        let mark ← redirectMark bound c
        modify fun source => { source with mark, descriptor }
        note .redirect
      else
        modify fun source => { source with word }
        note .word
    | _, _ =>
      modify fun source => { source with word }
      note .word

/-- Reads the rest of the mark of a redirection. -/
def redirectMark : Nat → Char → Reading String
  | 0, _ => tooDeep
  | _ + 1, c => do
    let rich ← isRich
    if c = '>' then
      if ← takes '>' then return ">>"
      else if ← takes '|' then return ">|"
      else if ← takes '&' then return ">&"
      else return ">"
    else if ← takes '<' then
      if ← takes '-' then return "<<-"
      else if rich && (← takes '<') then return "<<<"
      else return "<<"
    else if ← takes '&' then return "<&"
    else if ← takes '>' then return "<>"
    else return "<"

/-- Reads a token as what is heeded asks for. -/
def token : Nat → Reading Token
  | 0 => tooDeep
  | bound + 1 => do tokenAs bound (← get).check

/-- Reads a token, with some things heeded. -/
def tokenAs : Nat → Check → Reading Token
  | 0, _ => tooDeep
  | bound + 1, check => do
    let found ← rawToken bound
    if check.newlines && found = .newline then
      readTexts bound
      heed { check with aliases := false, keywords := false, newlines := false }
      tokenAs bound check
    else
      let late := (← get).check
      heed .plain
      let keyed := check.keywords || late.keywords
      if found != .word then return found
      else
        let source ← get
        match Word.plain? source.word with
        | none => return found
        | some text =>
          let rich := source.dialect = .rich
          if keyed && (keywords.contains text || (rich && richKeywords.contains text)) then note (.keyword text)
          else if check.aliases || late.aliases then
            match if source.busy.contains text || rich then none else Dict.get? source.aliases text with
            | some value =>
              if value != "" then enter text value.toList
              tokenAs bound { check with keywords := keyed, aliases := true }
            | none => return found
          else return found

/-- Reads commands up to the end of a line, a text or a group, behind some that have
    been read. -/
def sequence : Nat → Bool → Bool → Command → Reading Command
  | 0, _, _, _ => tooDeep
  | bound + 1, isLine, mayEnd, before => do
    heed { Check.command with newlines := !isLine }
    let first ← token bound
    if isLine && first = .newline then
      readTexts bound
      return before
    else if first = .endOfText then
      readTexts bound
      keep
      return before
    else
      keep
      if !isLine && mayEnd && endsSequence first then return before
      else
        let command ← chain bound
        let after ← token bound
        let line := (← get).line
        let command := if after != .mark "&" then command
          else match command with
            | .pipeline commands _ => .pipeline commands true
            | .redirected line inner redirects => .background line inner redirects
            | other => .background line other []
        let joined := match before with
          | .nothing => command
          | _ => .sequence before command
        match after with
        | .endOfText =>
          readTexts bound
          keep
          return joined
        | .newline =>
          keep
          sequence bound isLine true joined
        | .mark "&" | .mark ";" => sequence bound isLine true joined
        | _ =>
          if isLine then unexpected none
          keep
          return joined

/-- Reads commands that are joined by their success. -/
def chain : Nat → Reading Command
  | 0 => tooDeep
  | bound + 1 => do chainFrom bound (← pipeline bound)

/-- Reads the commands that follow one by its success. -/
def chainFrom : Nat → Command → Reading Command
  | 0, _ => tooDeep
  | bound + 1, first => do
    match ← token bound with
    | .mark "&&" =>
      heed .commandBelow
      chainFrom bound (.both first (← pipeline bound))
    | .mark "||" =>
      heed .commandBelow
      chainFrom bound (.either first (← pipeline bound))
    | _ =>
      keep
      return first

/-- Reads commands that are joined by pipes. -/
def pipeline : Nat → Reading Command
  | 0 => tooDeep
  | bound + 1 => do
    let first ← token bound
    if first = .keyword "time" then
      heed .command
      pipeline bound
    else
      let negated := first = .keyword "!"
      if negated then heed .command else keep
      if negated && (← isRich) then return .negation (← pipeline bound)
      let command ← command bound
      let command ← match ← token bound with
        | .mark "|" => pure (.pipeline (command :: (← piped bound)) false)
        | .mark "|&" =>
          let both := .redirected (← get).line command [.copy 2 [.char '1' false]]
          pure (.pipeline (both :: (← piped bound)) false)
        | _ => do
          keep
          pure command
      return if negated then .negation command else command

/-- Reads the commands behind a pipe. -/
def piped : Nat → Reading (List Command)
  | 0 => tooDeep
  | bound + 1 => do
    heed .commandBelow
    let command ← command bound
    match ← token bound with
    | .mark "|" => return command :: (← piped bound)
    | .mark "|&" =>
      let both := .redirected (← get).line command [.copy 2 [.char '1' false]]
      return both :: (← piped bound)
    | _ =>
      keep
      return [command]

/-- Reads a token that has to be a certain one. -/
def wants : Nat → Token → Reading Unit
  | 0, _ => tooDeep
  | bound + 1, wanted => do
    if (← token bound) != wanted then unexpected (some wanted)

/-- Reads a command that is not joined to others. -/
def command : Nat → Reading Command
  | 0 => tooDeep
  | bound + 1 => do
    let line := (← get).line
    let rich ← isRich
    match ← token bound with
    | .keyword "if" =>
      let found ← branches bound
      wants bound (.keyword "fi")
      redirected bound line found
    | .keyword "while" =>
      let condition ← sequence bound false false .nothing
      wants bound (.keyword "do")
      let body ← sequence bound false false .nothing
      wants bound (.keyword "done")
      redirected bound line (.loop false condition body)
    | .keyword "until" =>
      let condition ← sequence bound false false .nothing
      wants bound (.keyword "do")
      let body ← sequence bound false false .nothing
      wants bound (.keyword "done")
      redirected bound line (.loop true condition body)
    | .keyword "for" =>
      let found ← forEach bound line
      redirected bound line found
    | .keyword "case" =>
      wants bound .word
      let word := (← get).word
      heed .commandBelow
      wants bound (.keyword "in")
      let found ← choices bound []
      redirected bound line (.select line word found)
    | .mark "(" =>
      if rich && (← peek) = some '(' then
        discard next
        let (expression, _, _) ← pieces bound none Quoting.sum []
        redirected bound line (.sum line expression)
      else
        let inner ← sequence bound false false .nothing
        wants bound (.mark ")")
        match ← redirects bound with
        | [] => return .subshell line inner []
        | changes => return .subshell line inner changes
    | .keyword "\x7b" =>
      let inner ← sequence bound false false .nothing
      wants bound (.keyword "\x7d")
      redirected bound line inner
    | .keyword "[[" =>
      let groups := (← get).groups
      modify fun source => { source with groups := true }
      let test ← condition bound
      modify fun source => { source with groups }
      if (← get).last != .word || Word.plain? (← get).word != some "]]" then unexpected none
      redirected bound line (.test line test)
    | .keyword "function" =>
      wants bound .word
      let name := String.ofList (Word.characters (← get).word)
      heed .commandBelow
      if (← token bound) = .mark "(" then
        wants bound (.mark ")")
        heed .commandBelow
      else
        keep
        heed .commandBelow
      return .define line name (← command bound)
    | .word | .redirect =>
      keep
      simple bound (← get).line .opening [] [] []
    | _ => unexpected none

/-- Reads the redirections behind a command. -/
def redirects : Nat → Reading (List Redirect)
  | 0 => tooDeep
  | bound + 1 => do
    heed .command
    match ← token bound with
    | .redirect =>
      let change ← redirect bound
      return change :: (← redirects bound)
    | _ =>
      keep
      return []

/-- A command with the redirections behind it. -/
def redirected : Nat → Nat → Command → Reading Command
  | 0, _, _ => tooDeep
  | bound + 1, line, command => do
    match ← redirects bound with
    | [] => return command
    | changes => return .redirected line command changes

/-- Reads a choice by conditions, behind its first keyword. -/
def branches : Nat → Reading Command
  | 0 => tooDeep
  | bound + 1 => do
    let condition ← sequence bound false false .nothing
    wants bound (.keyword "then")
    let first ← sequence bound false false .nothing
    match ← token bound with
    | .keyword "elif" => return .branch condition first (← branches bound)
    | .keyword "else" => return .branch condition first (← sequence bound false false .nothing)
    | _ =>
      keep
      return .branch condition first .nothing

/-- Reads a loop over fields, behind its keyword. -/
def forEach : Nat → Nat → Reading Command
  | 0, _ => tooDeep
  | bound + 1, line => do
    let rich ← isRich
    let first ← token bound
    if rich && first = .mark "(" then
      discard next
      let (expression, _, _) ← pieces bound none Quoting.sum []
      let isMark (piece : Piece) : Bool :=
        match piece with
        | .char ';' _ => true
        | _ => false
      let start := expression.takeWhile (!isMark ·)
      let rest := (expression.dropWhile (!isMark ·)).drop 1
      let condition := rest.takeWhile (!isMark ·)
      let step := (rest.dropWhile (!isMark ·)).drop 1
      heed .commandBelow
      if (← token bound) != .mark ";" then keep
      return .count line start condition step (← body bound)
    else
      let name := (Word.plain? (← get).word).getD ""
      if first != .word || !isName name then
        if rich then fault ("\x60" ++ name ++ "': not a valid identifier") else fault "Syntax error: Bad for loop variable"
      heed .commandBelow
      let words ← match ← token bound with
        | .keyword "in" => do pure (some (← listWords bound []))
        | .mark ";" => pure none
        | _ => do
          keep
          pure none
      return .each line name words (← body bound)

/-- Reads the words of a list, up to the end of the line or a semicolon. -/
def listWords : Nat → List Word → Reading (List Word)
  | 0, _ => tooDeep
  | bound + 1, found => do
    match ← token bound with
    | .word => listWords bound ((← get).word :: found)
    | .newline | .mark ";" => return found.reverse
    | _ => unexpected none

/-- Reads the body of a loop. -/
def body : Nat → Reading Command
  | 0 => tooDeep
  | bound + 1 => do
    heed .commandBelow
    match ← token bound with
    | .keyword "do" =>
      let found ← sequence bound false false .nothing
      wants bound (.keyword "done")
      return found
    | .keyword "\x7b" =>
      if ← isRich then
        let found ← sequence bound false false .nothing
        wants bound (.keyword "\x7d")
        return found
      else unexpected (some (.keyword "do"))
    | _ => unexpected (some (.keyword "do"))

/-- Reads choices by patterns, up to the keyword behind them. -/
def choices : Nat → List (List Word × Command × After) → Reading (List (List Word × Command × After))
  | 0, _ => tooDeep
  | bound + 1, found => do
    heed .choice
    match ← token bound with
    | .keyword "esac" => return found.reverse
    | first =>
      if first = .mark "(" then discard (token bound)
      let patterns ← alternatives bound []
      let body ← sequence bound false true .nothing
      heed .choice
      match ← token bound with
      | .keyword "esac" => return ((patterns, body, .leave) :: found).reverse
      | .mark ";;" => choices bound ((patterns, body, .leave) :: found)
      | .mark ";&" => choices bound ((patterns, body, .enter) :: found)
      | .mark ";;&" => choices bound ((patterns, body, .goOn) :: found)
      | _ => unexpected (some (.mark ";;"))

/-- Reads the patterns of a choice, the first of which has been read. -/
def alternatives : Nat → List Word → Reading (List Word)
  | 0, _ => tooDeep
  | bound + 1, found => do
    let found := (← get).word :: found
    match ← token bound with
    | .mark "|" =>
      discard (token bound)
      alternatives bound found
    | .mark ")" => return found.reverse
    | _ => unexpected (some (.mark ")"))

/-- Reads the rest of a simple command, behind some of its parts. -/
def simple : Nat → Nat → Check → List Word → List Word → List Redirect → Reading Command
  | 0, _, _, _, _, _ => tooDeep
  | bound + 1, line, check, assignments, words, changes => do
    heed check
    let rich ← isRich
    match ← token bound with
    | .word =>
      let word := (← get).word
      if check.aliases && isAssignment rich word then
        simple bound line check (word :: assignments) words changes
      else
        let takesLists := match words with
          | [] => ((Word.plain? word).any listTakers.contains)
          | _ => check.lists
        simple bound line { Check.plain with lists := takesLists } assignments (word :: words) changes
    | .redirect =>
      let change ← redirect bound
      simple bound line check assignments words (change :: changes)
    | .mark "(" =>
      match words, assignments, changes with
      | [name], [], [] =>
        wants bound (.mark ")")
        let name := (Word.plain? name).getD ""
        if rich then
          if name = "" then unexpected none
        else if !isName name || specialNames.contains name then fault "Syntax error: Bad function name"
        heed .commandBelow
        let line := (← get).line
        return .define line name (← command bound)
      | _, _, _ =>
        keep
        return .simple line assignments.reverse words.reverse changes.reverse
    | _ =>
      keep
      return .simple line assignments.reverse words.reverse changes.reverse

/-- Reads what a redirection leads to. -/
def redirect : Nat → Reading Redirect
  | 0 => tooDeep
  | bound + 1 => do
    let source ← get
    let mark := source.mark
    let isText := mark = "<<" || mark = "<<-"
    heed { Check.plain with delimiter := isText }
    if (← token bound) != .word then unexpected none
    let word := (← get).word
    let input := source.descriptor.getD 0
    let output := source.descriptor.getD 1
    let isDescriptor := match Word.plain? word with
      | some text => text = "-" || text.all Char.isDigit || (text.dropEnd 1).toString.all Char.isDigit && text.endsWith "-"
      | none => true
    match mark with
    | "<" => return .input input word
    | ">" => return .write output false word
    | ">|" => return .write output true word
    | ">>" => return .append output word
    | "<>" => return .update input word
    | "<&" => return .copy input word
    | ">&" =>
      if source.dialect = .rich && source.descriptor.isNone && !isDescriptor then return .writeBoth false word
      else return .copy output word
    | "<<<" => return .line input word
    | "&>" => return .writeBoth false word
    | "&>>" => return .writeBoth true word
    | _ =>
      let number := (← get).number
      let awaited : Awaited := ⟨number, Word.characters word, mark = "<<-", Word.hasQuotes word⟩
      modify fun source => { source with number := number + 1, awaited := source.awaited ++ [awaited] }
      return .text input number

/-- Reads a condition up to its closing brackets, which are taken. -/
def condition : Nat → Reading Test
  | 0 => tooDeep
  | bound + 1 => do
    let first ← conjunction bound
    match (← get).last with
    | .mark "||" => return .either first (← condition bound)
    | _ => return first

/-- Reads conditions that have to hold together, and the token behind them. -/
def conjunction : Nat → Reading Test
  | 0 => tooDeep
  | bound + 1 => do
    let first ← primary bound
    match (← get).last with
    | .mark "&&" => return .both first (← conjunction bound)
    | _ => return first

/-- Reads a word of a condition, or another token. -/
def conditionToken : Nat → Bool → Reading Token
  | 0, _ => tooDeep
  | bound + 1, expression => do
    heed { Check.plain with newlines := true, expression }
    token bound

/-- Reads one condition, and the token behind it. -/
def primary : Nat → Reading Test
  | 0 => tooDeep
  | bound + 1 => do
    match ← conditionToken bound false with
    | .mark "(" =>
      let inner ← condition bound
      if (← get).last != .mark ")" then unexpected none
      discard (conditionToken bound false)
      return inner
    | .word =>
      let first := (← get).word
      match Word.plain? first with
      | some "!" => return .negation (← primary bound)
      | some mark =>
        let isUnary := mark.length = 2 && mark.startsWith "-"
        match ← conditionToken bound false with
        | .word =>
          let second := (← get).word
          match Word.plain? second with
          | some "]]" => return .word first
          | some operator =>
            if isUnary && ! ["=", "==", "!=", "=~", "-eq", "-ne", "-lt", "-le", "-gt", "-ge"].contains operator then
              discard (conditionToken bound false)
              return .unary mark second
            else binary bound operator first
          | none =>
            if isUnary then
              discard (conditionToken bound false)
              return .unary mark second
            else unexpected none
        | .redirect => binary bound (← get).mark first
        | _ => return .word first
      | none =>
        match ← conditionToken bound false with
        | .word =>
          match Word.plain? (← get).word with
          | some "]]" => return .word first
          | some operator => binary bound operator first
          | none => unexpected none
        | .redirect => binary bound (← get).mark first
        | _ => return .word first
    | _ => unexpected none

/-- Reads the second word of a comparison, and the token behind it. -/
def binary : Nat → String → Word → Reading Test
  | 0, _, _ => tooDeep
  | bound + 1, mark, first => do
    if (← conditionToken bound (mark = "=~")) != .word then unexpected none
    let second := (← get).word
    discard (conditionToken bound false)
    return .binary mark first second

end

/-- Reads a command with all the lines that it takes, or nothing at the end. -/
def complete : Reading (Option Command) := do
  modify fun source => { source with again := false, check := .plain, awaited := [] }
  let command ← sequence limit true false .nothing
  match command, (← get).last with
  | .nothing, .endOfText => return none
  | command, _ => return some command

/-- Reads a text like one that stands after a line. -/
def expandable (text : String) (dialect : Dialect) : Word :=
  match (textPieces limit ⟨0, ['\x00'], false, false⟩).run (Source.ofText text.toList 1 0 [] dialect) with
  | .ok ((word, _, _), _) => word
  | .error _ => text.toList.map (Piece.char · true)

end Pkgset.Shell.Reader

import Pkgset.Shell.Builtin.Options
import Pkgset.Shell.Expansion

/-!
# Builtin commands on variables, options and parameters
-/

namespace Pkgset.Shell.Builtin
open Kernel

/-! ## Listings -/

/-- Variables in the order of their names. -/
def sortedVariables (session : Session) : List (String × Variable) :=
  session.bindings.mergeSort fun a b => !decide (b.1 < a.1)

/-- The line that lists a variable. -/
def listed (front : String) (name : String) (variable_ : Variable) : String :=
  front ++ name ++ (variable_.text?.elim "" fun text => "=" ++ Session.quoted text) ++ "\n"

/-- The line that declares a variable in a rich shell. -/
def declared (name : String) (variable_ : Variable) : String :=
  let double (text : String) : String :=
    if text.any fun (c : Char) => c.toNat < 32 || c.toNat = 127 then Expansion.backslashed text else
    "\"" ++ String.join (text.toList.map fun c =>
      if c = '"' || c = '\\' || c = '$' || c = '\x60' then "\\" ++ c.toString else c.toString) ++ "\""
  let flags := variable_.letters
  let value := match variable_.value with
    | .unset => ""
    | .text text => "=" ++ double text
    | .items items =>
      "=(" ++ " ".intercalate (items.map fun (n, text) => "[" ++ decimal n ++ "]=" ++ double text) ++ ")"
    | .keyed items =>
      let shown (key : String) : String := if key ≠ "" && key.toList.all Expansion.isSafe then key else double key
      "=(" ++ String.join ((Session.byKeys items).map fun (key, text) =>
        "[" ++ shown key ++ "]=" ++ double text ++ " ") ++ ")"
  "declare -" ++ (if flags = "" then "-" else flags) ++ " " ++ name ++ value ++ "\n"

/-- Gives a variable the text that its type makes of one, perhaps behind what it has, and
    tells that text. -/
def assignText (name : String) (adds : Bool) (text : String) : Run String := do
  let session ← get
  let variable_ := (session.find? name).getD .fresh
  if variable_.readOnly then Run.refuseChange name
  if variable_.isNumber then
    let n ← Expansion.sum text
    let before ← if adds then Expansion.sum (variable_.text?.getD "0") else pure 0
    let text := decimal (n + before)
    Run.assign name text
    return text
  else
    let text := (if adds then variable_.text?.getD "" else "") ++ text
    Run.assign name text
    return text

/-- Marks variables, some of which get values. -/
def mark (front : String) (change : Variable → Variable) (has : Variable → Bool) (arguments : List String) :
    Run Nat := do
  let rich := (← get).isRich
  let known : Letters := if rich then [('p', false), ('n', false), ('f', false), ('a', false), ('A', false)]
    else [('p', false)]
  let (found, rest) ← options known arguments
  if rest.isEmpty || (!rich && !found.isEmpty) then
    let lines := (sortedVariables (← get)).filterMap fun (name, variable_) =>
      if !has variable_ then none
      else some (if rich then declared name variable_ else listed (front ++ " ") name variable_)
    Run.emit (String.join lines)
  else
    for argument in rest do
      match assignment? argument with
      | some (name, text) =>
        let session ← get
        let (name, text) := if rich && name.endsWith "+" then
            let name := (name.dropEnd 1).toString
            (name, (session.text? name).getD "" ++ text)
          else (name, text)
        setChecked name text
        modify fun session => session.setVariable name (change ((session.find? name).getD .fresh))
      | none =>
        checkName argument
        if found.any (·.1 = 'n') then
          modify fun session => match session.find? argument with
            | some variable_ => session.setVariable argument { variable_ with exported := false }
            | none => session
        else modify fun session => session.setVariable argument (change ((session.find? argument).getD .fresh))
    return 0

/-- Hands variables to other programs. -/
def export_ : List String → Run Nat :=
  mark "export" (fun variable_ => { variable_ with exported := true }) (·.exported)

/-- Keeps variables as they are. -/
def readonly_ : List String → Run Nat :=
  mark "readonly" (fun variable_ => { variable_ with readOnly := true }) (·.readOnly)

/-- Saves a variable until the function ends. -/
def save (name : String) : Run Unit := do
  let session ← get
  match session.saved with
  | scope :: others =>
    set { session with saved := (.variable name (session.find? name) :: scope) :: others }
  | [] => return ()

/-- Puts back what the innermost function has saved. -/
def restore (session : Session) : Session :=
  match session.saved with
  | [] => session
  | scope :: others =>
    scope.foldl (fun session saved =>
      match saved with
      | .variable name (some old) => session.setVariable name old
      | .variable name none => session.removeVariable name
      | .options old => { session with options := old }) { session with saved := others }

/-- Saves variables until the function ends, some of which get values. -/
def local_ (arguments : List String) : Run Nat := do
  if (← get).calls = 0 then Run.fail "not in a function"
  for argument in arguments do
    match assignment? argument with
    | some (name, text) =>
      checkName name
      save name
      if (← get).isRich then modify (·.removeVariable name)
      Run.assign name text
    | none =>
      if argument = "-" then
        modify fun session =>
          match session.saved with
          | scope :: others => { session with saved := (.options session.options :: scope) :: others }
          | [] => session
      else
        checkName argument
        save argument
        modify fun session =>
          if session.isRich then session.setVariable argument .fresh
          else if (session.find? argument).isSome then session
          else session.setVariable argument .fresh
  return 0

/-- Takes variables and functions away. -/
def unset (arguments : List String) : Run Nat := do
  let (found, rest) ← options [('v', false), ('f', false), ('n', false)] arguments
  let kind := found.getLast?.map (·.1)
  let rich := (← get).isRich
  for name in rest do
    if kind = some 'f' then modify fun session => { session with functions := session.functions.filter (·.1 != name) }
    else
      let plainName := String.ofList (name.toList.takeWhile (· ≠ '['))
      checkName plainName
      match (← get).find? plainName with
      | some variable_ =>
        if variable_.readOnly then
          if rich then Run.failWith 1 (name ++ ": cannot unset: readonly variable") else Run.fail (name ++ ": is read only")
        if rich && plainName ≠ name then
          let key := ((name.drop (plainName.length + 1)).dropEnd 1).toString
          let value : Value := match variable_.value with
            | .items items => .items (items.filter fun (n, _) => decimal n != key)
            | .keyed items => .keyed (items.filter (·.1 != key))
            | other => other
          modify (·.setVariable plainName { variable_ with value })
        else modify (·.removeVariable name)
      | none =>
        if rich && kind.isNone then
          modify fun session => { session with functions := session.functions.filter (·.1 != name) }
  return 0

/-! ## Options and parameters of the shell -/

/-- The names of the options with their letters. A letter that nobody sees is a digit. -/
def optionNames : List (String × Char) :=
  [("errexit", 'e'), ("noglob", 'f'), ("ignoreeof", 'I'), ("interactive", 'i'), ("monitor", 'm'), ("noexec", 'n'),
    ("stdin", 's'), ("xtrace", 'x'), ("verbose", 'v'), ("vi", 'V'), ("emacs", 'E'), ("noclobber", 'C'),
    ("allexport", 'a'), ("notify", 'b'), ("nounset", 'u'), ("privileged", 'p'), ("nolog", '0'), ("debug", '1')]

/-- The names of the options of a rich shell with their letters. -/
def richNames : List (String × Char) :=
  [("allexport", 'a'), ("braceexpand", 'B'), ("emacs", '2'), ("errexit", 'e'), ("errtrace", 'E'), ("functrace", 'T'),
    ("hashall", 'h'), ("histexpand", 'H'), ("history", '3'), ("ignoreeof", '4'), ("interactive-comments", '5'),
    ("keyword", 'k'), ("monitor", 'm'), ("noclobber", 'C'), ("noexec", 'n'), ("noglob", 'f'), ("nolog", '0'),
    ("notify", 'b'), ("nounset", 'u'), ("onecmd", 't'), ("physical", 'P'), ("pipefail", '1'), ("posix", '6'),
    ("privileged", 'p'), ("verbose", 'v'), ("vi", '7'), ("xtrace", 'x')]

/-- The options that a rich shell starts with, although nobody has asked for them. -/
def richDefaults : List Char := ['B', 'h', '5']

/-- The names of the options that a shell has. -/
def namesOf (session : Session) : List (String × Char) := if session.isRich then richNames else optionNames

/-- Whether an option counts as on. -/
def isOn (session : Session) (letter : Char) : Bool := session.has letter

/-- A text with blanks behind it, to a width. -/
def widened (width : Nat) (text : String) : String := text ++ String.ofList (List.replicate (width - text.length) ' ')

/-- The options, for people or as commands. -/
def optionList (session : Session) (asCommands : Bool) : String :=
  let names := namesOf session
  if asCommands then
    String.join (names.map fun (name, letter) => "set " ++ (if isOn session letter then "-" else "+") ++ "o " ++ name ++ "\n")
  else
    (if session.isRich then "" else "Current option settings\n") ++
    String.join (names.map fun (name, letter) =>
      (if session.isRich then widened 15 name ++ "\t" else widened 16 name) ++
      (if isOn session letter then "on" else "off") ++ "\n")

/-- Turns options on or off, told by one argument and perhaps a name behind it. -/
def setLetters (on : Bool) : List Char → List String → Run (List String)
  | [], rest => return rest
  | 'o' :: more, rest => do
    let session ← get
    match rest with
    | [] => do
      discard (Run.emit (optionList session !on))
      setLetters on more []
    | name :: rest =>
      match (namesOf session).lookup name with
      | some letter => do
        modify (·.setOption letter on)
        setLetters on more rest
      | none =>
        if session.isRich then Run.failWith 2 (name ++ ": invalid option name") else Run.fail ("Illegal option -o " ++ name)
  | letter :: more, rest => do
    let session ← get
    if (namesOf session).any (·.2 = letter) && !letter.isDigit then
      modify (·.setOption letter on)
      setLetters on more rest
    else if session.isRich then misuseWith ((if on then "-" else "+") ++ letter.toString ++ ": invalid option")
    else Run.fail ("Illegal option -" ++ letter.toString)

/-- Reads options of the shell, and gives the parameters behind them if there are any. -/
def setOptions : Nat → List String → Run (Option (List String))
  | 0, _ => return none
  | bound + 1, arguments => do
    match arguments with
    | [] => return none
    | first :: rest =>
      match first.toList with
      | ['-'] =>
        modify fun session => (session.setOption 'x' false).setOption 'v' false
        return if rest.isEmpty then none else some rest
      | ['-', '-'] => return some rest
      | '-' :: letters => setOptions bound (← setLetters true letters rest)
      | '+' :: letters => setOptions bound (← setLetters false letters rest)
      | _ => return some arguments

/-- Sets options and parameters, or lists variables. -/
def set_ (arguments : List String) : Run Nat := do
  if arguments.isEmpty then
    let session ← get
    let lines := (sortedVariables session).filterMap fun (name, variable_) =>
      variable_.text?.map fun text =>
        if session.isRich then
          name ++ "=" ++ (if text.toList.all Expansion.isSafe then text else Expansion.singleQuoted text) ++ "\n"
        else listed "" name variable_
    Run.emit (String.join lines)
  else
    match ← setOptions (arguments.length + 1) arguments with
    | some parameters =>
      modify fun session => { session with parameters, optionIndex := 1, optionPlace? := none }
      return 0
    | none => return 0

/-- Drops parameters. -/
def shift (arguments : List String) : Run Nat := do
  let count ← match arguments with
    | [] => pure 1
    | text :: _ => number text
  let session ← get
  if session.parameters.length < count then
    if session.isRich then return 1 else Run.fail "can't shift that many"
  set { session with
    parameters := session.parameters.drop count
    optionIndex := if session.isRich then session.optionIndex else 1
    optionPlace? := none }
  return 0

/-! ## Options of parameters -/

/-- Sets the variables that tell of the next option, and the place behind it. -/
def noteOption (name letter : String) (index : Nat) (place : Option Nat) : Run Unit := do
  modify fun session =>
    let old := (session.find? "OPTIND").getD .fresh
    { session with bindings := Session.put session.bindings "OPTIND" { old with value := .text (decimal index) } }
  setChecked name letter
  modify fun session => { session with optionIndex := index, optionPlace? := place }

/-- Reads the next option of the parameters or of arguments. -/
def getopts (arguments : List String) : Run Nat := do
  match arguments with
  | known :: name :: rest =>
    let session ← get
    let given := if rest.isEmpty then session.parameters else rest
    let (index, place?) := if given.length + 1 < session.optionIndex then (1, none)
      else (session.optionIndex, session.optionPlace?)
    let silent := known.startsWith ":"
    let letters := (if silent then known.drop 1 else known).toString.toList
    let current := if index ≤ 1 then [] else
      match place? with
      | some place => ((given[index - 2]?).getD "").toList.drop place
      | none => []
    let word := (given[index - 1]?).getD ""
    let fresh := current.isEmpty
    if fresh && (!word.startsWith "-" || word = "-") then
      noteOption name "?" index none
      return 1
    else if fresh && word = "--" then
      noteOption name "?" (index + 1) none
      return 1
    else
      let (text, index, passed) := if fresh then (word.toList.drop 1, index + 1, 1)
        else (current, index, place?.getD 1)
      let c := text.headD '?'
      let more := text.drop 1
      let complain (plain rich : String) : Run Unit := do
        if (← get).isRich then Run.complainRaw ((← get).name ++ ": " ++ rich ++ c.toString ++ "\n")
        else Run.complainRaw plain
      let place := if more.isEmpty then none else some (passed + 1)
      match letters.dropWhile (· ≠ c) with
      | [] =>
        if silent then Run.assign "OPTARG" c.toString
        else
          complain ("Illegal option -" ++ c.toString ++ "\n") "illegal option -- "
          modify (·.removeVariable "OPTARG")
        noteOption name "?" index place
        return 0
      | _ :: ':' :: _ =>
        if !more.isEmpty then
          Run.assign "OPTARG" (String.ofList more)
          noteOption name c.toString index none
        else match given[index - 1]? with
          | some value =>
            Run.assign "OPTARG" value
            noteOption name c.toString (index + 1) none
          | none =>
            if silent then
              Run.assign "OPTARG" c.toString
              noteOption name ":" index none
            else
              complain ("No arg for -" ++ c.toString ++ " option\n") "option requires an argument -- "
              modify (·.removeVariable "OPTARG")
              noteOption name "?" index none
        return 0
      | _ =>
        if (← get).isRich then modify (·.removeVariable "OPTARG") else Run.assign "OPTARG" ""
        noteOption name c.toString index place
        return 0
  | _ =>
    if (← get).isRich then misuse
    else Run.fail "Usage: getopts optstring var [arg...]"

/-! ## Lines that are read into variables -/

/-- How far a line has been cut into fields: the places where they start and end. -/
structure LineCutting where
  done : List (Nat × Nat)
  start : Nat
  afterBlank : Bool
  /-- How many fields may still be cut off. -/
  left : Nat
  /-- Where the last field ends, if not at the end. -/
  ending : Option Nat

/-- Reads one more character of a line, at a place. -/
def LineCutting.step (separators : List Char) (cutting : LineCutting) (at_ : Nat × Char × Bool) : LineCutting :=
  let (place, c, escaped) := at_
  let separates := !escaped && separators.contains c
  let blank := separates && Mark.isBlank c
  if cutting.left = 0 then
    if blank then { cutting with ending := some (cutting.ending.getD place) }
    else
      let kept := separates && cutting.afterBlank
      { cutting with ending := if kept then cutting.ending else none, afterBlank := false }
  else
    let (cutting, separates, passed) :=
      if cutting.afterBlank then
        let start := if separates then place + 1 else place
        ({ cutting with start }, false, blank)
      else (cutting, separates, false)
    if passed then cutting
    else if !separates then { cutting with afterBlank := false }
    else if place = cutting.start && blank then { cutting with start := place + 1, afterBlank := false }
    else if cutting.left = 1 then { cutting with left := 0, ending := some place, afterBlank := blank }
    else
      { cutting with
        done := (cutting.start, place) :: cutting.done, start := place + 1, afterBlank := blank, left := cutting.left - 1 }

/-- Cuts a line into at most some fields, the last of which is the rest. -/
def cutLine (separators : List Char) (most : Nat) (line : List (Char × Bool)) : List String :=
  let places := line.zipIdx.map fun ((c, escaped), place) => (place, c, escaped)
  let cutting := places.foldl (LineCutting.step separators) ⟨[], 0, false, most, none⟩
  let part (start ending : Nat) : String := String.ofList (((line.take ending).drop start).map (·.1))
  let cut := cutting.done.reverse.map fun (start, ending) => part start ending
  let rest := part cutting.start (cutting.ending.getD line.length)
  if rest = "" then cut else cut ++ [rest]

/-- How a line is read: from which descriptor, whether backslashes mean nothing, the
    character that ends it, and how many characters it has at most. -/
structure LineManner where
  descriptor : Nat
  raw : Bool
  ending : Option Char
  most : Nat

/-- Reads one character, if there is one. -/
def readChar (descriptor : Nat) : Run (Option Char) := do
  match ← Run.act (Act.read descriptor 1) with
  | .error _ => return none
  | .ok bytes => return if bytes.isEmpty then none else some (Char.ofNat (bytes.get! 0).toNat)

/-- Reads a line, of which a backslash keeps what follows from being cut or joins the
    next line, unless it means nothing. -/
def readLine (how : LineManner) : Nat → List (Char × Bool) → Run (List (Char × Bool) × Bool)
  | 0, found => return (found.reverse, true)
  | bound + 1, found => do
    if found.length = how.most then return (found.reverse, true)
    match ← readChar how.descriptor with
    | none => return (found.reverse, false)
    | some c =>
      if how.ending = some c then return (found.reverse, true)
      else if c = '\x00' then readLine how bound found
      else if !how.raw && c = '\\' then
        match ← readChar how.descriptor with
        | none => return (found.reverse, false)
        | some d => if d = '\n' then readLine how bound found else readLine how bound ((d, true) :: found)
      else readLine how bound ((c, false) :: found)

/-- The most characters of a line. -/
def lineLimit : Nat := 100000000

/-- Reads a line into variables. -/
def read (arguments : List String) : Run Nat := do
  let rich := (← get).isRich
  let known : Letters := if rich then
      [('p', true), ('r', false), ('a', true), ('d', true), ('e', false), ('i', true), ('n', true), ('N', true),
        ('s', false), ('t', true), ('u', true)]
    else [('p', true), ('r', false)]
  let (found, names) ← options known arguments
  if names.isEmpty && !rich then Run.fail "arg count"
  let amount (c : Char) (missing : Nat) : Run Nat := do
    match found.lookup c with
    | none => return missing
    | some text =>
      if text ≠ "" && text.all Char.isDigit then return Decimal.ofDigits text.toList
      else Run.failWith 1 (text ++ (if c = 'u' then ": invalid file descriptor specification" else ": invalid number"))
  let exact := (found.lookup 'N').isSome
  let descriptor ← amount 'u' 0
  let most ← amount 'N' (← amount 'n' (lineLimit + 1))
  let ending := if exact then none else match found.lookup 'd' with
    | some text => some (text.toList.headD '\x00')
    | none => some '\n'
  if most = 0 then return 0
  let (line, ended) ← readLine ⟨descriptor, found.any (·.1 = 'r'), ending, most⟩ lineLimit []
  let separators := (← get).separators
  let status := if ended then 0 else 1
  let whole := String.ofList (line.map (·.1))
  match found.lookup 'a' with
  | some name =>
    let fields := cutLine separators (line.length + 1) line
    modify (·.setVariable name { Variable.fresh with value := .items (fields.zipIdx.map fun (text, n) => (n, text)) })
  | none =>
    if names.isEmpty then Run.assign "REPLY" whole
    else
      let fields := if exact then [whole] else cutLine separators names.length line
      for (name, place) in names.zipIdx do
        setChecked name (fields[place]?.getD "")
  return status

end Pkgset.Shell.Builtin

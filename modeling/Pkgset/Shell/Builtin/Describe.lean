import Pkgset.Shell.Builtin.Control
import Pkgset.Shell.Locate

/-!
# Builtin commands that tell of commands

A name is a keyword, an alias, a function, a builtin command or a program, and the
first of these that it is counts.
-/

namespace Pkgset.Shell.Builtin
open Kernel

/-- The builtin commands of every shell. -/
def plainNames : List String := [
  ".", ":", "[", "alias", "bg", "break", "cd", "chdir", "command", "continue", "echo", "eval", "exec", "exit",
  "export", "false", "fg", "getopts", "hash", "jobs", "kill", "local", "printf", "pwd", "read", "readonly", "return",
  "set", "shift", "test", "times", "trap", "true", "type", "ulimit", "umask", "unalias", "unset", "wait"]

/-- The builtin commands that only a rich shell has. -/
def richOnly : List String := [
  "bind", "builtin", "caller", "declare", "dirs", "disown", "enable", "help", "let", "mapfile", "popd", "pushd",
  "readarray", "shopt", "source", "suspend", "typeset"]

/-- Whether a name is that of a builtin command. -/
def isBuiltin (session : Session) (name : String) : Bool :=
  if session.isRich then (plainNames.contains name && name != "chdir") || richOnly.contains name
  else plainNames.contains name

/-- Whether a builtin command does more than others when it fails. -/
def isSpecial (session : Session) (name : String) : Bool := !session.isRich && Reader.specialNames.contains name

/-- Whether the assignments among the arguments of a builtin command are expanded like
    those in front of commands. -/
def takesAssignments (session : Session) (name : String) : Bool :=
  ["export", "readonly", "local"].contains name || (session.isRich && Reader.listTakers.contains name)

/-- Whether a name is a keyword. -/
def isKeyword (session : Session) (name : String) : Bool :=
  Reader.keywords.contains name || (session.isRich && (Reader.richKeywords ++ ["]]"]).contains name)

/-- What a command is. -/
inductive Kind where
  | keyword
  | alias_ (text : String)
  | function
  | builtin (special : Bool)
  /-- A program, and whether the shell has looked for it before. -/
  | program (path : String) (known : Bool)
  | missing

/-- What a name is. A search path other than the shell's own may be given. -/
def kindOf (path? : Option String) (name : String) : Run Kind := do
  let session ← get
  if isKeyword session name then return .keyword
  match if session.isRich then none else session.aliases.lookup name with
  | some text => return .alias_ text
  | none =>
    if (session.functions.lookup name).isSome then return .function
    else if isBuiltin session name then return .builtin (isSpecial session name)
    else if name.contains '/' then
      match ← Run.call (Syscall.inspect · true name) with
      | .ok (_, inode) =>
        return if session.isRich && !(inode.isFile && inode.isExecutable) then .missing else .program name false
      | .error _ => return .missing
    else if name = "" then return .missing
    else match path? with
      | some path =>
        match ← Run.act (Locate.program path name) with
        | .ok found => return .program found false
        | .error _ => return .missing
      | none =>
        let known := (session.located.lookup name).isSome
        match ← if session.isRich && !known then Run.act (Locate.program (Locate.searchPath session) name)
            else Locate.remembered name with
        | .ok found => return .program found known
        | .error _ => return .missing

/-- The lines of a function, of which only the name is told. -/
def functionLines (session : Session) (name : String) : String :=
  if session.isRich then " is a function\n" ++ name ++ " () \n" else " is a shell function\n"

/-- Tells what a name is, in words or by a text that can be run. -/
def describe (path? : Option String) (inWords : Bool) (name : String) : Run Nat := do
  let session ← get
  let rich := session.isRich
  let say (words text : String) : Run Nat := Run.emit ((if inWords then name ++ words else text) ++ "\n")
  match ← kindOf path? name with
  | .keyword => say " is a shell keyword" name
  | .alias_ text =>
    if inWords then say (" is an alias for " ++ text) ""
    else Run.emit ("alias " ++ aliasLine false name text)
  | .function => if inWords then Run.emit (name ++ functionLines session name) else say "" name
  | .builtin special => say (" is a " ++ (if special then "special " else "") ++ "shell builtin") name
  | .program path known =>
    say (if rich && known then " is hashed (" ++ path ++ ")" else (if known then " is a tracked alias for " else " is ") ++ path)
      path
  | .missing =>
    if inWords then
      if rich then Run.complain (name ++ ": not found") else discard (Run.emit (name ++ ": not found\n"))
    return if rich then 1 else 127

/-- Tells in one word what a name is. -/
def kindWord (name : String) : Run Nat := do
  match ← kindOf none name with
  | .keyword => Run.emit "keyword\n"
  | .alias_ _ => Run.emit "alias\n"
  | .function => Run.emit "function\n"
  | .builtin _ => Run.emit "builtin\n"
  | .program _ _ => Run.emit "file\n"
  | .missing => return 1

/-- Tells what names are. -/
def type_ (arguments : List String) : Run Nat := do
  let rich := (← get).isRich
  let (found, names) ← if rich then
      options [('t', false), ('p', false), ('a', false), ('P', false), ('f', false)] arguments
    else pure ([], arguments)
  let mut status := 0
  for name in names do
    let one ← if found.any (·.1 = 't') then kindWord name
      else if found.any fun (c, _) => c = 'p' || c = 'P' then do
        match ← kindOf none name with
        | .program path _ => Run.emit (path ++ "\n")
        | .missing => pure 1
        | _ => pure 0
      else describe none true name
    status := status ||| one
  return status

/-- Tells what the first of several names is, if options ask for that. -/
def command_ (arguments : List String) : Run Nat := do
  let (found, names) ← options [('p', false), ('v', false), ('V', false)] arguments
  let asks := (found.filter fun (c, _) => c != 'p').getLast?.map (·.1)
  let path? := if found.any (·.1 = 'p') then some Locate.systemPath else none
  match asks, names with
  | some letter, name :: more =>
    if (← get).isRich then
      let mut status := 1
      for name in name :: more do
        if (← describe path? (letter = 'V') name) = 0 then status := 0
      return status
    else describe path? (letter = 'V') name
  | _, _ => return 0

/-- Remembers where programs are, forgets that, or lists it. -/
def hash (arguments : List String) : Run Nat := do
  let rich := (← get).isRich
  let (found, names) ← options (if rich then [('r', false), ('t', false), ('l', false), ('d', false)] else [('r', false)])
    arguments
  if found.any (·.1 = 'r') then
    modify fun session => { session with located := [] }
    return 0
  if names.isEmpty then
    let session ← get
    if rich then
      if session.located.isEmpty then Run.emit "hash: hash table empty\n"
      else Run.emit ("hits\tcommand\n" ++ String.join (session.located.map fun (_, found) => "   0\t" ++ found.path ++ "\n"))
    else Run.emit (String.join ((Session.inBucketsOf 31 session.located).map fun (_, found) => found.path ++ "\n"))
  else
    let mut status := 0
    for name in names do
      let session ← get
      set { session with located := session.located.filter (·.1 != name) }
      if !(name.contains '/' || isBuiltin session name || (session.functions.lookup name).isSome) then
        match ← Locate.remembered name with
        | .ok _ => pure ()
        | .error cause =>
          Run.complain (name ++ ": " ++ Locate.wording cause)
          status := 1
    return status

end Pkgset.Shell.Builtin

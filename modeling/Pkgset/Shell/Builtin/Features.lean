import Pkgset.Shell.Builtin.Variables

/-!
# Features of a rich shell

Features are options with long names only, most of which are off at first.
-/

namespace Pkgset.Shell.Builtin
open Kernel

/-- The features, in the order of their names, except for those of older shells. -/
def featureNames : List String := [
  "autocd", "assoc_expand_once", "cdable_vars", "cdspell", "checkhash", "checkjobs", "checkwinsize", "cmdhist",
  "compat31", "compat32", "compat40", "compat41", "compat42", "compat43", "compat44", "complete_fullquote",
  "direxpand", "dirspell", "dotglob", "execfail", "expand_aliases", "extdebug", "extglob", "extquote", "failglob",
  "force_fignore", "globasciiranges", "globskipdots", "globstar", "gnu_errfmt", "histappend", "histreedit",
  "histverify", "hostcomplete", "huponexit", "inherit_errexit", "interactive_comments", "lastpipe", "lithist",
  "localvar_inherit", "localvar_unset", "login_shell", "mailwarn", "no_empty_cmd_completion", "nocaseglob",
  "nocasematch", "noexpand_translation", "nullglob", "patsub_replacement", "progcomp", "progcomp_alias",
  "promptvars", "restricted_shell", "shift_verbose", "sourcepath", "varredir_close", "xpg_echo"]

/-- The features that are on at first. -/
def defaultFeatures : List String := [
  "checkwinsize", "cmdhist", "complete_fullquote", "extquote", "force_fignore", "globasciiranges", "globskipdots",
  "hostcomplete", "interactive_comments", "patsub_replacement", "progcomp", "promptvars", "sourcepath"]

/-- Turns a feature on or off. -/
def setFeature (session : Session) (name : String) (on : Bool) : Session :=
  let others := session.features.filter (· != name)
  { session with features := if on then name :: others else others }

/-- Sets or lists features, or the options of the shell if that is asked for. -/
def shopt (arguments : List String) : Run Nat := do
  let (found, names) ← options [('p', false), ('q', false), ('s', false), ('u', false), ('o', false)] arguments
  let has (c : Char) : Bool := found.any (·.1 = c)
  if has 's' && has 'u' then Run.failWith 1 "cannot set and unset shell options simultaneously"
  let known := if has 'o' then richNames.map (·.1) else featureNames
  let isOn (session : Session) (name : String) : Bool :=
    if has 'o' then (richNames.lookup name).any session.has else session.offers name
  let line (session : Session) (name : String) : String :=
    if has 'p' then
      (if has 'o' then "set " ++ (if isOn session name then "-o " else "+o ")
        else "shopt " ++ (if isOn session name then "-s " else "-u ")) ++ name ++ "\n"
    else widened 15 name ++ "\t" ++ (if isOn session name then "on" else "off") ++ "\n"
  let session ← get
  if names.isEmpty then
    let wanted := known.filter fun name =>
      if has 's' then isOn session name else if has 'u' then !isOn session name else true
    if has 'q' then return 0 else Run.emit (String.join (wanted.map (line session)))
  else
    let mut status := 0
    for name in names do
      if !known.contains name then
        Run.complain (name ++ (if has 'o' then ": invalid option name" else ": invalid shell option name"))
        status := 1
      else if has 's' || has 'u' then
        modify fun session =>
          if has 'o' then ((richNames.lookup name).elim session fun letter => session.setOption letter (has 's'))
          else setFeature session name (has 's')
      else
        if !isOn session name then status := 1
        if !has 'q' then discard (Run.emit (line session name))
    return status

/-! ## Rows

A rich shell reads the lines of a text into the elements of a list.
-/

/-- Reads a row with its ending, within a number of characters, and tells whether it has
    one. -/
def readRow (descriptor : Nat) (ending : Char) : Nat → List Char → Run (List Char × Bool)
  | 0, found => return (found.reverse, true)
  | bound + 1, found => do
    match ← readChar descriptor with
    | none => return (found.reverse, false)
    | some c => if c = ending then return ((c :: found).reverse, true) else readRow descriptor ending bound (c :: found)

/-- Reads rows, at most a number of them. -/
def readRows (descriptor : Nat) (ending : Char) : Nat → List (List Char) → Run (List (List Char))
  | 0, found => return found.reverse
  | bound + 1, found => do
    match ← readRow descriptor ending lineLimit [] with
    | ([], _) => return found.reverse
    | (row, true) => readRows descriptor ending bound (row :: found)
    | (row, false) => return (row :: found).reverse

/-- Reads rows into a list. -/
def mapfile (arguments : List String) : Run Nat := do
  let (found, names) ← options [('d', true), ('n', true), ('O', true), ('s', true), ('t', false), ('u', true),
    ('C', true), ('c', true)] arguments
  let amount (c : Char) (missing : Nat) : Run Nat := do
    match found.lookup c with
    | none => return missing
    | some text =>
      match (Arithmetic.number? 10 text).filter (0 ≤ ·) with
      | some n => return n.toNat
      | none => Run.failWith 1 (text ++ ": invalid " ++ (match c with
        | 'O' => "array origin"
        | 'u' => "file descriptor specification"
        | _ => "line count"))
  let name := names.headD "MAPFILE"
  checkName name
  let ending := match found.lookup 'd' with
    | some text => text.toList.headD '\x00'
    | none => '\n'
  let count ← amount 'n' 0
  let origin ← amount 'O' 0
  let skipped ← amount 's' 0
  let descriptor ← amount 'u' 0
  let old := ((← get).find? name).getD .fresh
  if old.readOnly then Run.refuseChange name
  discard (readRows descriptor ending skipped [])
  let rows ← readRows descriptor ending (if count = 0 then lineLimit else count) []
  let text (row : List Char) : String :=
    String.ofList (if found.any (·.1 = 't') && row.getLast? = some ending then row.dropLast else row)
  let items := if found.any (·.1 = 'O') then old.value.toItems else []
  let items := rows.zipIdx.foldl (fun items (row, n) => Value.withItem items (origin + n) (text row)) items
  modify (·.setVariable name { old with value := .items items })
  return 0

end Pkgset.Shell.Builtin

import Pkgset.Shell.Assignment
import Pkgset.Shell.Process
import Pkgset.Shell.Text
import Pkgset.Text.Regex

/-!
# Evaluation

A shell runs commands one after another, in processes of their own or in itself. Its
status is the one of the last command. What leaves a command early passes through all
that encloses it, up to what it is meant for.
-/

namespace Pkgset.Shell
open Kernel

namespace Evaluation

/-- Whether a text matches a written expression, in which quoted characters stand for
    themselves. The parts that its groups match are noted. -/
def matchesExpression (text : String) (written : Field) : Run Bool := do
  let chars := written.flatMap fun (c, quoted) =>
    if quoted && !c.isAlphanum then ['\\', c] else [c]
  match Regex.ofText true (String.ofList chars) with
  | .error _ =>
    Run.setStatus 2
    return false
  | .ok regex =>
    let matching := Regex.line text false
    match Regex.search matching regex 0 with
    | none =>
      noteItems "BASH_REMATCH" []
      return false
    | some groups =>
      noteItems "BASH_REMATCH"
        ((List.range (Regex.groupCount regex + 1)).map fun n => (Regex.part? matching groups n).getD "")
      return true

/-- Whether a text matches a written pattern. The case of letters may count for nothing. -/
def accepted (session : Session) (caret groups : Bool) (written : Field) (text : List Char) : Bool :=
  let style : Pattern.Style := ⟨caret, groups⟩
  if session.offers "nocasematch" then
    Pattern.accepts (Pattern.inStyle style (written.map fun (c, quoted) => (c.toLower, quoted))) (text.map Char.toLower)
  else Pattern.accepts (Pattern.inStyle style written) text

/-- Whether a parameter or an element has a value. -/
def isSet (session : Session) (text : String) : Bool :=
  let name := String.ofList (text.toList.takeWhile (· ≠ '['))
  if name = text then (session.parameter? name).isSome
  else
    let place := String.ofList (text.toList.drop (name.length + 1)).dropLast
    match session.value name with
    | .keyed items => (items.lookup place).isSome
    | .unset => false
    | value =>
      if place = "@" || place = "*" then true
      else ((Arithmetic.number? 0 place).bind (Session.item? value.toItems)).isSome

/-- Does something whose trouble leaves no more than itself, and tells whether it has come
    to its end. -/
def surviving (action : Run Unit) : Run Bool := do
  try
    action
    return true
  catch stop => if stop = .abandon then return false else throw stop

/-- Does something under the name of a command. -/
def under {α : Type} (name : String) (action : Run α) : Run α := do
  let old := (← get).command?
  Run.within (fun session => { session with command? := some name }) (fun session => { session with command? := old }) action

/-- How deep commands may enclose each other. -/
def depthLimit : Nat := 100000

/-! ## Commands -/

section
variable (programs : Programs)

mutual

/-- Runs a command. It may be one whose failure is heeded by what encloses it, and it
    may be the last one that the process runs. -/
def evaluate : Nat → Bool → Bool → Command → Run Unit
  | 0, _, _, _ => collapse
  | bound + 1, tested, exits, command => do
    if (← get).has 'n' then return ()
    poll bound
    let heeded ← enact bound tested exits command
    poll bound
    let session ← get
    if heeded && !tested && session.status ≠ 0 then
      if session.calls = 0 || session.has 'E' then
        if let some action := session.traps.lookup Signal.trouble then heed (evaluate bound false false) action
      if session.has 'e' then throw .exit
    if exits then throw .exit

/-- Does what a command says, and tells whether its failure may end the shell. -/
def enact : Nat → Bool → Bool → Command → Run Bool
  | 0, _, _, _ => collapse
  | bound + 1, tested, exits, command => do
    let hooks : Hooks := ⟨output bound, lend bound⟩
    match command with
    | .nothing => return false
    | .simple line assignments words redirects =>
      simple bound tested exits line assignments words redirects
      return true
    | .sequence first second =>
      evaluate bound tested false first
      evaluate bound tested exits second
      return false
    | .both first second =>
      evaluate bound true false first
      if (← get).status = 0 then evaluate bound tested exits second
      return false
    | .either first second =>
      evaluate bound true false first
      if (← get).status ≠ 0 then evaluate bound tested exits second
      return false
    | .negation command =>
      evaluate bound true false command
      modify fun session => { session with status := if session.status = 0 then 1 else 0 }
      return false
    | .branch condition first second =>
      evaluate bound true false condition
      if (← get).status = 0 then evaluate bound tested exits first
      else match second with
        | .nothing => Run.setStatus 0
        | second => evaluate bound tested exits second
      return false
    | .loop untilSuccess condition body =>
      let holds : Run Bool := do
        evaluate bound true false condition
        return (decide ((← get).status = 0)) != untilSuccess
      Run.setStatus (← loop (repeated holds (evaluate bound tested false body) roundLimit 0))
      return false
    | .each line name words body =>
      modify fun session => { session with line }
      let texts ← match words with
        | none => pure (← get).parameters
        | some words => do pure (← words.mapM (Expansion.fields hooks)).flatten
      let one (text : String) : Run Unit := do
        if !(← surviving (Run.assign name text)) then throw (.leave 1)
        evaluate bound tested false body
      Run.setStatus (← loop (forEach one texts 0))
      return false
    | .select line word choices =>
      modify fun session => { session with line }
      let text ← Expansion.text hooks .start word
      choose bound tested exits text.toList choices
      return false
    | .define _ name body =>
      modify fun session =>
        { session with functions := Session.put session.functions name body, status := 0 }
      return false
    | .redirected line command redirects =>
      modify fun session => { session with line }
      let changes ← Redirection.allChanges hooks redirects
      let inner (_ : List (Nat × Option Nat)) : Run Bool := do
        evaluate bound tested false command
        return false
      Redirection.with_ changes false inner do
        Run.setStatus (redirectStatus (← get))
        return true
    | .subshell line command redirects =>
      modify fun session => { session with line }
      let changes ← Redirection.allChanges hooks redirects
      let session ← get
      let inner : Run Unit := do
        becomeCopy
        redirectFor changes
        evaluate bound tested true command
      if exits && !hasTraps session then inner
      else
        let id ← Run.act (forkRun session (concluded bound inner))
        Run.setStatus (← Builtin.await id)
      return true
    | .background line command redirects =>
      modify fun session => { session with line }
      let changes ← Redirection.allChanges hooks redirects
      let inner : Run Unit := do
        becomeCopy
        detach true
        redirectFor changes
        evaluate bound false true command
      let id ← Run.act (forkRun (← get) (concluded bound inner))
      Builtin.addJob [id]
      Run.setStatus 0
      return true
    | .pipeline commands background =>
      let ids ← stages bound tested background true none commands
      if background then
        Builtin.addJob ids
        Run.setStatus 0
      else
        let statuses ← ids.mapM Builtin.await
        let session ← get
        let last := statuses.getLast?.getD 0
        let failed := (statuses.filter (· ≠ 0)).getLast?.getD 0
        Run.setStatus (if session.isRich && session.has '1' then failed else last)
        if session.isRich then noteItems "PIPESTATUS" (statuses.map fun (n : Nat) => decimal n)
      return true
    | .test line test =>
      modify fun session => { session with line }
      discard <| surviving <| under "[[" do
        let holds ← condition bound test
        Run.setStatus (if holds then 0 else 1)
      return true
    | .sum line expression =>
      modify fun session => { session with line }
      let text ← Expansion.text hooks .never expression
      discard <| surviving <| under "((" do
        let n ← Expansion.sum text
        Run.setStatus (if n = 0 then 1 else 0)
      return true
    | .count line start goes step body =>
      modify fun session => { session with line }
      let value (word : Word) (missing : Int) : Run Int := do
        let text ← Expansion.text hooks .never word
        if text.toList.all Mark.isBlank then return missing else under "((" (Expansion.sum text)
      discard <| surviving do
        discard (value start 0)
        let holds : Run Bool := do return decide ((← value goes 1) ≠ 0)
        let round : Run Unit := do
          match ← inLoop (evaluate bound tested false body) with
          | .left => throw (.leave 1)
          | _ => discard (value step 0)
        Run.setStatus (← loop (repeated holds round roundLimit 0))
      return false

/-- Runs the commands of the first choice that a text matches. -/
def choose : Nat → Bool → Bool → List Char → List (List Word × Command × After) → Run Unit
  | 0, _, _, _, _ => collapse
  | _, _, _, _, [] => Run.setStatus 0
  | bound + 1, tested, exits, text, (patterns, command, after) :: rest => do
    if ← matchesAny bound text patterns then take bound tested exits text command after rest
    else choose bound tested exits text rest

/-- Runs the commands of a choice, and what follows them. -/
def take : Nat → Bool → Bool → List Char → Command → After → List (List Word × Command × After) → Run Unit
  | 0, _, _, _, _, _, _ => collapse
  | bound + 1, tested, exits, text, command, after, rest => do
    let last := match after with
      | .leave => true
      | _ => rest.isEmpty
    match command with
    | .nothing => Run.setStatus 0
    | command => evaluate bound tested (exits && last) command
    match after, rest with
    | .leave, _ | _, [] => return ()
    | .enter, (_, command, after) :: rest => take bound tested exits text command after rest
    | .goOn, rest => choose bound tested exits text rest

/-- Whether a text matches one of some patterns. -/
def matchesAny : Nat → List Char → List Word → Run Bool
  | 0, _, _ => collapse
  | _, _, [] => return false
  | bound + 1, text, word :: rest => do
    let written ← Expansion.written ⟨output bound, lend bound⟩ word
    if accepted (← get) (← get).isRich ((← get).offers "extglob") written text then return true
    else matchesAny bound text rest

/-- Starts the processes of a pipeline, each of which reads what the one before writes. -/
def stages : Nat → Bool → Bool → Bool → Option Nat → List Command → Run (List ProcessId)
  | 0, _, _, _, _, _ => collapse
  | _, _, _, _, _, [] => return []
  | bound + 1, tested, background, first, input, command :: rest => do
    remember command
    let next ← if rest.isEmpty then pure none else do pure (some (← Run.act pipe))
    let inner : Run Unit := do
      becomeCopy
      if background then detach first
      Run.act do
        if let some input := input then Redirection.move input 0
        if let some (input, output) := next then
          Act.close input
          Redirection.move output 1
      evaluate bound tested true command
    let id ← Run.act (forkRun (← get) (concluded bound inner))
    Run.act do
      if let some input := input then Act.close input
      if let some (_, output) := next then Act.close output
    return id :: (← stages bound tested background false (next.map (·.1)) rest)

/-- What a command writes, without the line ends at its end. -/
def output : Nat → Command → Run String
  | 0, _ => collapse
  | bound + 1, command => do
    match command with
    | .nothing => return ""
    | command =>
      let (input, out) ← Run.act pipe
      let inner : Run Unit := do
        becomeCopy
        Run.act do
          Act.close input
          Redirection.move out 1
        evaluate bound false true command
      let id ← Run.act (forkRun (← get) (concluded bound inner))
      let bytes ← Run.act do
        Act.close out
        let bytes ← Act.readAll input
        Act.close input
        return bytes
      let status ← Builtin.await id
      modify fun session =>
        { session with outputStatus := status, status := if session.isRich then status else session.status }
      let text := match bytes with
        | .ok bytes => Raw.ofArray bytes
        | .error _ => ""
      let chars := text.toList.filter (· ≠ '\x00')
      return String.ofList (chars.reverse.dropWhile (· = '\n')).reverse

/-- Starts a command and gives the path of a pipe that leads from it or to it. -/
def lend : Nat → Command → Bool → Run String
  | 0, _, _ => collapse
  | bound + 1, command, fromCommand => do
    let (input, out) ← Run.act pipe
    let (mine, other, target) := if fromCommand then (input, out, 1) else (out, input, 0)
    let inner : Run Unit := do
      becomeCopy
      Run.act do
        Act.close mine
        Redirection.move other target
      evaluate bound false true command
    discard (Run.act (forkRun (← get) (concluded bound inner)))
    let place ← Run.act do
      Act.close other
      let place ← Act.look fun world id => world.freeDescriptor id lentFrom
      Redirection.move mine place
      return place
    modify fun session => { session with lent := place :: session.lent }
    return "/dev/fd/" ++ decimal place

/-- Runs a simple command. -/
def simple : Nat → Bool → Bool → Nat → List Word → List Word → List Redirect → Run Unit
  | 0, _, _, _, _, _, _ => collapse
  | bound + 1, tested, exits, line, assignments, words, redirects => do
    let hooks : Hooks := ⟨output bound, lend bound⟩
    modify fun session => { session with line, outputStatus := 0 }
    let (fields, rest) ← firstFields hooks words
    let shape ← understand hooks (words.length + 1) ⟨[], fields, rest, none, false, false, false, none⟩
    let session ← get
    let (more, lists) ← arguments hooks shape
    let fields := shape.fields ++ more
    let special := shape.special?.getD false
    let isExec := fields.head? = some "exec" && Builtin.isBuiltin session "exec"
    withOwn (shape.own && !(assignments.isEmpty && shape.special?.isSome)) do
      let changes ← Redirection.allChanges hooks redirects
      let inner (kept : List (Nat × Option Nat)) : Run Unit := do
        let texts ← assignAll hooks shape.own (isExec && 1 < fields.length) assignments
        trace hooks kept texts (shape.passed ++ fields)
        match fields with
        | [] => modify fun session => { session with status := session.outputStatus }
        | name :: arguments =>
          let session ← get
          match if shape.passes then none else session.functions.lookup name with
          | some body => callFunction bound tested body arguments
          | none =>
            if Builtin.isBuiltin session name then
              let constants := (session.bindings.filter (·.2.readOnly)).map (·.1)
              builtin bound tested special name arguments
              for list in lists do assignDeclared hooks constants list
            else program programs exits shape.path? name arguments
      Redirection.with_ changes isExec inner do
        Run.setStatus (redirectStatus (← get))
        if special then throw .failure
    giveBackLent

/-- Runs a function. -/
def callFunction : Nat → Bool → Command → List String → Run Unit
  | 0, _, _, _ => collapse
  | bound + 1, tested, body, arguments => do
    let old ← get
    let enter (session : Session) : Session :=
      { session with
        parameters := arguments, optionIndex := 1, optionPlace? := none, loops := 0, calls := session.calls + 1
        origin? := if session.isRich && session.has 'c' && session.origin?.isNone then some "environment"
          else session.origin? }
    let leave (session : Session) : Session :=
      { session with
        parameters := old.parameters, optionIndex := old.optionIndex, optionPlace? := old.optionPlace?
        loops := old.loops, calls := old.calls, origin? := old.origin? }
    Run.within enter leave (returning (evaluate bound tested false body))

/-- Runs a builtin command. Only a special one ends the shell by its failure. -/
def builtin : Nat → Bool → Bool → String → List String → Run Unit
  | 0, _, _, _, _ => collapse
  | bound + 1, tested, special, name, arguments => do
    let old := (← get).command?
    try
      let status ← Run.within (fun session => { session with command? := some name })
        (fun session => { session with command? := old })
        (work bound tested name arguments)
      Run.setStatus status
    catch stop =>
      match stop with
      | .failure | .abandon => if special then throw .failure
      | other => throw other

/-- Does what a builtin command does, and gives its status. -/
def work : Nat → Bool → String → List String → Run Nat
  | 0, _, _, _ => collapse
  | bound + 1, tested, name, arguments => do
    let run := evaluate bound tested false
    match name, arguments with
    | "eval", arguments =>
      let (_, rest) ← if (← get).isRich then Builtin.options [] arguments else pure ([], arguments)
      let old ← get
      Run.within (fun session => { session with command? := if session.isRich then none else session.command? })
        (fun session => { session with command? := old.command? }) (runText run (" ".intercalate rest) (some "eval"))
    | ".", arguments | "source", arguments =>
      let (_, rest) ← Builtin.options [] arguments
      match rest with
      | [] => if (← get).isRich then Builtin.misuseWith "filename argument required" else return 0
      | file :: parameters =>
        let path ← textFile file
        let text ← readText path
        let old ← get
        let given := old.isRich && !parameters.isEmpty
        Run.within
          (fun session =>
            { session with
              command? := if session.isRich then none else some path
              origin? := if session.isRich then some path else none
              calls := if session.isRich then session.calls + 1 else session.calls
              parameters := if given then parameters else session.parameters })
          (fun session =>
            { session with
              command? := old.command?, calls := old.calls, origin? := old.origin?
              parameters := if given then old.parameters else session.parameters })
          (do
            let status ← returningStatus (runText run text)
            return status)
    | "exec", [] => return 0
    | "exec", name :: rest =>
      match ← if name.contains '/' then pure (Except.ok name) else do
          Run.act (Locate.program (Locate.searchPath (← get)) name) with
      | .ok path => replaceBy programs name path rest
      | .error cause =>
        Run.complain (name ++ ": " ++ Locate.wording cause)
        Run.setStatus (statusOf cause)
      throw .exit
    | "builtin", [] => return 0
    | "builtin", name :: rest =>
      modify fun session => { session with command? := some (if Builtin.isBuiltin session name then name else "builtin") }
      if Builtin.isBuiltin (← get) name then work bound tested name rest
      else Run.failWith 1 (name ++ ": not a shell builtin")
    | name, arguments =>
      match Builtin.table.lookup name with
      | some run => run arguments
      | none => return 0

/-- Does what signals ask for that have come. -/
def poll : Nat → Run Unit
  | 0 => collapse
  | bound + 1 => do
    match ← Run.act Act.takeSignals with
    | [] => return ()
    | signals =>
      for signal in (List.range (Signal.last + 1)).filter signals.contains do
        match (← get).traps.lookup signal with
        | some action => heed (evaluate bound false false) action
        | none => pure ()

/-- Runs something as the whole of what a process does, and gives its status. At last
    it does what it has to do at its exit. -/
def concluded : Nat → Run Unit → Run Nat
  | 0, _ => collapse
  | bound + 1, action => do
    try action
    catch _ => pure ()
    let session ← get
    match session.traps.lookup 0 with
    | none => return session.status
    | some action =>
      let status := session.status
      set { session with traps := session.traps.filter (·.1 != 0), trapStatus? := some status, loops := 0 }
      try
        discard (runText (evaluate bound false false) action (some "exit trap"))
        Run.setStatus status
      catch stop =>
        match stop with
        | .exit | .failure => pure ()
        | _ => Run.setStatus status
      return (← get).status

/-- Whether a condition holds. -/
def condition : Nat → Test → Run Bool
  | 0, _ => collapse
  | bound + 1, test => do
    let hooks : Hooks := ⟨output bound, lend bound⟩
    match test with
    | .negation test => return !(← condition bound test)
    | .both first second => if ← condition bound first then condition bound second else return false
    | .either first second => if ← condition bound first then return true else condition bound second
    | .word word => return (← Expansion.text hooks .start word) ≠ ""
    | .unary mark word =>
      let text ← Expansion.text hooks .start word
      match mark with
      | "-v" => return isSet (← get) text
      | "-o" => return (Builtin.richNames.lookup text).any (← get).has
      | _ => Run.act (Condition.unary mark text)
    | .binary mark first second =>
      let text ← Expansion.text hooks .start first
      if mark = "=" || mark = "==" || mark = "!=" then
        let written ← Expansion.written hooks second
        return accepted (← get) true true written text.toList != (mark = "!=")
      else if mark = "=~" then
        matchesExpression text (← Expansion.written hooks second)
      else
        let other ← Expansion.text hooks .start second
        if (Condition.compare? mark).isSome then
          let a ← Expansion.sum text
          let b ← Expansion.sum other
          return ((Condition.compare? mark).map fun compare => compare a b).getD false
        else match ← Run.act (Condition.binary Condition.shellNumber true mark text other).run with
          | .ok holds => return holds
          | .error message => Run.fail message

end

end
end Evaluation
end Pkgset.Shell

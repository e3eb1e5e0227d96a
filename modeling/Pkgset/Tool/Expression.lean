import Pkgset.Text.Regex
import Pkgset.Tool.Work

/-!
# Expressions of words

Words are the operands and the operators of an expression, whose value is a text.
-/

namespace Pkgset.Tool
open Kernel

namespace Expression

/-- What evaluates: it knows the words that are left and the one before them. -/
abbrev Walking := StateT (List String × String) (ExceptT (Nat × String) Id)

/-- Stops with a message. -/
def wrong {α : Type} (status : Nat) (message : String) : Walking α := throw (status, message)

/-- The integer that a text is. -/
def integer? (text : String) : Option Int :=
  match text.toList with
  | '-' :: rest => if !rest.isEmpty && rest.all Char.isDigit then some (-(Decimal.ofDigits rest : Int)) else none
  | chars => if !chars.isEmpty && chars.all Char.isDigit then some (Decimal.ofDigits chars : Int) else none

/-- Whether a value counts as nothing. -/
def isNull (text : String) : Bool :=
  let digits := if text.startsWith "-" then text.toList.drop 1 else text.toList
  text = "" || (!digits.isEmpty && digits.all (· = '0'))

/-- Whether a word comes next; if so, it is taken. -/
def takes (word : String) : Walking Bool := do
  match (← get).1 with
  | next :: rest =>
    if next = word then
      set (rest, word)
      return true
    else return false
  | [] => return false

/-- The next word, which has to be there. -/
def next : Walking String := do
  match ← get with
  | (word :: rest, _) =>
    set (rest, word)
    return word
  | ([], before) => wrong 2 ("syntax error: missing argument after " ++ quoted before)

/-- The number that a value is. -/
def number (text : String) : Walking Int := do
  match integer? text with
  | some n => return n
  | none => wrong 2 "non-integer argument"

/-- What a basic expression matches at the start of a text. -/
def matched (text pattern : String) : Walking String := do
  match Regex.ofText false pattern with
  | .error fault => wrong 2 fault.message
  | .ok regex =>
    let matching := Regex.line text false
    let groups := Regex.groupCount regex
    match Regex.matchAt? matching regex 0 with
    | some found =>
      if groups = 0 then return digits ((found.lookup 0).elim 0 fun (_, stop) => stop)
      else return (Regex.part? matching found 1).getD ""
    | none => return if groups = 0 then "0" else ""

mutual

/-- A word, or what a word asks for. -/
def primary : Nat → Walking String
  | 0 => wrong 2 "syntax error"
  | bound + 1 => do
    match (← get).1 with
    | "(" :: _ =>
      discard next
      let value ← level bound 0
      if ← takes ")" then return value
      else match (← get).1 with
        | [] => wrong 2 ("syntax error: expecting ')' after " ++ quoted (← get).2)
        | word :: _ => wrong 2 ("syntax error: expecting ')' instead of " ++ quoted word)
    | ")" :: _ => wrong 2 "syntax error: unexpected ')'"
    | "+" :: _ =>
      discard next
      next
    | "length" :: _ =>
      discard next
      return digits (← primary bound).length
    | "match" :: _ =>
      discard next
      let text ← primary bound
      matched text (← primary bound)
    | "index" :: _ =>
      discard next
      let text ← primary bound
      let chars ← primary bound
      return digits ((text.toList.findIdx? fun c => chars.toList.contains c).elim 0 (· + 1))
    | "substr" :: _ =>
      discard next
      let text ← primary bound
      let start ← primary bound
      let count ← primary bound
      match integer? start, integer? count with
      | some start, some count =>
        if start ≤ 0 || count ≤ 0 then return ""
        else return String.ofList ((text.toList.drop (start.toNat - 1)).take count.toNat)
      | _, _ => return ""
    | _ => next

/-- Matches one after another. -/
def matching : Nat → String → Walking String
  | 0, _ => wrong 2 "syntax error"
  | bound + 1, first => do
    if ← takes ":" then
      let pattern ← primary bound
      matching bound (← matched first pattern)
    else return first

/-- An expression whose operators bind at least as much as a level asks for. -/
def level : Nat → Nat → Walking String
  | 0, _ => wrong 2 "syntax error"
  | bound + 1, depth => do
    if depth = 5 then
      let first ← primary bound
      matching bound first
    else
      let first ← level bound (depth + 1)
      chain bound depth first

/-- Goes on with operators of a level. -/
def chain : Nat → Nat → String → Walking String
  | 0, _, _ => wrong 2 "syntax error"
  | bound + 1, depth, first => do
    match depth with
    | 0 =>
      if ← takes "|" then
        let second ← level bound 1
        chain bound depth (if !isNull first then first else if isNull second then "0" else second)
      else return first
    | 1 =>
      if ← takes "&" then
        let second ← level bound 2
        chain bound depth (if isNull first || isNull second then "0" else first)
      else return first
    | 2 => compare bound first
    | 3 =>
      if ← takes "+" then
        let second ← level bound 4
        chain bound depth (integer ((← number first) + (← number second)))
      else if ← takes "-" then
        let second ← level bound 4
        chain bound depth (integer ((← number first) - (← number second)))
      else return first
    | _ =>
      if ← takes "*" then
        let second ← level bound 5
        chain bound depth (integer ((← number first) * (← number second)))
      else if ← takes "/" then
        let second ← level bound 5
        let a ← number first
        let b ← number second
        if b = 0 then wrong 2 "division by zero"
        chain bound depth (integer (Int.tdiv a b))
      else if ← takes "%" then
        let second ← level bound 5
        let a ← number first
        let b ← number second
        if b = 0 then wrong 2 "division by zero"
        chain bound depth (integer (Int.tmod a b))
      else return first

/-- Goes on with comparisons: of numbers, if both sides are numbers, and else of texts. -/
def compare : Nat → String → Walking String
  | 0, _ => wrong 2 "syntax error"
  | bound + 1, first => do
    match (← get).1 with
    | mark :: _ =>
      if ! ["<", "<=", "=", "==", "!=", ">=", ">"].contains mark then return first
      else
        discard next
        let second ← level bound 3
        let order : Ordering := match integer? first, integer? second with
          | some a, some b => compareOfLessAndEq a b
          | _, _ => compareOfLessAndEq first second
        let holds : Bool := match mark with
          | "<" => order = .lt
          | "<=" => order ≠ .gt
          | "=" | "==" => order = .eq
          | "!=" => order ≠ .eq
          | ">=" => order ≠ .lt
          | _ => order = .gt
        compare bound (if holds then "1" else "0")
    | [] => return first

end

/-- The value of words as an expression. -/
def value (words : List String) : Except (Nat × String) String := do
  let (value, rest, _) ← (level (20 * words.length + 20) 0).run (words, "")
  match rest with
  | [] => return value
  | word :: _ => throw (2, "syntax error: unexpected argument " ++ quoted word)

end Expression

/-- Writes the value of an expression. -/
def expr (arguments : List String) : Work Nat := do
  let words := match arguments with
    | "--" :: rest => rest
    | rest => rest
  if words.isEmpty then Work.misuse 2 "missing operand"
  match Expression.value words with
  | .error (status, message) => Work.fail status message
  | .ok value =>
    Work.put (value ++ "\n")
    return if Expression.isNull value then 1 else 0

end Pkgset.Tool

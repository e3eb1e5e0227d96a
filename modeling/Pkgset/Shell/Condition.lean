import Pkgset.Kernel.Activity
import Pkgset.Shell.Arithmetic

/-!
# Conditions

Conditions on texts, numbers and files. A condition with few words is understood by
their number, and a longer one by the precedence of its operators.
-/

namespace Pkgset.Shell.Condition
open Kernel

/-- What tests: it stops with a message if a condition has no meaning. -/
abbrev Testing := ExceptT String Act

/-! ## Files and numbers -/

/-- What is known of a file. -/
def inspect (follow : Bool) (path : String) : Act (Option Inode) := do
  match ← Act.call (Syscall.inspect · follow path) with
  | .ok (_, inode) => return some inode
  | .error _ => return none

/-- Whether a descriptor leads to a terminal, which none does. -/
def isTerminal (_ : String) : Bool := false

/-- Whether a file passes a test. -/
def file (mark : Char) (path : String) : Act Bool := do
  match ← inspect (mark != 'h' && mark != 'L') path with
  | none => return false
  | some inode =>
    let device := match inode.content with
      | .device _ => true
      | _ => false
    let channel := match inode.content with
      | .channel _ => true
      | _ => false
    return match mark with
      | 'e' | 'a' | 'r' | 'w' | 'O' | 'G' => true
      | 'f' => inode.isFile
      | 'd' => inode.isFolder
      | 'c' => device
      | 'p' => channel
      | 'h' | 'L' => inode.isLink
      | 's' => 0 < inode.size
      | 'x' => inode.isFolder || inode.isExecutable
      | 'u' => inode.mode &&& 0o4000 != 0
      | 'g' => inode.mode &&& 0o2000 != 0
      | 'k' => inode.mode &&& 0o1000 != 0
      | _ => false

/-- Whether one file has been changed later than another. A file that is not there may
    count as older than any other. -/
def isNewer (missingIsOld : Bool) (first second : String) : Act Bool := do
  match ← inspect true first, ← inspect true second with
  | some a, some b => return b.modified < a.modified
  | some _, none => return missingIsOld
  | _, _ => return false

/-- Whether two paths lead to the same file. -/
def isSame (first second : String) : Act Bool := do
  match ← Act.call (Syscall.inspect · true first), ← Act.call (Syscall.inspect · true second) with
  | .ok (a, _), .ok (b, _) => return a = b
  | _, _ => return false

/-- How the number in a text is read, with the message if there is none. -/
abbrev Numbers := String → Except String Int

/-- The comparisons of numbers. -/
def compare? (mark : String) : Option (Int → Int → Bool) :=
  match mark with
  | "-eq" => some fun a b => a = b
  | "-ne" => some fun a b => a ≠ b
  | "-gt" => some fun a b => a > b
  | "-ge" => some fun a b => a ≥ b
  | "-lt" => some fun a b => a < b
  | "-le" => some fun a b => a ≤ b
  | _ => none

/-- The marks of conditions on one text. -/
def unaryMarks : List String :=
  ["-r", "-w", "-x", "-e", "-f", "-d", "-c", "-b", "-p", "-u", "-g", "-k", "-s", "-t", "-z", "-n", "-h", "-O", "-G",
    "-L", "-S"]

/-- Whether one text passes a test. -/
def unary (mark text : String) : Act Bool :=
  match mark with
  | "-z" => return text.isEmpty
  | "-n" => return !text.isEmpty
  | "-t" => return isTerminal text
  | _ => file ((mark.toList.drop 1).headD ' ') text

/-- Whether two texts pass a test. -/
def binary (numbers : Numbers) (missingIsOld : Bool) (mark first second : String) : Testing Bool := do
  match compare? mark with
  | some compare =>
    let a ← ExceptT.mk (pure (numbers first))
    let b ← ExceptT.mk (pure (numbers second))
    return compare a b
  | none =>
    match mark with
    | "=" | "==" => return first = second
    | "!=" => return first ≠ second
    | "<" => return first < second
    | ">" => return second < first
    | "-nt" => ExceptT.lift (isNewer missingIsOld first second)
    | "-ot" => ExceptT.lift (isNewer missingIsOld second first)
    | _ => ExceptT.lift (isSame first second)

/-! ## Conditions of every shell -/

/-- What a word of a condition is. -/
inductive Kind where
  | ending | operand | unary | binary | not | and | or | opening | closing
  deriving DecidableEq

/-- The marks of conditions on two texts. -/
def binaryMarks : List String := ["=", "!=", "<", ">", "-eq", "-ne", "-ge", "-gt", "-le", "-lt", "-nt", "-ot", "-ef"]

/-- What a word by itself is. -/
def kindOf (word : String) : Kind :=
  if unaryMarks.contains word then .unary
  else if binaryMarks.contains word then .binary
  else match word with
    | "!" => .not
    | "-a" => .and
    | "-o" => .or
    | "(" => .opening
    | ")" => .closing
    | _ => .operand

/-- What the first of some words is. -/
def kind : List String → Kind
  | [] => .ending
  | word :: rest =>
    let isOperand := match rest with
      | [] => true
      | [_] => false
      | next :: _ => kindOf next = .binary
    let found := kindOf word
    if found = .unary && isOperand then .operand
    else if found = .opening && rest.isEmpty then .operand
    else found

/-- How far a condition has been read. -/
abbrev Walking := StateT (List String) Testing

/-- Stops at a word with a message. -/
def wrong {α : Type} (word message : String) : Walking α :=
  throw (if word = "" then message else word ++ ": " ++ message)

/-- Goes on by a number of words. -/
def advance (count : Nat) : Walking Unit := modify (·.drop count)

variable (numbers : Numbers)

mutual

/-- Conditions one of which has to hold. -/
def disjunction : Nat → Kind → Walking Bool
  | 0, _ => throw "too deep"
  | bound + 1, first => do
    let holds ← conjunction bound first
    if kind ((← get).drop 1) = .or then
      advance 2
      let more ← disjunction bound (kind (← get))
      return holds || more
    else return holds

/-- Conditions all of which have to hold. -/
def conjunction : Nat → Kind → Walking Bool
  | 0, _ => throw "too deep"
  | bound + 1, first => do
    let holds ← negation bound first
    if kind ((← get).drop 1) = .and then
      advance 2
      let more ← conjunction bound (kind (← get))
      return holds && more
    else return holds

/-- A condition that may have to fail. -/
def negation : Nat → Kind → Walking Bool
  | 0, _ => throw "too deep"
  | bound + 1, first => do
    if first != .not then primary bound first
    else
      let next := kind ((← get).drop 1)
      if next != .ending then advance 1
      return !(← negation bound next)

/-- A condition without others in it, or one in parentheses. -/
def primary : Nat → Kind → Walking Bool
  | 0, _ => throw "too deep"
  | bound + 1, first => do
    if first = .ending then return false
    else if first = .opening then
      advance 1
      let inner := kind (← get)
      if inner = .closing then return false
      let holds ← disjunction bound inner
      advance 1
      if kind (← get) != .closing then wrong "" "closing paren expected"
      return holds
    else if first = .unary then
      let mark := (← get).headD ""
      advance 1
      match ← get with
      | [] => wrong mark "argument expected"
      | text :: _ => unary mark text
    else
      match ← get with
      | text :: mark :: rest =>
        if kind (mark :: rest) = .binary then
          advance 2
          match rest with
          | [] => wrong mark "argument expected"
          | second :: _ => StateT.lift (binary numbers false mark text second)
        else return !text.isEmpty
      | [text] => return !text.isEmpty
      | [] => return false

end

/-- Whether words hold as a condition, which may have to fail. -/
def evaluate (fails : Bool) : List String → Testing Bool
  | [] => return fails
  | first :: others => do
    let words := first :: others
    let count := words.length
    let bound := 10 * count + 10
    let finish (words : List String) (first : Kind) : Testing Bool := do
      let (holds, rest) ← (disjunction numbers bound first).run words
      match rest with
      | last :: _ :: _ => throw ((if last = "" then "" else last ++ ": ") ++ "unexpected operator")
      | _ => return holds != fails
    let isBinary := count = 3 && kindOf (words[1]?.getD "") = .binary
    if isBinary then finish words .operand
    else if (count = 3 || count = 4) && first = "(" && words.getLast? = some ")" then
      let inner := (words.drop 1).dropLast
      finish inner (kind inner)
    else if (count = 3 || count = 4) && first = "!" then evaluate (!fails) others
    else finish words (kind words)

/-- The number in a text, as every shell reads it. -/
def shellNumber : Numbers := fun text =>
  match Arithmetic.number? 10 text with
  | some n => .ok n
  | none => .error ("Illegal number: " ++ text)

/-- Whether words hold as a condition of every shell. -/
def holds (words : List String) : Testing Bool := evaluate shellNumber false words

/-! ## Conditions by the number of words -/

/-- The number in a text, as other programs read it. -/
def strictNumber (message : String → String) : Numbers := fun text =>
  let chars := text.toList.dropWhile Arithmetic.isSpace
  match Arithmetic.leading? 10 chars with
  | some (n, rest) => if rest.all Arithmetic.isSpace then .ok n else .error (message text)
  | none => .error (message text)

/-- The words that the marks of a condition are known by. -/
structure Wording where
  number : String → String
  unaryExpected : String → String → String
  binaryExpected : String → String
  missing : String → String
  extra : String → String
  closing : String

variable (wording : Wording)

/-- Whether a word is a mark of a condition on two texts. -/
def joins (mark : String) : Bool := mark = "==" || binaryMarks.contains mark

/-- A condition on one text, or on its absence. -/
def one (text : String) : Testing Bool := return text ≠ ""

/-- A condition of two words. -/
def two (first second : String) : Testing Bool := do
  if first = "!" then return second = ""
  else if unaryMarks.contains first || first = "-a" || first = "-o" || first = "-N" || first = "-v" then
    ExceptT.lift (unary first second)
  else throw (wording.unaryExpected first second)

/-- A condition of three words. -/
def three (first mark second : String) : Testing Bool := do
  if joins mark then binary (strictNumber wording.number) true mark first second
  else if first = "!" then return !(← two wording mark second)
  else if first = "(" && second = ")" then one mark
  else if mark = "-a" then return (first ≠ "") && (second ≠ "")
  else if mark = "-o" then return (first ≠ "") || (second ≠ "")
  else throw (wording.binaryExpected mark)

mutual

/-- Alternatives in a condition of many words, and the words behind them. -/
def manyOr : Nat → List String → Testing (Bool × List String)
  | 0, _ => throw "too deep"
  | bound + 1, words => do
    let (holds, rest) ← manyAnd bound words
    match rest with
    | "-o" :: rest =>
      let (more, rest) ← manyOr bound rest
      return (holds || more, rest)
    | rest => return (holds, rest)

/-- Conditions that have to hold together, and the words behind them. -/
def manyAnd : Nat → List String → Testing (Bool × List String)
  | 0, _ => throw "too deep"
  | bound + 1, words => do
    let (holds, rest) ← manyOne bound words
    match rest with
    | "-a" :: rest =>
      let (more, rest) ← manyAnd bound rest
      return (holds && more, rest)
    | rest => return (holds, rest)

/-- One condition among many words, and the words behind it. -/
def manyOne : Nat → List String → Testing (Bool × List String)
  | 0, _ => throw "too deep"
  | bound + 1, words => do
    match words with
    | [] => throw (wording.missing "")
    | "!" :: rest =>
      let (holds, rest) ← manyOne bound rest
      return (!holds, rest)
    | "(" :: rest =>
      let (holds, rest) ← manyOr bound rest
      match rest with
      | ")" :: rest => return (holds, rest)
      | _ => throw wording.closing
    | first :: mark :: second :: rest =>
      if joins mark then return (← binary (strictNumber wording.number) true mark first second, rest)
      else if unaryMarks.contains first then return (← ExceptT.lift (unary first mark), second :: rest)
      else return (first ≠ "", mark :: second :: rest)
    | [first, second] =>
      if unaryMarks.contains first then return (← ExceptT.lift (unary first second), [])
      else return (first ≠ "", [second])
    | [first] => return (first ≠ "", [])

end

/-- Whether words hold as a condition that is understood by their number. -/
def counted (words : List String) : Testing Bool := do
  let many (words : List String) : Testing Bool := do
    let (holds, rest) ← manyOr wording (10 * words.length + 10) words
    match rest with
    | [] => return holds
    | word :: _ => throw (wording.extra word)
  match words with
  | [] => return false
  | [text] => one text
  | [first, second] => two wording first second
  | [first, mark, second] => three wording first mark second
  | ["!", first, mark, second] => return !(← three wording first mark second)
  | ["(", first, second, ")"] => two wording first second
  | words => many words

end Pkgset.Shell.Condition

import Pkgset.Text.Dict
import Pkgset.Text.Decimal

/-!
# Arithmetic

Expressions over integers of 64 bits. A comparison is one if it holds and zero else.
Only what decides the value is evaluated, and assignments count from then on.
-/

namespace Pkgset.Shell.Arithmetic

/-- How an expression breaks the rules. -/
inductive Fault where
  | operandExpected
  /-- A part of a choice is missing. -/
  | partExpected
  | closingExpected
  | colonExpected
  | endExpected
  /-- Something is assigned to what is no variable. -/
  | notVariable
  | unknownOperator
  /-- A digit is too great for its base. -/
  | tooGreat
  | badBase
  | badNumber
  | badPlace
  | negativeExponent
  deriving DecidableEq, Repr

/-- Why an expression has no value. What breaks the rules or divides by zero is known by
    how many tokens are left from there on. -/
inductive Trouble where
  | wrong (fault : Fault) (left : Nat)
  /-- The value of a variable is no number. -/
  | notNumber (text : String)
  | zeroDivisor (left : Nat)
  /-- A quotient does not fit. -/
  | overflow
  | tooDeep
  /-- The value of a variable has no value as an expression. -/
  | inside (text : String) (trouble : Trouble)
  deriving DecidableEq, Repr

/-- What every shell says of a fault. -/
def Fault.message : Fault → String
  | .closingExpected => "expecting ')'"
  | .colonExpected => "expecting ':'"
  | .endExpected => "expecting EOF"
  | _ => "expecting primary"

/-- What a rich shell says of a fault. -/
def Fault.richMessage : Fault → String
  | .operandExpected => "syntax error: operand expected"
  | .partExpected => "expression expected"
  | .closingExpected => "missing \x60)'"
  | .colonExpected => "\x60:' expected for conditional expression"
  | .endExpected => "syntax error in expression"
  | .notVariable => "attempted assignment to non-variable"
  | .unknownOperator => "syntax error: invalid arithmetic operator"
  | .tooGreat => "value too great for base"
  | .badBase => "invalid arithmetic base"
  | .badNumber => "invalid number"
  | .badPlace => "bad array subscript"
  | .negativeExponent => "exponent less than 0"

/-- An expression. -/
inductive Expression where
  | number (n : Int)
  /-- A variable, or the element of one at a place. -/
  | name (name : String) (place : Option String)
  | unary (mark : String) (operand : Expression)
  /-- Two operands, and how many tokens are left from the second one on. -/
  | binary (mark : String) (first second : Expression) (left : Nat)
  /-- A choice between two expressions. -/
  | choice (condition first second : Expression)
  /-- A variable gets a value, perhaps computed from its old one. -/
  | assign (mark : String) (name : String) (place : Option String) (value : Expression)
  /-- A variable is changed by one, before it is used or after. -/
  | step (by_ : Int) (before : Bool) (name : String) (place : Option String)

/-- An integer in 64 bits. -/
def wrap (n : Int) : Int := n.bmod (Nat.pow 2 64)

/-- The greatest integer of 64 bits. -/
def greatest : Int := 9223372036854775807

/-- An integer, or the nearest one of 64 bits. -/
def saturate (n : Int) : Int := max (-greatest - 1) (min greatest n)

/-- The value of a digit. In a base above 36 great letters are worth more than small ones. -/
def digit? (base : Nat) (c : Char) : Option Nat :=
  let value? :=
    if c.isDigit then some (c.toNat - '0'.toNat)
    else if 'a' ≤ c ∧ c ≤ 'z' then some (c.toNat - 'a'.toNat + 10)
    else if 'A' ≤ c ∧ c ≤ 'Z' then some (c.toNat - 'A'.toNat + (if 36 < base then 36 else 10))
    else if c = '@' then some 62
    else if c = '_' then some 63
    else none
  value?.filter (· < base)

/-- The number that the digits in front of a text stand for, and what follows them. -/
def digits (base : Nat) (text : List Char) : Nat × List Char :=
  let found := text.takeWhile fun c => (digit? base c).isSome
  (found.foldl (fun n c => base * n + (digit? base c).getD 0) 0, text.drop found.length)

/-- The base of a number, from the way it starts, and its digits. -/
def prefixed (text : List Char) : Nat × List Char :=
  match text with
  | '0' :: x :: c :: rest => if (x = 'x' || x = 'X') && (digit? 16 c).isSome then (16, c :: rest) else (8, text)
  | '0' :: _ => (8, text)
  | _ => (10, text)

/-- The blanks of numbers. -/
def isSpace (c : Char) : Bool := c = ' ' || (9 ≤ c.toNat && c.toNat ≤ 13)

/-- The number in front of a text and what follows it, with blanks and a sign allowed
    before it; none if there are no digits. A base of zero is told by the digits. -/
def leading? (base : Nat) (text : List Char) : Option (Int × List Char) :=
  let text := text.dropWhile isSpace
  let (sign, text) : Int × List Char := match text with
    | '-' :: rest => (-1, rest)
    | '+' :: rest => (1, rest)
    | rest => (1, rest)
  let (base, text) := if base = 0 then prefixed text else (base, text)
  if text.head?.any fun c => (digit? base c).isSome then
    let (n, rest) := digits base text
    some (sign * n, rest)
  else none

/-- The value of a text as a number; a blank text counts as zero if its base is told
    by its digits. -/
def number? (base : Nat) (text : String) : Option Int :=
  let chars := text.toList
  let blankRest (rest : List Char) : Bool := rest.all isSpace
  match leading? base chars with
  | some (n, rest) => if blankRest rest && saturate n = n then some n else none
  | none => if base = 0 && blankRest chars then some 0 else none

/-! ## Tokens -/

/-- A part of an expression. -/
inductive Token where
  | number (n : Int)
  | name (text : String) (place : Option String)
  | mark (text : String)
  /-- What is no token. -/
  | wrong (fault : Fault)
  deriving DecidableEq, Repr

/-- The operators, a longer one before those that it starts with. -/
def marks (rich : Bool) : List String :=
  (if rich then ["++", "--", "**", ","] else []) ++
  ["<<=", ">>=", "+=", "-=", "*=", "/=", "%=", "&=", "^=", "|=",
    "||", "&&", "==", "!=", "<=", ">=", "<<", ">>", "|", "^", "&", "<", ">", "+", "-", "*", "/", "%", "!", "~",
    "(", ")", "?", ":", "="]

/-- The text up to the bracket that closes one, and what follows it. -/
def placeText : Nat → List Char → List Char × List Char
  | _, [] => ([], [])
  | depth, ']' :: rest =>
    match depth with
    | 0 => ([], rest)
    | depth + 1 =>
      let (more, rest) := placeText depth rest
      (']' :: more, rest)
  | depth, c :: rest =>
    let (more, rest) := placeText (if c = '[' then depth + 1 else depth) rest
    (c :: more, rest)

/-- The number that a rich shell reads from some characters. -/
def richNumber (text : List Char) : Token :=
  let whole (base : Nat) (digitsText : List Char) : Token :=
    match digits base digitsText with
    | (n, []) => .number (wrap n)
    | _ => .wrong .tooGreat
  match text.dropWhile (· ≠ '#') with
  | '#' :: body =>
    let front := text.takeWhile (· ≠ '#')
    let (base, others) := digits 10 front
    if !others.isEmpty then .wrong .tooGreat
    else if front.head? = some '0' then .wrong .badNumber
    else if base < 2 || 64 < base then .wrong .badBase
    else whole base body
  | _ =>
    match text with
    | '0' :: x :: rest => if x = 'x' || x = 'X' then whole 16 rest else whole 8 (x :: rest)
    | _ => whole 10 text

/-- Cuts an expression into tokens, at most a number of them, each with the text from
    there on. What is no token ends them; to a plain shell it is the empty mark. -/
def placed (rich : Bool) : Nat → List Char → List (Token × List Char)
  | 0, _ => []
  | _, [] => []
  | bound + 1, c :: rest =>
    let text := c :: rest
    let inName (c : Char) : Bool := c.isAlphanum || c = '_'
    if c = ' ' || c = '\t' || c = '\n' then placed rich bound rest
    else if c.isDigit then
      if rich then
        let found := text.takeWhile fun c => inName c || c = '#' || c = '@'
        match richNumber found with
        | .wrong fault => [(.wrong fault, text)]
        | token => (token, text) :: placed rich bound (text.drop found.length)
      else
        let (base, digitsText) := prefixed text
        let (n, after) := digits base digitsText
        (.number (saturate n), text) :: placed rich bound after
    else if inName c then
      let name := String.ofList (text.takeWhile inName)
      match text.dropWhile inName with
      | '[' :: more =>
        if rich then
          let (place, after) := placeText 0 more
          if place.length = more.length || place.isEmpty then [(.wrong .badPlace, text)]
          else (.name name (some (String.ofList place)), text) :: placed rich bound after
        else (.name name none, text) :: placed rich bound ('[' :: more)
      | after => (.name name none, text) :: placed rich bound after
    else match (marks rich).find? fun mark => text.take mark.length = mark.toList with
      | some mark => (.mark mark, text) :: placed rich bound (text.drop mark.length)
      | none => [(if rich then .wrong .unknownOperator else .mark "", text)]

/-- The tokens of an expression. -/
def tokens (rich : Bool) (text : String) : List Token :=
  (placed rich (text.length + 1) text.toList).map (·.1)

/-- The rest of an expression from where some of its tokens are left; the last one counts
    as left when none is. -/
def restFrom (left : Nat) (text : String) : String :=
  let found := placed true (text.length + 1) text.toList
  (found[found.length - max left 1]?).elim "" fun (_, rest) => String.ofList rest

/-! ## Expressions -/

/-- What reads expressions from tokens. -/
abbrev Reading (α : Type) := StateT (List Token) (Except Trouble) α

/-- Stops at something that breaks the rules. -/
def refuse {α : Type} (fault : Fault) : Reading α := do throw (.wrong fault (← get).length)

/-- Takes a mark, if it comes next. -/
def takesMark (test : String → Bool) : Reading (Option String) := do
  match ← get with
  | .mark mark :: rest => if test mark then set rest; return some mark else return none
  | .wrong fault :: _ => refuse fault
  | _ => return none

/-- The operators with two operands that are always evaluated, from the loosest to the
    tightest. -/
def levels : List (List String) :=
  [["|"], ["^"], ["&"], ["==", "!="], ["<", ">", "<=", ">="], ["<<", ">>"], ["+", "-"], ["*", "/", "%"]]

/-- The operator of an assignment, without its equals sign. -/
def assigning? (mark : String) : Option String :=
  if mark = "=" then some ""
  else if mark.endsWith "=" && ["==", "!=", "<=", ">="].all (· != mark) then some (mark.dropEnd 1).toString
  else none

mutual

/-- Reads an operand. -/
def operand (rich : Bool) : Nat → Reading Expression
  | 0 => throw .tooDeep
  | bound + 1 => do
    match ← get with
    | .number n :: rest =>
      set rest
      return .number n
    | .name name place :: .mark mark :: rest =>
      if mark = "++" || mark = "--" then
        set rest
        return .step (if mark = "++" then 1 else -1) false name place
      else
        set (Token.mark mark :: rest)
        return .name name place
    | .name name place :: rest =>
      set rest
      return .name name place
    | .mark "++" :: .name name place :: rest =>
      set rest
      return .step 1 true name place
    | .mark "--" :: .name name place :: rest =>
      set rest
      return .step (-1) true name place
    | .mark "(" :: rest =>
      set rest
      let inner ← if rich then series rich bound else assignment rich bound
      match ← takesMark (· = ")") with
      | some _ => return inner
      | none => refuse .closingExpected
    | .mark mark :: rest =>
      if mark = "-" || mark = "+" || mark = "!" || mark = "~" then
        set rest
        return .unary mark (← operand rich bound)
      else if rich && (mark = "++" || mark = "--") then
        set rest
        let sign := (mark.take 1).toString
        return .unary sign (.unary sign (← operand rich bound))
      else refuse .operandExpected
    | .wrong .unknownOperator :: _ | [] => refuse .operandExpected
    | .wrong fault :: _ => refuse fault

/-- Reads an operand and the power that it is raised to. -/
def power (rich : Bool) : Nat → Reading Expression
  | 0 => throw .tooDeep
  | bound + 1 => do
    let first ← operand rich bound
    match ← takesMark (· = "**") with
    | some mark =>
      let second ← power rich bound
      return .binary mark first second (← get).length
    | none => return first

/-- Reads operands that operators of some levels join. -/
def joined (rich : Bool) : Nat → List (List String) → Reading Expression
  | 0, _ => throw .tooDeep
  | bound + 1, levels => do
    match levels with
    | [] => power rich bound
    | level :: tighter => joinedFrom rich bound level tighter (← joined rich bound tighter)

/-- Reads what operators of one level join to an operand. -/
def joinedFrom (rich : Bool) : Nat → List String → List (List String) → Expression → Reading Expression
  | 0, _, _, _ => throw .tooDeep
  | bound + 1, level, tighter, first => do
    match ← takesMark level.contains with
    | some mark =>
      let left := (← get).length
      let second ← joined rich bound tighter
      joinedFrom rich bound level tighter (.binary mark first second left)
    | none => return first

/-- Reads a conjunction. -/
def conjunction (rich : Bool) : Nat → Reading Expression
  | 0 => throw .tooDeep
  | bound + 1 => do
    let first ← joined rich bound levels
    match ← takesMark (· = "&&") with
    | some mark => return .binary mark first (← conjunction rich bound) 0
    | none => return first

/-- Reads a disjunction. -/
def disjunction (rich : Bool) : Nat → Reading Expression
  | 0 => throw .tooDeep
  | bound + 1 => do
    let first ← conjunction rich bound
    match ← takesMark (· = "||") with
    | some mark => return .binary mark first (← disjunction rich bound) 0
    | none => return first

/-- Reads an expression that may be a choice. -/
def choice (rich : Bool) : Nat → Reading Expression
  | 0 => throw .tooDeep
  | bound + 1 => do
    let condition ← disjunction rich bound
    match ← takesMark (· = "?") with
    | none => return condition
    | some _ =>
      let expects (tokens : List Token) : Reading Unit :=
        match tokens with
        | [] | .mark ":" :: _ => if rich then refuse .partExpected else return ()
        | _ => return ()
      expects (← get)
      let first ← if rich then series rich bound else assignment rich bound
      if (← takesMark (· = ":")).isNone then refuse .colonExpected
      expects (← get)
      return .choice condition first (← choice rich bound)

/-- Reads an expression that may be an assignment. -/
def assignment (rich : Bool) : Nat → Reading Expression
  | 0 => throw .tooDeep
  | bound + 1 => do
    match ← get with
    | .name name place :: .mark mark :: rest =>
      match assigning? mark with
      | some mark =>
        set rest
        return .assign mark name place (← assignment rich bound)
      | none => choice rich bound
    | _ =>
      let found ← choice rich bound
      match ← get with
      | .mark mark :: _ =>
        if rich && (assigning? mark).isSome then refuse .notVariable else return found
      | _ => return found

/-- Reads expressions that are evaluated one after another. -/
def series (rich : Bool) : Nat → Reading Expression
  | 0 => throw .tooDeep
  | bound + 1 => do
    let first ← assignment rich bound
    match ← takesMark (· = ",") with
    | some mark => return .binary mark first (← series rich bound) 0
    | none => return first

end

/-- The expression that a text is. A rich one may be empty. -/
def Expression.ofText (rich : Bool) (text : String) : Except Trouble Expression := do
  let found := tokens rich text
  if rich && found.isEmpty then return .number 0
  let bound := 20 * (found.length + 2)
  let (expression, rest) ← (if rich then series rich bound else assignment rich bound).run found
  match rest with
  | [] => return expression
  | .wrong fault :: _ => throw (.wrong fault rest.length)
  | _ => throw (.wrong .endExpected rest.length)

/-! ## Values -/

/-- One for what holds, and zero else. -/
def truth (holds : Bool) : Int := if holds then 1 else 0

/-- The bits of an integer. -/
def bits (n : Int) : Nat := (n % (Nat.pow 2 64 : Nat)).toNat

/-- The value of an operator with two operands. -/
def combine (mark : String) (a b : Int) (left : Nat) : Except Trouble Int :=
  match mark with
  | "|" => .ok (wrap (bits a ||| bits b : Nat))
  | "^" => .ok (wrap (bits a ^^^ bits b : Nat))
  | "&" => .ok (wrap (bits a &&& bits b : Nat))
  | "==" => .ok (truth (a = b))
  | "!=" => .ok (truth (a ≠ b))
  | "<" => .ok (truth (a < b))
  | ">" => .ok (truth (a > b))
  | "<=" => .ok (truth (a ≤ b))
  | ">=" => .ok (truth (a ≥ b))
  | "<<" => .ok (wrap (a * (Nat.pow 2 (bits b % 64) : Nat)))
  | ">>" => .ok (a.fdiv (Nat.pow 2 (bits b % 64) : Nat))
  | "+" => .ok (wrap (a + b))
  | "-" => .ok (wrap (a - b))
  | "*" => .ok (wrap (a * b))
  | "**" => if b < 0 then .error (.wrong .negativeExponent left) else .ok (wrap (Int.pow a b.toNat))
  | "/" => if b = 0 then .error (.zeroDivisor left) else if wrap (a.tdiv b) ≠ a.tdiv b then .error .overflow else .ok (a.tdiv b)
  | "%" => if b = 0 then .error (.zeroDivisor left) else if wrap (a.tdiv b) ≠ a.tdiv b then .error .overflow else .ok (a.tmod b)
  | _ => .ok b

/-- A variable, perhaps with the place of an element. -/
abbrev Slot := String × Option String

/-- What evaluates: it keeps the values that have been assigned, the latest first. -/
abbrev Evaluating := StateT (List (Slot × String)) (Except Trouble)

/-- The values of variables, and how their texts are read. -/
structure Setting where
  value : Slot → String
  rich : Bool

mutual

/-- The value of a variable. A rich one may be an expression itself. -/
def lookup (setting : Setting) : Nat → Slot → Evaluating Int
  | 0, _ => throw .tooDeep
  | bound + 1, slot => do
    let text := ((← get).lookup slot).getD (setting.value slot)
    match number? 0 text with
    | some n => return n
    | none =>
      if !setting.rich then throw (.notNumber text)
      else match Expression.ofText true text with
        | .error trouble => throw (.inside text trouble)
        | .ok expression =>
          try evaluate setting bound expression
          catch trouble =>
            match trouble with
            | .wrong _ _ | .zeroDivisor _ => throw (.inside text trouble)
            | other => throw other

/-- The value of an expression. -/
def evaluate (setting : Setting) : Nat → Expression → Evaluating Int
  | 0, _ => throw .tooDeep
  | bound + 1, expression => do
    let assign (slot : Slot) (n : Int) : Evaluating Unit :=
      modify fun assigned => (slot, String.ofList (Decimal.ofInt n)) :: assigned
    match expression with
    | .number n => return n
    | .name name place => lookup setting bound (name, place)
    | .unary mark inner =>
      let n ← evaluate setting bound inner
      match mark with
      | "-" => return wrap (-n)
      | "!" => return truth (n = 0)
      | "~" => return -n - 1
      | _ => return n
    | .binary "&&" first second _ =>
      if (← evaluate setting bound first) = 0 then return 0
      else return truth ((← evaluate setting bound second) ≠ 0)
    | .binary "||" first second _ =>
      if (← evaluate setting bound first) ≠ 0 then return 1
      else return truth ((← evaluate setting bound second) ≠ 0)
    | .binary mark first second left =>
      let a ← evaluate setting bound first
      let b ← evaluate setting bound second
      combine mark a b left
    | .choice condition first second =>
      if (← evaluate setting bound condition) ≠ 0 then evaluate setting bound first
      else evaluate setting bound second
    | .assign mark name place value =>
      let n ← evaluate setting bound value
      let n ← if mark = "" then pure n else do
        let old ← lookup setting bound (name, place)
        combine mark old n 0
      assign (name, place) n
      return n
    | .step change before name place =>
      let old ← lookup setting bound (name, place)
      assign (name, place) (wrap (old + change))
      return if before then wrap (old + change) else old

end

/-- How deep expressions are evaluated. -/
def depthLimit : Nat := 10000

/-- The value of a text as an expression, and the values that it assigns, in order. -/
def value (setting : Setting) (text : String) : Except Trouble (Int × List (Slot × String)) := do
  let expression ← Expression.ofText setting.rich text
  let (n, assigned) ← (evaluate setting depthLimit expression).run []
  return (n, assigned.reverse)

end Pkgset.Shell.Arithmetic

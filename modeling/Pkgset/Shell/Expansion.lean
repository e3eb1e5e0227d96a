import Pkgset.Kernel.Account
import Pkgset.Shell.Arithmetic
import Pkgset.Shell.Glob
import Pkgset.Shell.Parameter
import Pkgset.Shell.Reader

/-!
# Expansion

Parameters, the output of commands and the values of arithmetic expressions are put into
words. What is not quoted is then cut into fields, and the fields that are patterns
become the paths that they match. Values of several parameters are kept apart by a
character that no value has.
-/

namespace Pkgset.Shell
open Kernel

/-- Where a tilde stands for a home folder: nowhere, at the start of a word, or at the
    start of a value and of its parts between colons. -/
inductive Tilde where
  | never | start | value
  deriving DecidableEq

/-- What expansion asks of the commands in words: what one writes, and the path of a
    pipe to or from one. -/
structure Hooks where
  output : Command → Run String
  pipe : Command → Bool → Run String

namespace Expansion

/-- The character that keeps values apart. -/
def divider : Char := '\x00'

/-- The marks of a value, in which dividers keep several values apart. -/
def marksOf (quoted : Bool) (value : String) : List Mark :=
  let values := value.splitToList (· = divider)
  if values.length ≤ 1 then Mark.ofValue quoted value
  else if quoted then Mark.ofValues values
  else Mark.ofLoose values

/-- The home folder of a name; the empty name is that of the shell's user. -/
def home? (session : Session) (name : String) : Option String :=
  if name.isEmpty then session.text? "HOME" else (Account.find? name).map (·.home)

/-- The home folder that a word starts with, and the pieces behind it. -/
def tilde? (session : Session) (tilde : Tilde) (word : Word) : Option (List Mark × Word) :=
  match word with
  | .char '~' false :: rest =>
    let ends (c : Char) : Bool := c = '/' || (c = ':' && tilde = .value)
    let name := rest.takeWhile fun (piece : Piece) =>
      match piece with
      | .char c false => !ends c
      | _ => false
    let after := rest.drop name.length
    let closed := match after with
      | [] => true
      | .char c false :: _ => ends c
      | _ => false
    if tilde = .never || !closed then none
    else (home? session (String.ofList (Word.characters name))).map fun path => (Mark.ofValue true path, after)
  | _ => none

/-- What a rich shell says of trouble with an expression. -/
def richTrouble (text : String) : Arithmetic.Trouble → String
  | .inside inner trouble => richTrouble inner trouble
  | trouble =>
    let text := (text.dropWhile fun (c : Char) => c = ' ' || c = '\t' || c = '\n').toString
    let about (text message rest : String) : String :=
      text ++ ": " ++ message ++ " (error token is \"" ++ rest ++ "\")"
    match trouble with
    | .wrong fault left =>
      let rest := Arithmetic.restFrom left text
      if fault = .tooGreat || fault = .badBase || fault = .badNumber then
        let number := (rest.takeWhile fun (c : Char) => c.isAlphanum || c = '_' || c = '#' || c = '@').toString
        about ((text.dropEnd rest.length).toString ++ number) fault.richMessage number
      else about text fault.richMessage rest
    | .zeroDivisor left => about text "division by 0" (Arithmetic.restFrom left text)
    | .notNumber value => value
    | .overflow | .tooDeep => text ++ ": expression recursion level exceeded"
    | .inside inner _ => inner

/-- Stops at trouble with an arithmetic expression. -/
def troubled {α : Type} (text : String) (trouble : Arithmetic.Trouble) : Run α := do
  if (← get).isRich then Run.abandon (richTrouble text trouble)
  let about (message : String) : Run α :=
    Run.fail ("arithmetic expression: " ++ message ++ ": \"" ++ text ++ "\"")
  match trouble with
  | .wrong fault _ => about fault.message
  | .notNumber value => Run.fail ("Illegal number: " ++ value)
  | .zeroDivisor _ => about "division by zero"
  | .overflow =>
    Run.act (Act.change fun world id => world.signal id 8)
    throw .exit
  | .tooDeep | .inside _ _ => about "expression recursion level exceeded"

/-- The text of an element of a variable. -/
def slotText (session : Session) (slot : Arithmetic.Slot) : String :=
  match slot with
  | (name, none) => (session.parameter? name).getD ""
  | (name, some place) =>
    match session.value name with
    | .items items => ((Arithmetic.number? 0 place).bind (Session.item? items)).getD ""
    | .keyed items => (items.lookup place).getD ""
    | .text text => if place = "0" then text else ""
    | .unset => ""

/-- Sets an element of a variable, by its number or its key. -/
def assignPlace (name place : String) (number : Int) (text : String) : Run Unit := do
  let session ← get
  let old := (session.find? name).getD .fresh
  if old.readOnly then Run.refuseChange name
  let text := old.kept text
  match old.value with
  | .keyed items => modify (·.setVariable name { old with value := .keyed (Session.put items place text) })
  | value =>
    let items := value.toItems
    let size : Int := ((items.map fun (place, _) => place + 1).foldl max 0 : Nat)
    let place := if number < 0 then size + number else number
    if place < 0 then Run.abandon (name ++ "[" ++ decimal number ++ "]: bad array subscript")
    modify (·.setVariable name { old with value := .items (Value.withItem items place.toNat text) })

/-- The value of a text as an arithmetic expression. -/
def sum (text : String) : Run Int := do
  let session ← get
  match Arithmetic.value ⟨slotText session, session.isRich⟩ text with
  | .error trouble => troubled text trouble
  | .ok (n, assigned) =>
    for (slot, value) in assigned do
      match slot with
      | (name, none) => Run.assign name value
      | (name, some place) => assignPlace name place ((Arithmetic.number? 0 place).getD 0) value
    return n

/-- The case of a character changed. -/
def recased (upper : Bool) (c : Char) : Char := if upper then c.toUpper else c.toLower

/-- A text in which what a pattern matches is replaced, at most a number of times. -/
def replaced (pattern : Pattern) (word : List Char) (manner : Char) (text : List Char) : List Char :=
  let longestAt (rest : List Char) : Option Nat :=
    (List.range (rest.length + 1)).reverse.find? fun size => Pattern.accepts pattern (rest.take size)
  let rec go : Nat → List Char → List Char
    | 0, rest => rest
    | _, [] => []
    | bound + 1, c :: rest =>
      match longestAt (c :: rest) with
      | some (size + 1) =>
        let after := (c :: rest).drop (size + 1)
        word ++ (if manner = '/' then go bound after else after)
      | _ => c :: go bound rest
  match manner with
  | '#' =>
    match longestAt text with
    | some size => word ++ text.drop size
    | none => text
  | '%' =>
    match (List.range (text.length + 1)).find? fun size => Pattern.accepts pattern (text.drop size) with
    | some size => text.take size ++ word
    | none => text
  | _ => go (text.length + 1) text

/-- The characters that need no quotes. -/
def isSafe (c : Char) : Bool := c.isAlphanum || "_/.,:=@%+-^".toList.contains c

/-- A text with a backslash before every character that would mean something. -/
def backslashed (text : String) : String :=
  if text = "" then "''"
  else if text.any fun (c : Char) => c.toNat < 32 || c.toNat > 126 then
    let one (c : Char) : String :=
      match c with
      | '\n' => "\\n"
      | '\t' => "\\t"
      | '\'' => "\\'"
      | '\\' => "\\\\"
      | '\x1b' => "\\E"
      | '\x0d' => "\\r"
      | '\x07' => "\\a"
      | c =>
        if c.toNat < 32 || c.toNat > 126 then
          let octal := String.ofList (Nat.toDigits 8 c.toNat)
          "\\" ++ String.ofList (List.replicate (3 - octal.length) '0') ++ octal
        else c.toString
    "$'" ++ String.join (text.toList.map one) ++ "'"
  else
    String.join (text.toList.zipIdx.map fun (c, place) =>
      if isSafe c && !(place = 0 && c = '~') then c.toString
      else if (c = '#' || c = '~') && place ≠ 0 then c.toString
      else "\\" ++ c.toString)

/-- A text in single quotes, with a backslash before every quote in it. -/
def singleQuoted (text : String) : String :=
  "'" ++ String.join (text.toList.map fun c => if c = '\'' then "'\\''" else c.toString) ++ "'"

/-! ## Brace lists -/

/-- Cuts pieces at commas that no braces enclose, up to the brace that ends them. -/
def alternatives? : Nat → Nat → Word → List Word → Word → Option (List Word × Word)
  | 0, _, _, _, _ => none
  | _, _, _, _, [] => none
  | bound + 1, depth, current, found, piece :: rest =>
    match piece, depth with
    | .char '\x7d' false, 0 => some ((current.reverse :: found).reverse, rest)
    | .char ',' false, 0 => alternatives? bound 0 [] (current.reverse :: found) rest
    | .char '\x7b' false, _ => alternatives? bound (depth + 1) (piece :: current) found rest
    | .char '\x7d' false, depth + 1 => alternatives? bound depth (piece :: current) found rest
    | _, _ => alternatives? bound depth (piece :: current) found rest

/-- The texts of a sequence from one number or letter to another. -/
def sequence? (text : String) : Option (List String) := do
  let parts := (text.splitOn "..")
  let number? (part : String) : Option Int := if part = "" then none else
    if (part.toList.drop (if part.startsWith "-" then 1 else 0)).all Char.isDigit then Arithmetic.number? 10 part else none
  let (first, last, step) ← match parts with
    | [first, last] => some (first, last, "1")
    | [first, last, step] => some (first, last, step)
    | _ => none
  let step ← number? step
  let step := if step = 0 then 1 else step.natAbs
  let between (low high : Int) : List Int :=
    let count := (low - high).natAbs / step + 1
    (List.range count).map fun n =>
      let way : Int := (n * step : Nat)
      if low ≤ high then low + way else low - way
  match number? first, number? last with
  | some low, some high =>
    let width (part : String) : Nat :=
      let digits := if part.startsWith "-" then (part.drop 1).toString else part
      if digits.length > 1 && digits.startsWith "0" then part.length else 0
    let width := max (width first) (width last)
    some ((between low high).map fun n =>
      let digits := String.ofList (Decimal.digits n.natAbs)
      let sign := if n < 0 then "-" else ""
      sign ++ String.ofList (List.replicate (width - digits.length - sign.length) '0') ++ digits)
  | _, _ =>
    match first.toList, last.toList with
    | [low], [high] =>
      if low.isAlpha && high.isAlpha then
        some ((between low.toNat high.toNat).map fun n => (Char.ofNat n.toNat).toString)
      else none
    | _, _ => none

/-- The words that a word with lists in braces stands for. -/
def withBraces : Nat → Word → List Word
  | 0, word => [word]
  | _, [] => [[]]
  | bound + 1, piece :: rest =>
    match piece with
    | .char '\x7b' false =>
      match alternatives? (rest.length + 1) 0 [] [] rest with
      | none => (withBraces bound rest).map (piece :: ·)
      | some (parts, after) =>
        let tails := withBraces bound after
        match parts with
        | [only] =>
          match (Word.plain? only).bind sequence? with
          | some texts =>
            texts.flatMap fun text => tails.map fun tail => text.toList.map (Piece.char · false) ++ tail
          | none => (withBraces bound rest).map (piece :: ·)
        | parts => (parts.flatMap (withBraces bound)).flatMap fun part => tails.map fun tail => part ++ tail
    | _ => (withBraces bound rest).map (piece :: ·)

/-! ## Words -/

variable (hooks : Hooks)

mutual

/-- Expands a word. If values stay apart, the fields of several parameters do. -/
def expand : Nat → Tilde → Bool → Word → Run (List Mark)
  | 0, _, _, _ => throw .exhausted
  | bound + 1, tilde, apart, word => do
    match tilde? (← get) tilde word with
    | some (marks, rest) => return marks ++ (← expandRest bound tilde apart rest)
    | none => expandRest bound tilde apart word

/-- Expands what stands behind the start of a word. -/
def expandRest : Nat → Tilde → Bool → Word → Run (List Mark)
  | 0, _, _, _ => throw .exhausted
  | bound + 1, tilde, apart, word => do
    let run := word.takeWhile fun (piece : Piece) =>
      match piece with
      | .char c quoted => quoted || c != ':' || tilde != .value
      | _ => false
    let marks := run.filterMap fun (piece : Piece) =>
      match piece with
      | .char c quoted => some (if quoted then Mark.quoted c else .plain c)
      | _ => none
    match word.drop run.length with
    | [] => return marks
    | .char c _ :: rest => return marks ++ .plain c :: (← expand bound tilde apart rest)
    | .quotes :: .parameter "@" none .value true :: .quotes :: rest =>
      if apart && (← get).parameters.isEmpty then return marks ++ (← expandRest bound tilde apart rest)
      else
        let values ← piece bound apart (.parameter "@" none .value true)
        return marks ++ .quotes :: values ++ .quotes :: (← expandRest bound tilde apart rest)
    | first :: rest =>
      let found ← piece bound apart first
      return marks ++ found ++ (← expandRest bound tilde apart rest)

/-- Expands a piece. -/
def piece : Nat → Bool → Piece → Run (List Mark)
  | 0, _, _ => throw .exhausted
  | bound + 1, apart, found => do
    match found with
    | .char c quoted => return [if quoted then .quoted c else .plain c]
    | .quotes => return [.quotes]
    | .output command quoted => return Mark.ofValue quoted (← hooks.output command)
    | .sum expression quoted =>
      let n ← sum (Mark.text (← expand bound .never false expression))
      return Mark.ofValue quoted (decimal n)
    | .parameter name place use quoted => parameter bound apart name place use quoted
    | .items words =>
      return (← words.mapM fun word => expand bound .never false word).flatten
    | .pipe command fromCommand => return Mark.ofValue true (← hooks.pipe command fromCommand)

/-- The values of a parameter that stands for several, and whether they are kept apart
    even between quotes. -/
def values? : Nat → String → Option Word → Run (Option (List String × Bool))
  | 0, _, _ => throw .exhausted
  | _ + 1, name, place => do
    let session ← get
    match place.bind Word.plain?, name with
    | some "@", _ => return some (session.elements name, true)
    | some "*", _ => return some (session.elements name, false)
    | none, "@" => return some (session.parameters, true)
    | none, "*" => return some (session.parameters, false)
    | _, _ => return none

/-- The value of a parameter that is no list. -/
def single? : Nat → String → Option Word → Run (Option String)
  | 0, _, _ => throw .exhausted
  | bound + 1, name, place => do
    match place with
    | none => return (← get).parameter? name
    | some word =>
      let text := Mark.text (← expand bound .never false word)
      match (← get).value name with
      | .keyed items => return items.lookup text
      | .unset => return none
      | value =>
        let n ← sum text
        return Session.item? value.toItems n

/-- Expands a parameter. -/
def parameter : Nat → Bool → String → Option Word → Use → Bool → Run (List Mark)
  | 0, _, _, _, _, _ => throw .exhausted
  | bound + 1, apart, name, place, use, quoted => do
    if let .wrong := use then do
      if (← get).isRich then Run.abandon ("$\x7b" ++ name ++ "\x7d: bad substitution") else Run.fail "Bad substitution"
    if let .indirect inner := use then
      let target := (← single? bound name place).getD ""
      if !Reader.isName target && !(target.all fun (c : Char) => Reader.isSpecial c) then
        Run.abandon (name ++ ": invalid indirect expansion")
      return ← parameter bound apart target none inner quoted
    let session ← get
    let rich := session.isRich
    let several ← values? bound name place
    let join (values : List String) (keeps : Bool) : String :=
      let joint := if (keeps && quoted && apart) || (apart && !quoted) then divider.toString else session.joint
      joint.intercalate values
    let value? ← match several with
      | some (values, keeps) => pure (if values.isEmpty && rich then none else some (join values keeps))
      | none => single? bound name place
    let value := value?.getD ""
    let isSet (colon : Bool) : Bool := value?.any fun text => !(colon && text.isEmpty)
    let whole (text : String) : List Mark :=
      match several with
      | some ([], _) => []
      | some ([_], keeps) => if quoted && keeps && apart then .quotes :: marksOf quoted text else marksOf quoted text
      | _ => marksOf quoted text
    let demand : Run Unit := do
      if session.has 'u' && value?.isNone && several.isNone then
        Run.failWith (if rich then 127 else 2) (name ++ (if rich then ": unbound variable" else ": parameter not set"))
    let pattern (word : Word) : Run Pattern := do
      return Pattern.inStyle ⟨rich, session.offers "extglob"⟩ (Mark.field (← expand bound .start false word))
    let each (f : List Char → List Char) : List Mark :=
      let change (text : String) : String := String.ofList (f text.toList)
      match several with
      | some (values, keeps) =>
        if rich then whole (join (values.map change) keeps) else whole (change value)
      | none => whole (change value)
    match use with
    | .value =>
      demand
      return whole value
    | .length =>
      demand
      match several with
      | some (values, keeps) =>
        return Mark.ofValue quoted (decimal (if rich then values.length else
          ((if keeps then session.joint else session.joint).intercalate values).length))
      | none => return Mark.ofValue quoted (decimal value.length)
    | .orElse colon word =>
      if isSet colon then return whole value
      else return (if quoted then id else Mark.asResult) (← expand bound .start apart word)
    | .ifSet colon word =>
      if isSet colon then return (if quoted then id else Mark.asResult) (← expand bound .start apart word)
      else return []
    | .orAssign colon word =>
      if isSet colon then return whole value
      let text := Mark.text (← expand bound .start false word)
      if !Reader.isName name then
        if rich then Run.abandon ("$" ++ name ++ ": cannot assign in this way") else Run.fail (name ++ ": bad variable name")
      match place with
      | none => Run.assign name text
      | some word =>
        let key := Mark.text (← expand bound .never false word)
        let number ← match (← get).value name with
          | .keyed _ => pure 0
          | _ => sum key
        assignPlace name key number text
      return marksOf quoted text
    | .orFail colon word =>
      if isSet colon then return whole value
      let text := Mark.text (← expand bound .start false word)
      let message := if word.isEmpty then
          (if rich then "parameter null or not set" else "parameter not set" ++ (if colon then " or null" else ""))
        else text
      Run.failWith (if rich then 127 else 2) (name ++ ": " ++ message)
    | .trim atEnd longest word =>
      demand
      if value?.isNone then return whole ""
      let pattern ← pattern word
      return each (if atEnd then Pattern.trimEnd pattern longest else Pattern.trimStart pattern longest)
    | .replace manner word replacement =>
      demand
      let pattern ← pattern word
      let replacement := (Mark.text (← expand bound .start false replacement)).toList
      return each (replaced pattern replacement manner)
    | .recase upper entire word =>
      demand
      let pattern ← if word.isEmpty then pure [Element.anyChar] else pattern word
      let change (c : Char) : Char := if Pattern.accepts pattern [c] then recased upper c else c
      return each fun text =>
        if entire then text.map change
        else match text with
          | [] => []
          | c :: rest => change c :: rest
    | .part start length =>
      demand
      let start ← sum (Mark.text (← expand bound .never false start))
      let length ← match length with
        | none => pure none
        | some word => do pure (some (← sum (Mark.text (← expand bound .never false word))))
      let cut {α : Type} (all : List α) (base : Nat) : List α :=
        let size := all.length
        let from_ := if start < 0 then (size : Int) + start else start - base
        if from_ < 0 then []
        else
          let rest := all.drop from_.toNat
          match length with
          | none => rest
          | some n => if n < 0 then rest.take ((rest.length : Int) + n).toNat else rest.take n.toNat
      match several with
      | some (values, keeps) =>
        let all := if name = "@" || name = "*" then session.name :: values else values
        return whole (join (cut (if start ≤ 0 || place.isSome then all else all) 0) keeps)
      | none => return whole (String.ofList (cut value.toList 0))
    | .names joined =>
      let names := Glob.sorted ((session.bindings.map (·.1)).filter (·.startsWith name))
      return if quoted && joined then Mark.ofValue true (session.joint.intercalate names)
        else if quoted then Mark.ofValues names
        else Mark.ofLoose names
    | .places =>
      let places := session.places name
      return if quoted && place.bind Word.plain? = some "*" then Mark.ofValue true (session.joint.intercalate places)
        else if quoted then Mark.ofValues places
        else Mark.ofLoose places
    | .transform letter =>
      demand
      if value?.isNone && letter != 'a' then return []
      match letter with
      | 'Q' => return each fun text => (singleQuoted (String.ofList text)).toList
      | 'U' => return each (·.map (recased true))
      | 'L' => return each (·.map (recased false))
      | 'u' => return each fun text =>
          match text with
          | [] => []
          | c :: rest => recased true c :: rest
      | 'a' => return Mark.ofValue quoted ((session.find? name).elim "" Variable.letters)
      | 'A' =>
        let letters := (session.find? name).elim "" Variable.letters
        return Mark.ofValue quoted
          ((if letters = "" then "" else "declare -" ++ letters ++ " ") ++ name ++ "=" ++ singleQuoted value)
      | _ => return whole value
    | .wrong | .indirect _ => return []

end

/-- How deep words are expanded. -/
def depthLimit : Nat := 100000

/-- The text of a word that is not cut. -/
def text (tilde : Tilde) (word : Word) : Run String := return Mark.text (← expand hooks depthLimit tilde false word)

/-- The text of a word as a pattern or not. -/
def written (word : Word) : Run Field := return Mark.field (← expand hooks depthLimit .start false word)

/-- The fields of marks, with the paths that patterns match. -/
def fieldsOf (marks : List Mark) : Run (List String) := do
  let session ← get
  let fields := Mark.fields session.separators marks
  if session.has 'f' then return fields.map Field.text
  let groups := session.offers "extglob"
  let how : Glob.Manner := ⟨⟨session.isRich, groups⟩, session.offers "dotglob", session.offers "globskipdots",
    session.offers "nocaseglob", session.offers "globstar"⟩
  let found ← fields.mapM fun field => do
    if field.any fun (c, quoted) => !quoted && (c = '*' || c = '?' || c = '[' || (groups && c = '(')) then
      match ← Run.act (Act.look fun world id => Glob.paths how world id field) with
      | [] =>
        if !Pattern.isOpen (how.pattern field) then return [Field.text field]
        else if session.offers "failglob" then Run.abandon ("no match: " ++ Field.text field)
        else if session.offers "nullglob" then return []
        else return [Field.text field]
      | paths => return paths
    else return [Field.text field]
  return found.flatten

/-- The fields of a word. -/
def fields (word : Word) : Run (List String) := do
  let words := if (← get).isRich then withBraces (word.length + 1) word else [word]
  let found ← words.mapM fun word => do fieldsOf (← expand hooks depthLimit .start true word)
  return found.flatten

end Expansion
end Pkgset.Shell

import Pkgset.Digest.Sha512
import Pkgset.Digest.Short
import Pkgset.Tool.Intake

/-!
# Hashes and checksums of files

A hash is told together with the name of its file, and such lines can be read again to
check the files.
-/

namespace Pkgset.Tool
open Kernel

namespace Digest

/-- A hash function: how it is told in lines that name it, the number of its digits, and
    the hash of a message. -/
structure Method where
  title : String
  size : Nat
  hash : Bytes → String

/-- The hash functions by their names. -/
def methods : List (String × Method) := [
  ("md5", ⟨"MD5", 32, Pkgset.Digest.md5⟩), ("sha1", ⟨"SHA1", 40, Pkgset.Digest.sha1⟩),
  ("sha224", ⟨"SHA224", 56, Pkgset.Digest.sha224⟩), ("sha256", ⟨"SHA256", 64, Sha256.hex⟩),
  ("sha384", ⟨"SHA384", 96, Sha512.hexShort⟩), ("sha512", ⟨"SHA512", 128, Sha512.hex⟩)]

/-- The bytes of a file. -/
def contents (path : String) : Work (Except Cause Bytes) := do
  return (← Work.act (if path = "-" then Act.readAll 0 else Act.readFile path)).map ByteArray.toList

/-- A name in which the ends of lines and backslashes are escaped. -/
def escaped (name : String) : String :=
  String.join (name.toList.map fun c =>
    if c = '\\' then "\\\\" else if c = '\n' then "\\n" else if c = '\r' then "\\r" else c.toString)

/-- A name whose escapes have been replaced. -/
def unescaped : List Char → List Char
  | '\\' :: '\\' :: rest => '\\' :: unescaped rest
  | '\\' :: 'n' :: rest => '\n' :: unescaped rest
  | '\\' :: 'r' :: rest => '\r' :: unescaped rest
  | c :: rest => c :: unescaped rest
  | [] => []

/-- The line that tells the hash of a file. -/
def line (method : Method) (tagged binary ended : Bool) (hash name : String) : String :=
  let shown := if ended then escaped name else name
  let front := if shown = name then "" else "\\"
  let ending := if ended then "\n" else "\x00"
  front ++ (if tagged then method.title ++ " (" ++ shown ++ ") = " ++ hash
    else hash ++ (if binary then " *" else "  ") ++ shown) ++ ending

/-- What a line tells: the hash and the name of a file. -/
def told? (method : Method) (text : List Char) : Option (String × String) := do
  let (isEscaped, text) := match text with
    | '\\' :: rest => (true, rest)
    | rest => (false, rest)
  let nameOf (name : List Char) : String := String.ofList (if isEscaped then unescaped name else name)
  let front := (method.title ++ " (").toList
  if front.isPrefixOf text then
    let rest := text.drop front.length
    let hash := rest.drop (rest.length - method.size)
    let name := rest.take (rest.length - method.size)
    let ending := ") = ".toList
    if ending.isSuffixOf name && isHash hash then
      return (String.ofList hash, nameOf (name.take (name.length - ending.length)))
    else none
  else
    let hash := text.take method.size
    if !isHash hash then none
    match text.drop method.size with
    | ' ' :: ' ' :: c :: name => return (String.ofList hash, nameOf (c :: name))
    | ' ' :: '*' :: c :: name => return (String.ofList hash, nameOf (c :: name))
    | ' ' :: c :: name => return (String.ofList hash, nameOf (c :: name))
    | _ => none
where
  /-- Whether characters are the digits of a hash. -/
  isHash (digits : List Char) : Bool :=
    decide (digits.length = method.size) && digits.all fun c => (Bytes.hexValue? c).isSome

/-- How much is told while files are checked. -/
structure Report where
  silent : Bool
  quiet : Bool
  warns : Bool
  strict : Bool
  skipsMissing : Bool

/-- What has come out of checking files. -/
structure Tally where
  formatted : Nat
  misformatted : Nat
  matching : Nat
  different : Nat
  unread : Nat

/-- Says how many things of a kind there are, if there are any. -/
def warnOf (count : Nat) (one many : String) : Work Unit := do
  if 0 < count then Work.warn ("WARNING: " ++ digits count ++ " " ++ (if count = 1 then one else many))

/-- Checks the file that a line tells. -/
def checkLine (method : Method) (report : Report) (list : String) (tally : Tally) (text : List Char) (number : Nat) :
    Work Tally := do
  if text.isEmpty || text.head? = some '#' then return tally
  match told? method text with
  | none =>
    if report.warns then
      Work.warn (list ++ ": " ++ digits number ++ ": improperly formatted " ++ method.title ++ " checksum line")
    return { tally with misformatted := tally.misformatted + 1 }
  | some (hash, name) =>
    let tally := { tally with formatted := tally.formatted + 1 }
    let shown := if escaped name = name then name else "\\" ++ escaped name
    match ← contents name with
    | .error cause =>
      if cause = .notFound && report.skipsMissing then return tally
      Work.warn (about name cause)
      if !report.silent then Work.put (shown ++ ": FAILED open or read\n")
      return { tally with unread := tally.unread + 1 }
    | .ok bytes =>
      let isSame : Bool := decide (method.hash bytes = String.ofList (hash.toList.map Char.toLower))
      if !report.silent then
        if !isSame then Work.put (shown ++ ": FAILED\n")
        else if !report.quiet then Work.put (shown ++ ": OK\n")
      return if isSame then { tally with matching := tally.matching + 1 }
        else { tally with different := tally.different + 1 }

/-- Checks the files that a list tells. The function may depend on the list. -/
def check (methodOf : String → Method) (report : Report) (path : String) : Work Bool := do
  match ← Work.input path with
  | .error cause =>
    Work.warn (about path cause)
    return false
  | .ok text =>
    let list := if path = "-" then "'standard input'" else named path
    let method := methodOf text
    let mut tally : Tally := ⟨0, 0, 0, 0, 0⟩
    for (text, place) in (linesOf '\n' text.toList).zipIdx do
      tally ← checkLine method report list tally text (place + 1)
    if tally.formatted = 0 then
      Work.warn (list ++ ": no properly formatted checksum lines found")
      return false
    if !report.silent then
      warnOf tally.misformatted "line is improperly formatted" "lines are improperly formatted"
      warnOf tally.unread "listed file could not be read" "listed files could not be read"
      warnOf tally.different "computed checksum did NOT match" "computed checksums did NOT match"
      if report.skipsMissing && tally.matching = 0 then Work.warn (list ++ ": no file was verified")
    return tally.matching ≠ 0 && tally.different = 0 && tally.unread = 0 && (!report.strict || tally.misformatted = 0)

/-- The options of programs that tell hashes. -/
def choices : String :=
  "b/binary c/check t/text z/zero /tag /ignore-missing /quiet /status /strict w/warn"

/-- Does to some files what one has been asked for that hashes them. -/
def process (method : Method) (given : Given) (tagged binary : Bool) : Work Nat := do
  let paths := if given.operands.isEmpty then ["-"] else given.operands
  let checks := given.has "c"
  if checks then
    if given.has "tag" then Work.misuse 1 "the --tag option is meaningless when verifying checksums"
    if given.has "b" || given.has "t" then
      Work.misuse 1 "the --binary and --text options are meaningless when verifying checksums"
    let report : Report :=
      ⟨given.has "status", given.has "quiet", given.has "w", given.has "strict", given.has "ignore-missing"⟩
    let results ← paths.mapM (check (fun _ => method) report)
    return if results.all id then 0 else 1
  for (key, name) in [("ignore-missing", "ignore-missing"), ("status", "status"), ("w", "warn"), ("quiet", "quiet"),
      ("strict", "strict")] do
    if given.has key then
      Work.misuse 1 ("the --" ++ name ++ " option is meaningful only when verifying checksums")
  let mut status := 0
  for path in paths do
    match ← contents path with
    | .error cause =>
      Work.warn (about path cause)
      status := 1
    | .ok bytes => Work.put (line method tagged binary (!given.has "z") (method.hash bytes) path)
  return status

/-- Tells or checks hashes by a function. -/
def sum (name : String) (arguments : List String) : Work Nat := do
  let method := (methods.lookup name).getD ⟨"", 0, fun _ => ""⟩
  let given ← Work.options choices arguments
  let last := given.lastOf? ["b", "t", "tag"]
  if given.has "tag" && last = some "t" then Work.misuse 1 "--tag does not support --text mode"
  process method given (given.has "tag") (decide (given.lastOf? ["b", "t"] = some "b"))

end Digest

/-- Tells or checks the hashes MD5 of files. -/
def md5sum : List String → Work Nat := Digest.sum "md5"

/-- Tells or checks the hashes SHA-1 of files. -/
def sha1sum : List String → Work Nat := Digest.sum "sha1"

/-- Tells or checks the hashes SHA-224 of files. -/
def sha224sum : List String → Work Nat := Digest.sum "sha224"

/-- Tells or checks the hashes SHA-256 of files. -/
def sha256sum : List String → Work Nat := Digest.sum "sha256"

/-- Tells or checks the hashes SHA-384 of files. -/
def sha384sum : List String → Work Nat := Digest.sum "sha384"

/-- Tells or checks the hashes SHA-512 of files. -/
def sha512sum : List String → Work Nat := Digest.sum "sha512"

namespace Digest

/-- The function that a list of hashes has been made by, as far as its lines show it. -/
def methodOf (text : String) : Method :=
  let lines := linesOf '\n' text.toList
  ((methods.map (·.2)).find? fun method => lines.any fun line => (told? method line).isSome).getD
    ⟨"", 0, fun _ => ""⟩

/-- Tells a checksum of each file; the text has the number of bytes and the name behind it
    if that is told. -/
def eachSum (paths : List String) (text : Bytes → String) : Work Nat := do
  let mut status := 0
  for path in if paths.isEmpty then ["-"] else paths do
    match ← contents path with
    | .error cause =>
      Work.warn (about path cause)
      status := 1
    | .ok bytes => Work.put (text bytes ++ (if paths.isEmpty then "" else " " ++ path) ++ "\n")
  return status

/-- The rotating sum of a message with the number of its blocks of 1024 bytes. -/
def rotating (bytes : Bytes) : String :=
  let sum := digits (Pkgset.Digest.rotatingSum bytes)
  String.ofList (List.replicate (5 - sum.length) '0') ++ sum ++ " " ++ right 5 (digits ((bytes.length + 1023) / 1024))

/-- The folded sum of a message with the number of its blocks of 512 bytes. -/
def folded (bytes : Bytes) : String :=
  digits (Pkgset.Digest.foldedSum bytes) ++ " " ++ digits ((bytes.length + 511) / 512)

/-- The cyclic checksum of a message with the number of its bytes. -/
def cyclic (bytes : Bytes) : String := digits (Pkgset.Digest.cyclic bytes) ++ " " ++ digits bytes.length

end Digest

/-- Tells sums of the bytes of files. -/
def sum (arguments : List String) : Work Nat := do
  let given ← Work.options "r s/sysv" arguments
  Digest.eachSum given.operands (if given.lastOf? ["r", "s"] = some "s" then Digest.folded else Digest.rotating)

/-- Tells checksums or hashes of files. -/
def cksum (arguments : List String) : Work Nat := do
  let given ← Work.options (Digest.choices ++ " a/algorithm: /untagged /raw /base64 l/length: /debug") arguments
  match (given.last? "a").getD "crc" with
  | "crc" =>
    if given.has "c" then
      let paths := if given.operands.isEmpty then ["-"] else given.operands
      let report : Digest.Report :=
        ⟨given.has "status", given.has "quiet", given.has "w", given.has "strict", given.has "ignore-missing"⟩
      let results ← paths.mapM (Digest.check Digest.methodOf report)
      return if results.all id then 0 else 1
    else Digest.eachSum given.operands Digest.cyclic
  | "bsd" => Digest.eachSum given.operands Digest.rotating
  | "sysv" => Digest.eachSum given.operands Digest.folded
  | name =>
    match Digest.methods.lookup name with
    | some method => Digest.process method given (!given.has "untagged") false
    | none =>
      Work.warn ("invalid argument '" ++ name ++ "' for '--algorithm'")
      Work.complain ("Valid arguments are:\n" ++ String.join
        ((["bsd", "sysv", "crc"] ++ Digest.methods.map (·.1) ++ ["blake2b", "sm3"]).map fun name =>
          "  - '" ++ name ++ "'\n"))
      Work.advise 1

/-! ## Bytes as letters -/

namespace Digest

/-- A way to write bytes as characters: the characters, how many bits each stands for, and
    how many stand together. -/
structure Alphabet where
  characters : List Char
  bits : Nat
  group : Nat

/-- The alphabet of 64 characters. -/
def alphabet64 : Alphabet :=
  ⟨"ABCDEFGHIJKLMNOPQRSTUVWXYZabcdefghijklmnopqrstuvwxyz0123456789+/".toList, 6, 4⟩

/-- The alphabet of 32 characters. -/
def alphabet32 : Alphabet := ⟨"ABCDEFGHIJKLMNOPQRSTUVWXYZ234567".toList, 5, 8⟩

/-- The bits of a number, high ones first. -/
def bitsOf (count n : Nat) : List Bool := ((List.range count).map fun place => n.testBit place).reverse

/-- The number that bits are, high ones first. -/
def ofBits (bits : List Bool) : Nat := bits.foldl (fun n bit => 2 * n + bit.toNat) 0

/-- Cuts a list into parts of a size; the last one may be shorter. -/
def parts {α : Type} (size : Nat) : Nat → List α → List (List α)
  | 0, _ => []
  | _, [] => []
  | bound + 1, list => list.take size :: parts size bound (list.drop size)

/-- Bytes as characters, filled up to whole groups. -/
def encoded (alphabet : Alphabet) (bytes : Bytes) : List Char :=
  let bits := bytes.flatMap fun byte => bitsOf 8 byte.toNat
  let values := (parts alphabet.bits bits.length bits).map fun part =>
    ofBits (part ++ List.replicate (alphabet.bits - part.length) false)
  let found := values.map fun value => alphabet.characters.getD value '='
  found ++ List.replicate ((alphabet.group - found.length % alphabet.group) % alphabet.group) '='

/-- The bytes that groups of characters stand for, up to the first one that is wrong, and
    whether all are right. -/
def decoded (alphabet : Alphabet) : List (List Char) → Bytes × Bool
  | [] => ([], true)
  | group :: rest =>
    let body := group.takeWhile (· ≠ '=')
    let values := body.map fun c => alphabet.characters.idxOf c
    let size := alphabet.characters.length
    let known := values.takeWhile (· < size)
    let bits := known.flatMap (bitsOf alphabet.bits)
    let whole := bits.take (bits.length / 8 * 8)
    let bytes : Bytes := (parts 8 whole.length whole).map fun part => UInt8.ofNat (ofBits part)
    let isWhole : Bool := decide (group.length = alphabet.group) && (group.drop body.length).all (· = '=') &&
      decide (known.length = values.length) && decide (bits.length - whole.length < alphabet.bits) && !body.isEmpty
    if !isWhole then (bytes, false)
    else
      let (others, right) := decoded alphabet rest
      (bytes ++ others, right)

/-- Writes a file in an alphabet, or reads one that is. -/
def recode (alphabet : Alphabet) (arguments : List String) : Work Nat := do
  let given ← Work.options "d/decode i/ignore-garbage w/wrap:" arguments
  let width ← match given.last? "w" with
    | none => pure 76
    | some text =>
      match natural? text with
      | some n => pure n
      | none => Work.fail 1 ("invalid wrap size: " ++ quoted text)
  let path ← match given.operands with
    | [] => pure "-"
    | [path] => pure path
    | _ :: extra :: _ => Work.misuse 1 ("extra operand " ++ quoted extra)
  match ← contents path with
  | .error cause =>
    if cause = .isFolder then Work.fail 1 ("read error: " ++ cause.message) else Work.fail 1 (about path cause)
  | .ok bytes =>
    if given.has "d" then
      let text := bytes.map fun byte => Char.ofNat byte.toNat
      let isKept (c : Char) : Bool :=
        if given.has "i" then alphabet.characters.contains c || c = '=' else c ≠ '\n'
      let kept := text.filter isKept
      let (found, right) := decoded alphabet (parts alphabet.group (kept.length + 1) kept)
      Work.put (String.ofList (found.map fun byte => Char.ofNat byte.toNat))
      if right then return 0 else Work.fail 1 "invalid input"
    else
      let text := encoded alphabet bytes
      if width = 0 then Work.put (String.ofList text)
      else
        for part in parts width (text.length + 1) text do
          Work.put (String.ofList part ++ "\n")
      return 0

end Digest

/-- Writes files with 64 characters. -/
def base64 : List String → Work Nat := Digest.recode Digest.alphabet64

/-- Writes files with 32 characters. -/
def base32 : List String → Work Nat := Digest.recode Digest.alphabet32

end Pkgset.Tool

import Pkgset.Text.Decimal
import Pkgset.Text.Raw

/-!
# Archives of files

An archive is a row of blocks of 512 bytes: for each member one that describes it, and then
its content, filled up with zeros. Two blocks of zeros end it. What does not fit into the
description of a member is told by a member in front of it.
-/

namespace Pkgset.Archive

/-- What a member is. -/
inductive Kind where
  | file | folder
  | link (target : String)
  /-- Another name of a member. -/
  | twin (target : String)
  | channel
  deriving DecidableEq, Repr

/-- A member of an archive. The moment of its last change is told in seconds. -/
structure Member where
  path : String
  kind : Kind
  mode : Nat
  modified : Int
  content : ByteArray
  owner : String
  group : String

/-- The size of a block. -/
def blockSize : Nat := 512

/-- How many bytes are written at once. -/
def recordSize : Nat := 10240

/-! ## Writing -/

/-- A text that is filled up with zeros. -/
def field (width : Nat) (text : String) : List UInt8 :=
  let bytes := (Raw.toArray text).toList.take width
  bytes ++ List.replicate (width - bytes.length) 0

/-- A number in octal digits, with a zero behind it. -/
def octal (width n : Nat) : String :=
  let digits := Nat.toDigits 8 n
  String.ofList (List.replicate (width - 1 - digits.length) '0' ++ digits)

/-- The letter of what a member is. -/
def Kind.letter : Kind → Char
  | .file => '0'
  | .twin _ => '1'
  | .link _ => '2'
  | .folder => '5'
  | .channel => '6'

/-- What a member leads to. -/
def Kind.target : Kind → String
  | .link target | .twin target => target
  | _ => ""

/-- The block that describes something, with the sum of its bytes in it. -/
def header (path : String) (mode size modified : Nat) (letter : Char) (target owner group : String) : List UInt8 :=
  let front := field 100 path ++ field 8 (octal 8 mode) ++ field 8 (octal 8 0) ++ field 8 (octal 8 0) ++
    field 12 (octal 12 size) ++ field 12 (octal 12 modified)
  let back := field 1 letter.toString ++ field 100 target ++ field 8 "ustar  " ++ field 32 owner ++ field 32 group ++
    field 183 ""
  let sum := (front ++ back).foldl (fun sum byte => sum + byte.toNat) (8 * 32)
  front ++ field 8 (octal 7 sum ++ "\x00 ") ++ back

/-- A content that is filled up to whole blocks. -/
def filled (content : ByteArray) : ByteArray :=
  let missing := (blockSize - content.size % blockSize) % blockSize
  content ++ ⟨(List.replicate missing 0).toArray⟩

/-- Blocks that tell a text which is too long for a description. -/
def long (letter : Char) (text : String) : ByteArray :=
  if text.length ≤ 100 then ByteArray.empty
  else
    let content := Raw.toArray (text ++ "\x00")
    ⟨(header "././@LongLink" 0o644 content.size 0 letter "" "root" "root").toArray⟩ ++ filled content

/-- The blocks of a member. -/
def Member.blocks (member : Member) : ByteArray :=
  let content := if member.kind = .file then member.content else ByteArray.empty
  let target := member.kind.target
  long 'K' target ++ long 'L' member.path ++
    ⟨(header member.path member.mode content.size member.modified.toNat member.kind.letter target member.owner
      member.group).toArray⟩ ++ filled content

/-- The bytes of an archive. -/
def written (members : List Member) : ByteArray :=
  let body := members.foldl (fun bytes member => bytes ++ member.blocks) ByteArray.empty
  let size := (body.size + 2 * blockSize + recordSize - 1) / recordSize * recordSize
  body ++ ⟨(List.replicate (size - body.size) 0).toArray⟩

/-! ## Reading -/

/-- A part of a block as a text, up to the first zero. -/
def textAt (block : ByteArray) (place width : Nat) : String :=
  String.ofList ((Raw.ofArray (block.extract place (place + width))).toList.takeWhile (· ≠ '\x00'))

/-- A part of a block as a number in octal digits. -/
def numberAt (block : ByteArray) (place width : Nat) : Nat :=
  let digits := ((textAt block place width).toList.dropWhile (· = ' ')).takeWhile fun c => '0' ≤ c && c ≤ '7'
  digits.foldl (fun n c => 8 * n + (c.toNat - 48)) 0

/-- Whether a block describes something: the sum of its bytes is right. -/
def isHeader (block : ByteArray) : Bool :=
  let sum := block.toList.zipIdx.foldl (fun sum (byte, place) =>
    sum + (if 148 ≤ place && place < 156 then 32 else byte.toNat)) 0
  block.size = blockSize && numberAt block 148 8 = sum

/-- The entries of a description that is told in lines: a length, a blank, a name, an equals
    sign, and a value. -/
def entries : Nat → List Char → List (String × String)
  | 0, _ => []
  | bound + 1, text =>
    let digits := text.takeWhile Char.isDigit
    let size := Decimal.ofDigits digits
    if digits.isEmpty || size ≤ digits.length + 1 then []
    else
      let line := ((text.take size).drop (digits.length + 1)).dropLast
      let name := line.takeWhile (· ≠ '=')
      (String.ofList name, String.ofList (line.drop (name.length + 1))) :: entries bound (text.drop size)

/-- What members in front of another one have told of it. -/
structure Told where
  path : Option String
  target : Option String

/-- The members from a place on, within a number of blocks; nothing if a block that should
    describe something does not. -/
def membersFrom (bytes : ByteArray) : Nat → Nat → Told → Option (List Member)
  | 0, _, _ => some []
  | bound + 1, place, told =>
    let block := bytes.extract place (place + blockSize)
    if block.toList.all (· = 0) then some []
    else if !isHeader block then none
    else
      let size := numberAt block 124 12
      let content := bytes.extract (place + blockSize) (place + blockSize + size)
      let next := place + blockSize + (size + blockSize - 1) / blockSize * blockSize
      let letter := Char.ofNat (block.get! 156).toNat
      let text := String.ofList ((Raw.ofArray content).toList.takeWhile (· ≠ '\x00'))
      match letter with
      | 'L' => membersFrom bytes bound next { told with path := some text }
      | 'K' => membersFrom bytes bound next { told with target := some text }
      | 'x' =>
        let found := entries (content.size + 1) (Raw.ofArray content).toList
        membersFrom bytes bound next
          ⟨(found.lookup "path").or told.path, (found.lookup "linkpath").or told.target⟩
      | 'g' => membersFrom bytes bound next told
      | letter =>
        let isPlain : Bool := textAt block 257 8 = "ustar"
        let front := if isPlain then textAt block 345 155 else ""
        let name := textAt block 0 100
        let path := told.path.getD (if front = "" then name else front ++ "/" ++ name)
        let target := told.target.getD (textAt block 157 100)
        let kind : Kind := match letter with
          | '1' => .twin target
          | '2' => .link target
          | '5' => .folder
          | '6' => .channel
          | _ => if path.endsWith "/" then .folder else .file
        let member : Member := ⟨path, kind, numberAt block 100 8 % 4096, numberAt block 136 12,
          if kind = .file then content else ByteArray.empty, textAt block 265 32, textAt block 297 32⟩
        (membersFrom bytes bound (if kind = .file then next else place + blockSize) ⟨none, none⟩).map (member :: ·)

/-- The members of an archive; nothing if it is none. -/
def members? (bytes : ByteArray) : Option (List Member) :=
  if bytes.size < blockSize then none else membersFrom bytes (bytes.size / blockSize + 1) 0 ⟨none, none⟩

end Pkgset.Archive

import Pkgset.Bytes

/-!
# Raw texts

A raw text holds bytes: one character for each, the one whose code is the byte. Programs
pass raw texts around, because what they handle need not be the UTF-8 form of anything.
-/

namespace Pkgset

namespace Bytes

/-- How many bytes follow the first byte of a character, and the least and the greatest
    that the second byte may be. -/
def lead? (byte : UInt8) : Option (Nat × UInt8 × UInt8) :=
  if 0xC2 ≤ byte && byte ≤ 0xDF then some (1, 0x80, 0xBF)
  else if byte = 0xE0 then some (2, 0xA0, 0xBF)
  else if byte = 0xED then some (2, 0x80, 0x9F)
  else if 0xE1 ≤ byte && byte ≤ 0xEF then some (2, 0x80, 0xBF)
  else if byte = 0xF0 then some (3, 0x90, 0xBF)
  else if 0xF1 ≤ byte && byte ≤ 0xF3 then some (3, 0x80, 0xBF)
  else if byte = 0xF4 then some (3, 0x80, 0x8F)
  else none

/-- The character that stands for bytes that form none. -/
def unreadable : Char := '\ufffd'

/-- Whether a byte is the second or a later one of a character. -/
def isTail (byte : UInt8) : Bool := 0x80 ≤ byte && byte ≤ 0xBF

/-- The code point that a first byte and later ones stand for. -/
def codePoint (first : UInt8) (tails : List UInt8) : Char :=
  let bits := match tails.length with
    | 1 => first.toNat % 32
    | 2 => first.toNat % 16
    | _ => first.toNat % 8
  Char.ofNat (tails.foldl (fun n tail => 64 * n + tail.toNat % 64) bits)

/-- The first character of bytes, and how many bytes after the first belong to it. The
    longest start of a character that cannot go on is unreadable. -/
def firstCharacter (first : UInt8) (rest : Bytes) : Char × Nat :=
  if first < 0x80 then (Char.ofNat first.toNat, 0)
  else match lead? first, rest with
    | some (count, low, high), second :: others =>
      if second < low || high < second then (unreadable, 0)
      else
        let tails := second :: (others.take (count - 1)).takeWhile isTail
        if tails.length = count then (codePoint first tails, count) else (unreadable, tails.length)
    | _, _ => (unreadable, 0)

/-- The characters of bytes, with what is unreadable marked. -/
def characters : Bytes → List Char
  | [] => []
  | first :: rest =>
    let (c, more) := firstCharacter first rest
    c :: characters (rest.drop more)
termination_by bytes => bytes.length
decreasing_by simp only [List.length_cons, List.length_drop]; omega

/-- The text of bytes, with what is unreadable marked. -/
def toTextMarked (bytes : Bytes) : String := (toText? bytes).getD (String.ofList (characters bytes))

end Bytes

namespace Raw

/-- The raw text of bytes. -/
def ofArray (bytes : ByteArray) : String :=
  bytes.foldl (fun text byte => text.push (Char.ofNat byte.toNat)) ""

/-- The bytes of a raw text. -/
def toArray (raw : String) : ByteArray :=
  raw.foldl (fun bytes c => bytes.push (UInt8.ofNat c.toNat)) ByteArray.empty

/-- The raw text of a text. -/
def ofText (text : String) : String :=
  if text.all (fun (c : Char) => c.toNat < 0x80) then text else ofArray text.toUTF8

/-- The text that a raw text holds, with what is unreadable marked. -/
def toText (raw : String) : String :=
  if raw.all (fun (c : Char) => c.toNat < 0x80) then raw else Bytes.toTextMarked (toArray raw).toList

end Raw
end Pkgset

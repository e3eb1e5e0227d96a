import Pkgset.Tool.Work

/-!
# Permissions

Permissions are told by bits, or by changes in words: who gets what added, taken away
or set.
-/

namespace Pkgset.Tool
open Kernel

namespace Mode

/-- All bits of permissions. -/
def all : Nat := 0o7777

/-- What a change gives: fixed bits, the bits that some already have, or the right to run
    what is run by somebody or is a folder. -/
inductive Gift where
  | bits (bits : Nat)
  | same (bits : Nat)
  | run (bits : Nat)
  deriving DecidableEq, Repr

/-- A change: whom it affects, whether it sets, adds or takes away, what it gives, and the
    bits that it names. -/
structure Change where
  affected : Nat
  mark : Char
  gift : Gift
  named : Nat
  deriving DecidableEq, Repr

/-- The bits of the ones that a letter stands for. -/
def whoBits (c : Char) : Nat :=
  match c with
  | 'u' => 0o4700
  | 'g' => 0o2070
  | 'o' => 0o1007
  | _ => all

/-- The bits of the rights that letters stand for. -/
def rightBits (letters : List Char) : Nat :=
  letters.foldl (fun bits c => bits ||| (match c with
    | 'r' => 0o444
    | 'w' => 0o222
    | 'x' => 0o111
    | 's' => 0o6000
    | 't' => 0o1000
    | _ => 0)) 0

/-- The number of octal digits. -/
def octal (digits : List Char) : Nat := digits.foldl (fun n c => 8 * n + (c.toNat - 48)) 0

/-- Whether a character is an octal digit. -/
def isOctal (c : Char) : Bool := '0' ≤ c && c ≤ '7'

/-- Reads the operations on those that a change affects. -/
def operations : Nat → Nat → List Char → Option (List Change × List Char)
  | 0, _, _ => none
  | bound + 1, affected, mark :: rest =>
    if ! ['+', '-', '='].contains mark then none
    else
      let (change, rest) : Change × List Char := match rest with
        | 'u' :: rest => (⟨affected, mark, .same 0o700, 0⟩, rest)
        | 'g' :: rest => (⟨affected, mark, .same 0o070, 0⟩, rest)
        | 'o' :: rest => (⟨affected, mark, .same 0o007, 0⟩, rest)
        | rest =>
          let digits := rest.takeWhile isOctal
          if !digits.isEmpty && affected = 0 then (⟨all, mark, .bits (octal digits), all⟩, rest.drop digits.length)
          else
            let letters := rest.takeWhile ['r', 'w', 'x', 'X', 's', 't'].contains
            let bits := rightBits letters
            (⟨affected, mark, if letters.contains 'X' then .run bits else .bits bits, bits⟩, rest.drop letters.length)
      match rest with
      | c :: _ =>
        if ['+', '-', '='].contains c then
          (operations bound affected rest).map fun (more, rest) => (change :: more, rest)
        else some ([change], rest)
      | [] => some ([change], [])
  | _, _, [] => none

/-- Reads changes with commas between them. -/
def clauses : Nat → List Char → Option (List Change)
  | 0, _ => none
  | bound + 1, text => do
    let who := text.takeWhile ['u', 'g', 'o', 'a'].contains
    let affected := who.foldl (fun bits c => bits ||| whoBits c) 0
    let (found, rest) ← operations (text.length + 1) affected (text.drop who.length)
    match rest with
    | [] => some found
    | ',' :: rest => (clauses bound rest).map (found ++ ·)
    | _ => none

/-- The changes that a text asks for. -/
def ofText? (text : String) : Option (List Change) :=
  let chars := text.toList
  if !chars.isEmpty && chars.all isOctal then
    let bits := octal chars
    if all < bits then none
    else some [⟨all, '=', .bits bits, if chars.length < 5 then (bits &&& 0o6000) ||| 0o1777 else all⟩]
  else clauses (chars.length + 1) chars

/-- The bits that are not in others. -/
def without (bits others : Nat) : Nat := bits &&& (all ^^^ (others &&& all))

/-- The permissions after a change. -/
def change (isFolder : Bool) (mask mode : Nat) (change : Change) : Nat :=
  let omitted := if isFolder then without 0o6000 change.named else 0
  let spread (bits : Nat) : Nat :=
    (if bits &&& 0o444 != 0 then 0o444 else 0) ||| (if bits &&& 0o222 != 0 then 0o222 else 0) |||
      (if bits &&& 0o111 != 0 then 0o111 else 0)
  let value := match change.gift with
    | .bits bits => bits
    | .same bits => spread (mode &&& bits)
    | .run bits => if isFolder || mode &&& 0o111 != 0 then bits ||| 0o111 else bits
  let value := without (if change.affected = 0 then without value mask else value &&& change.affected) omitted
  match change.mark with
  | '=' =>
    let kept := (if change.affected = 0 then 0 else without all change.affected) ||| omitted
    (mode &&& kept) ||| value
  | '+' => mode ||| value
  | _ => without mode value

/-- The permissions after changes. -/
def apply (changes : List Change) (isFolder : Bool) (mask mode : Nat) : Nat :=
  changes.foldl (Mode.change isFolder mask) mode

/-- Permissions as letters. -/
def letters (mode : Nat) : String :=
  let one (bit : Nat) (c : Char) : Char := if mode &&& bit != 0 then c else '-'
  let run (bit special : Nat) (c : Char) : Char :=
    match mode &&& special != 0, mode &&& bit != 0 with
    | true, true => c
    | true, false => c.toUpper
    | false, true => 'x'
    | false, false => '-'
  String.ofList [one 0o400 'r', one 0o200 'w', run 0o100 0o4000 's', one 0o040 'r', one 0o020 'w', run 0o010 0o2000 's',
    one 0o004 'r', one 0o002 'w', run 0o001 0o1000 't']

/-- Permissions as octal digits, at least four of them. -/
def octalText (mode : Nat) : String :=
  let digits := Nat.toDigits 8 mode
  String.ofList (List.replicate (4 - digits.length) '0' ++ digits)

end Mode

/-- The permissions that new files do not get. -/
def Work.mask : Work Nat := Work.act (Act.look fun world id => (world.record? id).elim 0 (·.mask))

/-- What is known of a path. -/
def Work.inspect (follow : Bool) (path : String) : Work (Except Cause (InodeId × Inode)) :=
  Work.call (Syscall.inspect · follow path)

/-- The names in a folder, in their order. -/
def Work.entries (path : String) : Work (Except Cause (List String)) := do
  match ← Work.inspect true path with
  | .error cause => return .error cause
  | .ok (_, inode) =>
    if inode.isFolder then
      return .ok ((inode.entries.map (·.1)).mergeSort fun a b => !decide (b < a))
    else return .error .notFolder

/-- Whether a path leads to a folder. -/
def Work.isFolder (path : String) : Work Bool := do
  match ← Work.inspect true path with
  | .ok (_, inode) => return inode.isFolder
  | .error _ => return false

/-- A name in a folder. -/
def within (folder name : String) : String := if folder.endsWith "/" then folder ++ name else folder ++ "/" ++ name

end Pkgset.Tool

import Pkgset.Kernel.Activity
import Pkgset.Text.Raw

/-!
# Programs and the files that hold them

A file is run if somebody may run it and its content says how: it is the code of a
program, or its first line names the program that reads it.
-/

namespace Pkgset.Kernel

/-- What a program is started with: the path of its file, its arguments, the first of
    which is its own name, and the entries of its environment. -/
structure Image where
  path : String
  arguments : List String
  environment : List String

/-- The programs there are, by their names: each answers with a status. -/
abbrev Programs := String → Image → Act Nat

namespace Image

/-- The bytes that the code of a program starts with. -/
def codeMark : String := "\x7fELF"

/-- The content of the file of a program. -/
def code (name : String) : ByteArray := Raw.toArray (codeMark ++ name)

/-- The first line of a text. -/
def firstLine (text : String) : List Char := text.toList.takeWhile (· ≠ '\n')

/-- Whether a character separates the parts of a first line. -/
def isBlank (c : Char) : Bool := c = ' ' || c = '\t'

/-- The program that a first line names, and the one argument that it may have. -/
def interpreter? (line : List Char) : Option (String × List String) :=
  match line with
  | '#' :: '!' :: rest =>
    let rest := rest.dropWhile isBlank
    let path := rest.takeWhile (!isBlank ·)
    let argument := (((rest.drop path.length).dropWhile isBlank).reverse.dropWhile isBlank).reverse
    if path.isEmpty then none
    else some (String.ofList path, if argument.isEmpty then [] else [String.ofList argument])
  | _ => none

/-- The most files that are read to find the code of a program. -/
def interpreterLimit : Nat := 5

/-- The program that a file stands for and the arguments that it gets, within a number
    of files. -/
def identify (world : World) (id : ProcessId) : Nat → String → List String → Except Cause (String × List String)
  | 0, _, _ => .error .tooManyLinks
  | bound + 1, path, arguments => do
    let inode := world.inode (← world.find id true path)
    if !inode.isFile || !inode.isExecutable then throw .denied
    let line := Raw.ofArray (inode.bytes.extract 0 256)
    if line.startsWith codeMark then return (String.ofList ((firstLine line).drop codeMark.length), arguments)
    match interpreter? (firstLine line) with
    | some (interpreter, extra) => identify world id bound interpreter (interpreter :: extra ++ path :: arguments.tail)
    | none => throw .notExecutable

end Image

/-- Lets another program take the place of the one that runs. It comes back only with
    the cause of a failure. -/
def Act.replace (programs : Programs) (image : Image) : Act Cause := do
  match ← look fun world id => Image.identify world id Image.interpreterLimit image.path image.arguments with
  | .error cause => return cause
  | .ok (name, arguments) =>
    change World.renew
    finish (.exited (← programs name { image with arguments }))

/-- The shell that reads texts without a mark. -/
def Image.standardShell : String := "/bin/sh"

/-- Lets another program take the place of the one that runs. A text without a mark is
    read by the standard shell. -/
def Act.become (programs : Programs) (image : Image) : Act Cause := do
  match ← replace programs image with
  | .notExecutable =>
    replace programs
      { image with
        path := Image.standardShell
        arguments := Image.standardShell :: image.path :: image.arguments.drop 1 }
  | cause => return cause

end Pkgset.Kernel

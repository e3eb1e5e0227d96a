/-!
# The syntax of commands

Commands are simple commands, joined by operators and keywords. The words of simple
commands are made of pieces, some of which hold commands themselves. Texts that stand
after the line of a command are kept apart, and the command knows their numbers.
-/

namespace Pkgset.Shell

/-- The languages that a shell understands. -/
inductive Dialect where
  /-- The language of every shell. -/
  | plain
  /-- The plain language with lists, conditions, arithmetic commands and more uses of
      parameters. -/
  | rich
  deriving DecidableEq, Repr

mutual

/-- A part of a word. -/
inductive Piece where
  /-- A character. A quoted one stands for itself in patterns. -/
  | char (c : Char) (quoted : Bool)
  /-- A pair of quotes, which makes a field even if nothing is between them. -/
  | quotes
  /-- A parameter or, with a place, an element of one. -/
  | parameter (name : String) (place : Option (List Piece)) (use : Use) (quoted : Bool)
  /-- What a command writes. -/
  | output (command : Command) (quoted : Bool)
  /-- The value of an arithmetic expression. -/
  | sum (expression : List Piece) (quoted : Bool)
  /-- The elements of a list. -/
  | items (words : List (List Piece))
  /-- The path of a pipe to a command, or from one. -/
  | pipe (command : Command) (fromCommand : Bool)

/-- What a parameter stands for. A colon makes the empty value count as unset. -/
inductive Use where
  /-- Its value. -/
  | value
  /-- The number of bytes of its value. -/
  | length
  /-- Its value, or a word if it is unset. -/
  | orElse (colon : Bool) (word : List Piece)
  /-- Its value, or a word that becomes its value if it is unset. -/
  | orAssign (colon : Bool) (word : List Piece)
  /-- Its value, or an error if it is unset. -/
  | orFail (colon : Bool) (word : List Piece)
  /-- A word, unless it is unset. -/
  | ifSet (colon : Bool) (word : List Piece)
  /-- Its value without what a pattern matches at one end. -/
  | trim (atEnd longest : Bool) (pattern : List Piece)
  /-- A part of its value, from a place on and of a length. -/
  | part (start : List Piece) (length : Option (List Piece))
  /-- Its value with what a pattern matches replaced: everywhere, or once at any place,
      at the start or at the end. -/
  | replace (manner : Char) (pattern : List Piece) (word : List Piece)
  /-- Its value in another case, in full or the first character. -/
  | recase (upper whole : Bool) (pattern : List Piece)
  /-- The value of the parameter that its value names. -/
  | indirect (use : Use)
  /-- The names of the variables that start with its name. -/
  | names (joined : Bool)
  /-- The places of its elements. -/
  | places
  /-- Its value in another form. -/
  | transform (letter : Char)
  /-- Something that no shell understands. -/
  | wrong

/-- A change of a descriptor. -/
inductive Redirect where
  /-- It reads a file. -/
  | input (descriptor : Nat) (path : List Piece)
  /-- It writes a file in place of an earlier one, if it may. -/
  | write (descriptor : Nat) (force : Bool) (path : List Piece)
  /-- It writes at the end of a file. -/
  | append (descriptor : Nat) (path : List Piece)
  /-- It reads and writes a file. -/
  | update (descriptor : Nat) (path : List Piece)
  /-- It becomes a copy of another, or is closed. -/
  | copy (descriptor : Nat) (source : List Piece)
  /-- It reads a text after the line, known by its number. -/
  | text (descriptor : Nat) (number : Nat)
  /-- It reads a word and a line end. -/
  | line (descriptor : Nat) (word : List Piece)
  /-- The standard output and the standard error write a file. -/
  | writeBoth (atEnd : Bool) (path : List Piece)

/-- What follows a choice that was taken. -/
inductive After where
  /-- The end of the choices. -/
  | leave
  /-- The commands of the next choice. -/
  | enter
  /-- The patterns of the next choice. -/
  | goOn

/-- A condition in double brackets. -/
inductive Test where
  | word (word : List Piece)
  | unary (mark : String) (word : List Piece)
  | binary (mark : String) (first second : List Piece)
  | negation (test : Test)
  | both (first second : Test)
  | either (first second : Test)

/-- A command. Numbers of lines are counted from one. -/
inductive Command where
  /-- Nothing. -/
  | nothing
  /-- Assignments and the words of a command. -/
  | simple (line : Nat) (assignments words : List (List Piece)) (redirects : List Redirect)
  /-- One command after another. -/
  | sequence (first second : Command)
  /-- Commands each of which reads what the one before it writes. -/
  | pipeline (commands : List Command) (background : Bool)
  /-- A command whose success is failure. -/
  | negation (command : Command)
  /-- The second command runs if the first succeeds. -/
  | both (first second : Command)
  /-- The second command runs if the first fails. -/
  | either (first second : Command)
  /-- A command that is not waited for. -/
  | background (line : Nat) (command : Command) (redirects : List Redirect)
  /-- A command with descriptors of its own. -/
  | redirected (line : Nat) (command : Command) (redirects : List Redirect)
  /-- A command with variables of its own. -/
  | subshell (line : Nat) (command : Command) (redirects : List Redirect)
  /-- A choice by a condition. -/
  | branch (condition first second : Command)
  /-- A command that is repeated while a condition succeeds, or until it does. -/
  | loop (untilSuccess : Bool) (condition body : Command)
  /-- A command that is run for every one of some fields, or for every parameter. -/
  | each (line : Nat) (name : String) (words : Option (List (List Piece))) (body : Command)
  /-- A choice by the first pattern that a word matches. -/
  | select (line : Nat) (word : List Piece) (choices : List (List (List Piece) × Command × After))
  /-- The definition of a function. -/
  | define (line : Nat) (name : String) (body : Command)
  /-- A condition. -/
  | test (line : Nat) (test : Test)
  /-- An arithmetic expression that fails if it is zero. -/
  | sum (line : Nat) (expression : List Piece)
  /-- A loop with an arithmetic start, condition and step. -/
  | count (line : Nat) (start condition step : List Piece) (body : Command)

end

instance : Inhabited Command := ⟨.nothing⟩

/-- A word. -/
abbrev Word := List Piece

namespace Word

/-- The text of a word that holds nothing but characters that are not quoted. -/
def plain? (word : Word) : Option String :=
  (word.mapM fun (piece : Piece) =>
    match piece with
    | .char c false => some c
    | _ => none).map String.ofList

/-- The characters of a word, whatever else it holds. -/
def characters (word : Word) : List Char :=
  word.filterMap fun (piece : Piece) =>
    match piece with
    | .char c _ => some c
    | _ => none

/-- Whether some of a word is quoted. -/
def hasQuotes (word : Word) : Bool :=
  word.any fun (piece : Piece) =>
    match piece with
    | .char _ quoted => quoted
    | .quotes => true
    | _ => false

end Word
end Pkgset.Shell

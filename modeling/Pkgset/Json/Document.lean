import Pkgset.Json.Token

/-!
# What a JSON text says

A document keeps what a reader with a type in mind has to see: the order of
members and their repetitions, the difference between whole numbers and others,
and quoted texts that have no characters.
-/

namespace Pkgset.Json

/-- The structure of a JSON text. -/
inductive Document where
  | null
  | flag (value : Bool)
  | whole (negative : Bool) (size : Nat)
  | fraction
  | text (content : Option String)
  | list (items : List Document)
  | record (members : List (Option String × Document))

namespace Document

mutual

/-- The document that a list of tokens starts with, and the tokens after it. -/
def value? : Nat → List Token → Option (Document × List Token)
  | 0, _ => none
  | bound + 1, tokens =>
    match tokens with
    | .null :: rest => some (.null, rest)
    | .flag value :: rest => some (.flag value, rest)
    | .whole negative size :: rest => some (.whole negative size, rest)
    | .fraction :: rest => some (.fraction, rest)
    | .text content :: rest => some (.text content, rest)
    | .openBracket :: .closeBracket :: rest => some (.list [], rest)
    | .openBracket :: rest => do
      let (items, after) ← items? bound rest
      some (.list items, after)
    | .openBrace :: .closeBrace :: rest => some (.record [], rest)
    | .openBrace :: rest => do
      let (members, after) ← members? bound rest
      some (.record members, after)
    | _ => none

/-- Items with commas between them, up to the closing bracket. -/
def items? : Nat → List Token → Option (List Document × List Token)
  | 0, _ => none
  | bound + 1, tokens => do
    let (item, rest) ← value? bound tokens
    match rest with
    | .closeBracket :: after => some ([item], after)
    | .comma :: others => do
      let (items, after) ← items? bound others
      some (item :: items, after)
    | _ => none

/-- Members with commas between them, up to the closing brace. -/
def members? : Nat → List Token → Option (List (Option String × Document) × List Token)
  | 0, _ => none
  | bound + 1, tokens =>
    match tokens with
    | .text name :: .colon :: rest => do
      let (value, rest) ← value? bound rest
      match rest with
      | .closeBrace :: after => some ([(name, value)], after)
      | .comma :: others => do
        let (members, after) ← members? bound others
        some ((name, value) :: members, after)
      | _ => none
    | _ => none

end

/-- The document of a whole list of tokens. -/
def ofTokens? (tokens : List Token) : Option Document :=
  match value? (tokens.length + 1) tokens with
  | some (document, []) => some document
  | _ => none

/-- The document of a text. -/
def ofText? (text : String) : Option Document := do
  let tokens ← Token.ofText? text.toList
  ofTokens? tokens

/-! ## Readings by type -/

/-- The characters of a quoted text. -/
def text? : Document → Option String
  | .text content => content
  | _ => none

/-- A truth value. -/
def flag? : Document → Option Bool
  | .flag value => some value
  | _ => none

/-- A whole number below a limit, without a minus sign. -/
def natural? (limit : Nat) : Document → Option Nat
  | .whole false size => if size < limit then some size else none
  | _ => none

/-- A whole number of 32 bits. -/
def word32? (document : Document) : Option UInt32 := (natural? UInt32.size document).map UInt32.ofNat

/-- A whole number of 64 bits. -/
def word64? (document : Document) : Option UInt64 := (natural? UInt64.size document).map UInt64.ofNat

/-- A value that may be `null`. -/
def nullable? {α : Type} (read : Document → Option α) : Document → Option (Option α)
  | .null => some none
  | document => (read document).map some

/-- A list of texts. -/
def texts? : Document → Option (List String)
  | .list items => items.mapM text?
  | _ => none

/-- A table of texts; a later member replaces an earlier one of the same name. -/
def textTable? : Document → Option (Dict String)
  | .record members => do
    let entries ← members.mapM fun (name, value) => do
      let name ← name
      let value ← value.text?
      some (name, value)
    some (Dict.ofList entries)
  | _ => none

/-- The fields of a record as a document gives them: by name, or by position in a list. -/
inductive Fields where
  | named (found : List (Option Document))
  | placed (found : List (Option Document))

/-- The members of one name, in their order. -/
def membersNamed (name : String) (members : List (Option String × Document)) : List Document :=
  (members.filter fun member => member.1 == some name).map (·.2)

/-- The documents of the declared fields. A record may have further members, but a
    declared name only once; a list has at most one item for each field. -/
def fields? (declared : List String) : Document → Option Fields
  | .record members =>
    if members.all (·.1.isSome) && declared.all (fun name => (membersNamed name members).length ≤ 1) then
      some (.named (declared.map fun name => (membersNamed name members).head?))
    else none
  | .list items =>
    if items.length ≤ declared.length then
      some (.placed ((List.range declared.length).map fun place => items[place]?))
    else none
  | _ => none

namespace Fields

/-- What stands at the place of a field. -/
def at? : Fields → Nat → Option Document
  | .named found, place => (found[place]?).join
  | .placed found, place => (found[place]?).join

/-- A field that has to be there. -/
def required? {α : Type} (fields : Fields) (place : Nat) (read : Document → Option α) : Option α := do
  let document ← fields.at? place
  read document

/-- A field that may be `null`, and may be missing from a record. -/
def optional? {α : Type} (fields : Fields) (place : Nat) (read : Document → Option α) : Option (Option α) :=
  match fields, fields.at? place with
  | _, some document => nullable? read document
  | .named _, none => some none
  | .placed _, none => none

/-- A field that may be missing, and then has a default. -/
def withDefault? {α : Type} (fields : Fields) (place : Nat) (default : α) (read : Document → Option α) :
    Option α :=
  match fields.at? place with
  | some document => read document
  | none => some default

end Fields

/-- A variant without content: its name, or a record of its name and `null`. -/
def variant? : Document → Option String
  | .text content => content
  | .record [(some name, .null)] => some name
  | _ => none

end Document
end Pkgset.Json

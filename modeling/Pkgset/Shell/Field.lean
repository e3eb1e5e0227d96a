import Pkgset.Shell.Pattern

/-!
# Fields

An expanded word is a list of marks. Its fields are what is left when the results of
expansions are cut at separators.
-/

namespace Pkgset.Shell

/-- A part of an expanded word. -/
inductive Mark where
  /-- A character that was written. -/
  | plain (c : Char)
  /-- A character that was quoted. -/
  | quoted (c : Char)
  /-- A character that an expansion has put there. -/
  | result (c : Char)
  /-- A place where quotes were. -/
  | quotes
  /-- The end of one of several values, which is also the end of a field. -/
  | boundary
  /-- A place between values that counts as a blank. -/
  | gap
  deriving DecidableEq, Repr

/-- A field: characters, and whether each is quoted. -/
abbrev Field := List (Char × Bool)

/-- The text of a field. -/
def Field.text (field : Field) : String := String.ofList (field.map (·.1))

namespace Mark

/-- The characters of marks, without cutting them. -/
def field (marks : List Mark) : Field :=
  marks.filterMap fun mark =>
    match mark with
    | .plain c | .result c => some (c, false)
    | .quoted c => some (c, true)
    | .quotes => none
    | .boundary | .gap => some (' ', true)

/-- The text of marks, without cutting it. -/
def text (marks : List Mark) : String := Field.text (field marks)

/-- The marks of a value that stands in quotes or not. -/
def ofValue (quoted : Bool) (value : String) : List Mark :=
  value.toList.map (if quoted then .quoted else .result)

/-- The marks of several values, each of which is a field. -/
def ofValues (values : List String) : List Mark :=
  ((values.map fun value => .quotes :: ofValue true value).intersperse [.boundary]).flatten

/-- The marks of several values that are cut like others. -/
def ofLoose (values : List String) : List Mark :=
  ((values.map (ofValue false)).intersperse [.gap]).flatten

/-- The marks of a word that takes the place of a value. -/
def asResult (marks : List Mark) : List Mark :=
  marks.map fun mark =>
    match mark with
    | .plain c => .result c
    | other => other

/-- The blanks among separators. -/
def isBlank (c : Char) : Bool := c = ' ' || c = '\t' || c = '\n'

/-- How far marks have been cut: the fields so far in reverse, the field that is being
    read in reverse, and whether the last one has ended at a blank. -/
structure Cutting where
  done : List Field
  open? : Option Field
  afterBlank : Bool

namespace Cutting

/-- Goes on with the field that is being read. -/
def add (cutting : Cutting) (c : Char) (quoted : Bool) : Cutting :=
  { cutting with open? := some ((c, quoted) :: cutting.open?.getD []), afterBlank := false }

/-- Ends the field that is being read. -/
def close (cutting : Cutting) (afterBlank : Bool) : Cutting :=
  match cutting.open? with
  | some field => ⟨field.reverse :: cutting.done, none, afterBlank⟩
  | none => cutting

/-- Reads one mark. Blanks separate fields, and any other separator ends one, even
    an empty one unless a blank has just ended it. -/
def step (separators : List Char) (cutting : Cutting) : Mark → Cutting
  | .plain c => cutting.add c false
  | .quoted c => cutting.add c true
  | .quotes => { cutting with open? := some (cutting.open?.getD []), afterBlank := false }
  | .boundary => { cutting.close false with afterBlank := false }
  | .gap => cutting.close true
  | .result c =>
    if !separators.contains c then cutting.add c false
    else if isBlank c then cutting.close true
    else match cutting.open? with
      | some _ => cutting.close false
      | none =>
        if cutting.afterBlank then { cutting with afterBlank := false }
        else { cutting with done := [] :: cutting.done }

end Cutting

/-- The fields of marks. -/
def fields (separators : List Char) (marks : List Mark) : List Field :=
  ((marks.foldl (Cutting.step separators) ⟨[], none, false⟩).close false).done.reverse

end Mark
end Pkgset.Shell

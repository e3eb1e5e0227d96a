/-!
# Tables with text keys

A table is a list of entries in strictly ascending order of their keys, so two
tables with the same entries are equal and listing one lists its keys in order.
Text is compared by code point, which is the order of its UTF-8 bytes.
-/

namespace Pkgset

/-- A table from text to `α`: its entries in ascending order of their keys. -/
abbrev Dict (α : Type) := List (String × α)

namespace Dict
variable {α β : Type}

/-- The value stored under a key. -/
def get? : Dict α → String → Option α
  | [], _ => none
  | (key, value) :: rest, name => if name = key then some value else get? rest name

/-- Whether a key is present. -/
def contains (table : Dict α) (name : String) : Bool := (get? table name).isSome

/-- Stores a value under a key, in place of what the key had before. -/
def insert : Dict α → String → α → Dict α
  | [], name, value => [(name, value)]
  | (key, old) :: rest, name, value =>
    if name < key then (name, value) :: (key, old) :: rest
    else if name = key then (name, value) :: rest
    else (key, old) :: insert rest name value

/-- Storing a value changes what is stored under its key and nothing else. -/
theorem get?_insert (table : Dict α) (name key : String) (value : α) :
    get? (insert table name value) key = if key = name then some value else get? table key := by
  induction table with
  | nil => simp [insert, get?]
  | cons entry rest ih =>
    obtain ⟨first, old⟩ := entry
    by_cases before : name < first
    · simp [insert, get?, before]
    · by_cases same : name = first
      · subst same
        rw [insert, if_neg before, if_pos rfl]
        by_cases hit : key = name <;> simp [get?, hit]
      · by_cases hit : key = first
        · subst hit
          simp [insert, get?, before, same, Ne.symm same]
        · simp [insert, get?, before, same, hit, ih]

/-- Removes a key and its value. -/
def erase (table : Dict α) (name : String) : Dict α := table.filter (fun entry => entry.1 != name)

/-- The table of a list of entries; a later entry replaces an earlier one of the same key. -/
def ofList (entries : List (String × α)) : Dict α :=
  entries.foldl (fun table entry => insert table entry.1 entry.2) []

/-- The keys, in ascending order. -/
def keys (table : Dict α) : List String := table.map (·.1)

/-- The values, in the order of their keys. -/
def values (table : Dict α) : List α := table.map (·.2)

/-- Applies a function to every value. -/
def mapValues (f : α → β) (table : Dict α) : Dict β := table.map (fun entry => (entry.1, f entry.2))

/-- The keys of a table ascend strictly. -/
def Ascending (table : Dict α) : Prop := (keys table).Pairwise (· < ·)

end Dict

/-- Adds a text to a strictly ascending list of texts, unless it is there already. -/
def insertAscending (name : String) : List String → List String
  | [] => [name]
  | first :: rest =>
    if name < first then name :: first :: rest
    else if name = first then first :: rest
    else first :: insertAscending name rest

/-- The distinct texts of a list, in ascending order. -/
def ascending (names : List String) : List String := names.foldl (fun found name => insertAscending name found) []

end Pkgset

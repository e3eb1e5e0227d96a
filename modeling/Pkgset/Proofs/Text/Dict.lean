import Pkgset.Text.Dict
import Mathlib.Tactic.ByContra

/-!
# The keys of tables

A table that is made by storing values lists each of its keys once, and a key is listed
exactly when a value is stored under it.
-/

namespace Pkgset

/-- Of two different texts, one comes before the other. -/
theorem lt_of_not_lt {name other : String} (above : ¬ name < other) (apart : name ≠ other) : other < name := by
  by_contra below
  exact apart (String.le_antisymm (String.not_lt.mp below) (String.not_lt.mp above))

namespace Dict
variable {α : Type} {table : Dict α} {name : String}

theorem mem_of_get? {value : α} (found : get? table name = some value) : (name, value) ∈ table := by
  induction table with
  | nil => cases found
  | cons entry rest ih =>
    rw [get?] at found
    split at found
    next same =>
      cases found
      simp [same]
    next => exact List.mem_cons_of_mem _ (ih found)

theorem get?_erase (table : Dict α) (name key : String) :
    get? (erase table name) key = if key = name then none else get? table key := by
  induction table with
  | nil => simp [erase, get?]
  | cons entry rest ih =>
    obtain ⟨first, value⟩ := entry
    unfold erase at ih ⊢
    by_cases gone : first = name
    · rw [List.filter_cons_of_neg (by simp [gone]), ih, get?]
      split <;> simp_all
    · rw [List.filter_cons_of_pos (by simp [gone]), get?, get?, ih]
      split <;> simp_all

theorem mem_keys : name ∈ keys table ↔ (get? table name).isSome = true := by
  induction table with
  | nil => simp [keys, get?]
  | cons entry rest ih =>
    obtain ⟨key, value⟩ := entry
    by_cases same : name = key
    · simp [keys, get?, same]
    · simpa [keys, get?, same] using ih

theorem mem_keys_insert {other : String} {value : α} :
    other ∈ keys (insert table name value) ↔ other = name ∨ other ∈ keys table := by
  by_cases same : other = name <;> simp [mem_keys, get?_insert, same]

theorem mem_of_mem_insert {entry : String × α} {value : α} (member : entry ∈ insert table name value) :
    entry = (name, value) ∨ entry ∈ table := by
  induction table with
  | nil => exact Or.inl (List.mem_singleton.mp member)
  | cons first rest ih =>
    rw [insert] at member
    split at member
    · exact (List.mem_cons.mp member)
    · split at member
      · exact (List.mem_cons.mp member).imp_right fun later => List.mem_cons_of_mem _ later
      · rcases List.mem_cons.mp member with rfl | later
        · exact Or.inr List.mem_cons_self
        · exact (ih later).imp_right fun old => List.mem_cons_of_mem _ old

private theorem mem_of_mem_foldl {entries : List (String × α)} {entry : String × α}
    (member : entry ∈ entries.foldl (fun table entry => insert table entry.1 entry.2) table) :
    entry ∈ table ∨ entry ∈ entries := by
  induction entries generalizing table with
  | nil => exact Or.inl member
  | cons first rest ih =>
    rcases ih member with old | new
    · rcases mem_of_mem_insert old with rfl | old
      · exact Or.inr List.mem_cons_self
      · exact Or.inl old
    · exact Or.inr (List.mem_cons_of_mem _ new)

/-- What a table of a list holds is in the list. -/
theorem mem_of_mem_ofList {entries : List (String × α)} {entry : String × α} (member : entry ∈ ofList entries) :
    entry ∈ entries :=
  (mem_of_mem_foldl member).resolve_left List.not_mem_nil

/-- Storing a value keeps the keys in ascending order. -/
theorem Ascending.insert (ascends : table.Ascending) (name : String) (value : α) :
    (Dict.insert table name value).Ascending := by
  induction table with
  | nil => simp [Ascending, keys, Dict.insert]
  | cons entry rest ih =>
    obtain ⟨first, old⟩ := entry
    obtain ⟨least, ascendsRest⟩ := List.pairwise_cons.mp ascends
    by_cases before : name < first
    · rw [Dict.insert, if_pos before]
      refine List.pairwise_cons.mpr ⟨fun key member => ?_, ascends⟩
      rcases List.mem_cons.mp member with rfl | later
      · exact before
      · exact String.lt_trans before (least key later)
    · by_cases same : name = first
      · rw [Dict.insert, if_neg before, if_pos same, same]
        exact ascends
      · rw [Dict.insert, if_neg before, if_neg same]
        refine List.pairwise_cons.mpr ⟨fun key member => ?_, ih ascendsRest⟩
        rcases mem_keys_insert.mp member with rfl | later
        · exact lt_of_not_lt before same
        · exact least key later

/-- No key is listed twice. -/
theorem Ascending.nodup (ascends : table.Ascending) : (keys table).Nodup := by
  refine List.Pairwise.imp ?_ ascends
  rintro name other less rfl
  exact String.lt_irrefl name less

theorem get?_eq_none (absent : name ∉ keys table) : get? table name = none := by
  simpa [mem_keys] using absent

/-- What a table lists is found under its key. -/
theorem Ascending.get?_of_mem {value : α} (ascends : table.Ascending) (member : (name, value) ∈ table) :
    get? table name = some value := by
  induction table with
  | nil => cases member
  | cons entry rest ih =>
    obtain ⟨key, first⟩ := entry
    obtain ⟨least, ascendsRest⟩ := List.pairwise_cons.mp ascends
    rcases List.mem_cons.mp member with same | later
    · cases same
      simp [get?]
    · have other : name ≠ key := by
        rintro rfl
        exact String.lt_irrefl _ (least name (List.mem_map_of_mem later))
      rw [get?, if_neg other]
      exact ih ascendsRest later

private theorem Ascending.first_le {entry entry' : String × α} {rest rest' : Dict α}
    (ascends' : Ascending (entry' :: rest')) (same : ∀ name, get? (entry :: rest) name = get? (entry' :: rest') name) :
    ¬ entry.1 < entry'.1 := by
  intro before
  have found : get? (entry :: rest) entry.1 = some entry.2 := by simp [get?]
  rw [same, get?_eq_none] at found
  · cases found
  · intro member
    rcases List.mem_cons.mp member with alike | later
    · exact String.lt_irrefl _ (alike ▸ before)
    · exact String.lt_irrefl _ (String.lt_trans before ((List.pairwise_cons.mp ascends').1 _ later))

/-- Tables with the same entries are equal. -/
theorem Ascending.ext {other : Dict α} (ascends : table.Ascending) (ascends' : other.Ascending)
    (same : ∀ name, get? table name = get? other name) : table = other := by
  induction table generalizing other with
  | nil =>
    cases other with
    | nil => rfl
    | cons entry rest => simpa [get?] using same entry.1
  | cons entry rest ih =>
    cases other with
    | nil => simpa [get?] using same entry.1
    | cons entry' rest' =>
      obtain ⟨key, value⟩ := entry
      obtain ⟨key', value'⟩ := entry'
      have keys : key = key' := by
        by_contra apart
        exact ascends.first_le (fun name => (same name).symm) (lt_of_not_lt (ascends'.first_le same) apart)
      subst keys
      have values : value = value' := by simpa [get?] using same key
      obtain ⟨least, ascendsRest⟩ := List.pairwise_cons.mp ascends
      obtain ⟨least', ascendsRest'⟩ := List.pairwise_cons.mp ascends'
      rw [values, ih ascendsRest ascendsRest' fun name => ?_]
      by_cases first : name = key
      · rw [first, get?_eq_none fun later => String.lt_irrefl _ (least key later),
          get?_eq_none fun later => String.lt_irrefl _ (least' key later)]
      · simpa [get?, first] using same name

/-- A key after all others is stored at the end. -/
theorem insert_last {value : α} (after : ∀ key ∈ keys table, key < name) :
    insert table name value = table ++ [(name, value)] := by
  induction table with
  | nil => rfl
  | cons entry rest ih =>
    obtain ⟨first, old⟩ := entry
    have before : first < name := after first (by simp [keys])
    have apart : name ≠ first := by
      rintro rfl
      exact String.lt_irrefl _ before
    have behind : ¬ name < first := fun less => String.lt_irrefl _ (String.lt_trans before less)
    rw [insert, if_neg behind, if_neg apart, ih fun key member => after key (List.mem_cons_of_mem _ member)]
    rfl

private theorem foldl_of_ascending {entries : List (String × α)} (ascends : Ascending (table ++ entries)) :
    entries.foldl (fun table entry => insert table entry.1 entry.2) table = table ++ entries := by
  induction entries generalizing table with
  | nil => rw [List.foldl_nil, List.append_nil]
  | cons entry rest ih =>
    have after : ∀ key ∈ keys table, key < entry.1 := by
      intro key member
      rw [Ascending, keys, List.map_append] at ascends
      exact (List.pairwise_append.mp ascends).2.2 key member entry.1 (by simp)
    rw [List.foldl_cons, insert_last after, ih (by rwa [List.append_assoc]), List.append_assoc]
    rfl

/-- The table of the entries of a table is the table. -/
theorem ofList_of_ascending (ascends : table.Ascending) : ofList table = table := foldl_of_ascending ascends

end Dict
end Pkgset

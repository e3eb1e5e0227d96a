import Pkgset.Proofs.Text.Reading

/-!
# Forms of values

A reader that looks fields up by their names does not mind their order, fields that it
does not know, and the absence of a field that has a default. A form says which documents
are as good as the one that is printed.
-/

namespace Pkgset.Json

/-- How a value may be written: in one way alone, as the content of a named variant, or
    as a record. Each field of a record has its name, whether it may be left out, and the
    form of its content. -/
inductive Form where
  | plain (value : Json)
  | variant (name : String) (content : Form)
  | record (fields : List (String × Bool × Form))

namespace Form

mutual

/-- The value that is printed. -/
def json : Form → Json
  | .plain value => value
  | .variant name content => .record [(name, json content)]
  | .record fields => .record (members fields)

/-- The members of a record that is printed: no field is left out. -/
def members : List (String × Bool × Form) → List (String × Json)
  | [] => []
  | (name, _, content) :: fields => (name, json content) :: members fields

end

/-- The names of the fields of a record. -/
def names (fields : List (String × Bool × Form)) : List String := fields.map (·.1)

/-- The members that stand for the fields of a record. A field may be left out if its
    form allows it. -/
inductive Keeps (admits : Form → Document → Prop) :
    List (String × Bool × Form) → List (Option String × Document) → Prop
  | nil : Keeps admits [] []
  | keep {name : String} {droppable : Bool} {content : Form} {document : Document}
    {fields : List (String × Bool × Form)} {kept : List (Option String × Document)} (inner : admits content document)
    (rest : Keeps admits fields kept) : Keeps admits ((name, droppable, content) :: fields) ((some name, document) :: kept)
  | drop {name : String} {content : Form} {fields : List (String × Bool × Form)} {kept : List (Option String × Document)}
    (rest : Keeps admits fields kept) : Keeps admits ((name, true, content) :: fields) kept

/-- The documents that a form admits: the members of a record stand in any order, among
    others of names that are not declared. -/
inductive Admits : Form → Document → Prop
  | plain (value : Json) : Admits (.plain value) value.document
  | variant (name : String) {content : Form} {document : Document} (inner : Admits content document) :
    Admits (.variant name content) (.record [(some name, document)])
  | record {fields : List (String × Bool × Form)} {kept extra members : List (Option String × Document)}
    (keeps : Keeps Admits fields kept) (unknown : ∀ member ∈ extra, ∃ name, member.1 = some name ∧ name ∉ names fields)
    (order : members.Perm (kept ++ extra)) : Admits (.record fields) (.record members)

mutual

/-- What is printed is admitted. -/
theorem admits_document : ∀ form : Form, form.Admits form.json.document
  | .plain value => .plain value
  | .variant name content => .variant name (admits_document content)
  | .record fields => .record (keeps_documents fields) (fun _ among => absurd among List.not_mem_nil) (by rw [List.append_nil])

theorem keeps_documents : ∀ fields : List (String × Bool × Form), Keeps Admits fields (memberDocuments (members fields))
  | [] => .nil
  | (_, _, content) :: fields => .keep (admits_document content) (keeps_documents fields)

end

/-! ### What is found of a record -/

/-- What is found of a field: a document that its form admits, or nothing if it may be
    left out. -/
def Found (field : String × Bool × Form) (found : Option Document) : Prop :=
  (∃ document, found = some document ∧ field.2.2.Admits document) ∨ (found = none ∧ field.2.1 = true)

theorem Keeps.mem_names {admits : Form → Document → Prop} {fields : List (String × Bool × Form)}
    {kept : List (Option String × Document)} (keeps : Keeps admits fields kept) {member : Option String × Document}
    (among : member ∈ kept) : ∃ name ∈ names fields, member.1 = some name := by
  induction keeps with
  | nil => cases among
  | @keep name droppable content document fields kept inner rest ih =>
    rcases List.mem_cons.mp among with rfl | among
    · exact ⟨name, by simp [names], rfl⟩
    · obtain ⟨other, known, same⟩ := ih among
      exact ⟨other, List.mem_cons_of_mem _ known, same⟩
  | drop rest ih =>
    obtain ⟨other, known, same⟩ := ih among
    exact ⟨other, List.mem_cons_of_mem _ known, same⟩

theorem membersNamed_eq_nil {name : String} {members : List (Option String × Document)}
    (absent : ∀ member ∈ members, member.1 ≠ some name) : Document.membersNamed name members = [] := by
  rw [Document.membersNamed, List.map_eq_nil_iff, List.filter_eq_nil_iff]
  intro member among
  simpa using absent member among

theorem membersNamed_append (name : String) (some' others : List (Option String × Document)) :
    Document.membersNamed name (some' ++ others) = Document.membersNamed name some' ++ Document.membersNamed name others := by
  rw [Document.membersNamed, List.filter_append, List.map_append]
  rfl

/-- Under the name of each field stands at most one member, and it is admitted. -/
theorem Keeps.membersNamed {fields : List (String × Bool × Form)} {kept : List (Option String × Document)}
    (keeps : Keeps Admits fields kept) (apart : (names fields).Nodup) :
    ∀ field ∈ fields, ∃ found, Found field found ∧ Document.membersNamed field.1 kept = found.toList := by
  induction keeps with
  | nil => exact fun _ among => absurd among List.not_mem_nil
  | @keep name droppable content document fields kept inner rest ih =>
    obtain ⟨fresh, apart⟩ := List.nodup_cons.mp apart
    intro field among
    rcases List.mem_cons.mp among with rfl | among
    · have others : Document.membersNamed name kept = [] := by
        refine membersNamed_eq_nil fun member among same => ?_
        obtain ⟨other, known, same'⟩ := rest.mem_names among
        obtain rfl : name = other := Option.some.inj (same.symm.trans same')
        exact fresh known
      refine ⟨some document, .inl ⟨document, rfl, inner⟩, ?_⟩
      have first := membersNamed_append name [(some name, document)] kept
      rw [List.singleton_append, others, List.append_nil] at first
      rw [first]
      simp [Document.membersNamed]
    · obtain ⟨found, given, stands⟩ := ih apart field among
      have known : field.1 ∈ names fields := List.mem_map_of_mem among
      have other : (some name == some field.1) = false := by
        rw [beq_eq_false_iff_ne]
        intro same
        exact fresh (Option.some.inj same ▸ known)
      refine ⟨found, given, ?_⟩
      rw [← stands]
      simp [Document.membersNamed, other]
  | @drop name content fields kept rest ih =>
    obtain ⟨fresh, apart⟩ := List.nodup_cons.mp apart
    intro field among
    rcases List.mem_cons.mp among with rfl | among
    · refine ⟨none, .inr ⟨rfl, rfl⟩, membersNamed_eq_nil fun member among same => ?_⟩
      obtain ⟨other, known, same'⟩ := rest.mem_names among
      obtain rfl : name = other := Option.some.inj (same.symm.trans same')
      exact fresh known
    · exact ih apart field among

/-- What is found of the fields of a record, each at its place. -/
def Finds (fields : List (String × Bool × Form)) (found : List (Option Document)) : Prop :=
  ∀ place field, fields[place]? = some field → Found field ((Document.Fields.named found).at? place)

/-- The fields of a record that is admitted are found, whatever stands around them. -/
theorem Admits.fields {fields : List (String × Bool × Form)} {document : Document}
    (admits : (Form.record fields).Admits document) (declared : List String) (same : names fields = declared)
    (apart : declared.Nodup) : ∃ found, document.fields? declared = some (.named found) ∧ Finds fields found := by
  subst same
  cases admits with
  | @record _ kept extra members keeps unknown order =>
    have stands : ∀ field ∈ fields, ∃ found, Found field found ∧ Document.membersNamed field.1 members = found.toList := by
      intro field among
      obtain ⟨found, given, alone⟩ := keeps.membersNamed apart field among
      refine ⟨found, given, ?_⟩
      have others : Document.membersNamed field.1 extra = [] := by
        refine membersNamed_eq_nil fun member among' same => ?_
        obtain ⟨name, named, fresh⟩ := unknown member among'
        obtain rfl : field.1 = name := Option.some.inj (same.symm.trans named)
        exact fresh (List.mem_map_of_mem among)
      have reordered : (Document.membersNamed field.1 members).Perm (Document.membersNamed field.1 (kept ++ extra)) :=
        (order.filter _).map _
      rw [membersNamed_append, others, List.append_nil, alone] at reordered
      cases found with
      | none => exact List.perm_nil.mp reordered
      | some document => exact List.perm_singleton.mp reordered
    refine ⟨(names fields).map fun name => (Document.membersNamed name members).head?, ?_, ?_⟩
    · have named : members.all (·.1.isSome) = true := by
        rw [List.all_eq_true]
        intro member among
        rcases List.mem_append.mp (order.mem_iff.mp among) with known | other
        · obtain ⟨name, _, same⟩ := keeps.mem_names known
          simp [same]
        · obtain ⟨name, same, _⟩ := unknown member other
          simp [same]
      have single : (names fields).all (fun name => (Document.membersNamed name members).length ≤ 1) = true := by
        rw [names, List.all_map, List.all_eq_true]
        intro field among
        obtain ⟨found, _, alone⟩ := stands field among
        cases found <;> simp [alone]
      simp [Document.fields?, named, single]
    · intro place field at'
      obtain ⟨found, given, alone⟩ := stands field (List.mem_of_getElem? at')
      have here : (Document.Fields.named ((names fields).map fun name => (Document.membersNamed name members).head?)).at? place =
          found := by
        rw [Document.Fields.at?, names, List.map_map, List.getElem?_map, at', Option.map_some, Option.join_some]
        cases found <;> simp [alone]
      rwa [here]

/-! ### Reading a form -/

/-- A value is read from every document that its form admits. -/
def Gives {α : Type} (form : Form) (read : Document → Option α) (value : α) : Prop :=
  ∀ document, form.Admits document → read document = some value

namespace Finds
variable {α : Type} {fields : List (String × Bool × Form)} {found : List (Option Document)} {name : String}

/-- A field that has to be there is read. -/
theorem required (finds : Finds fields found) (place : Nat) {content : Form} {read : Document → Option α} {value : α}
    (at' : fields[place]? = some (name, false, content)) (gives : content.Gives read value) :
    (Document.Fields.named found).required? place read = some value := by
  obtain ⟨document, here, admits⟩ | ⟨_, droppable⟩ := finds place _ at'
  · rw [Document.Fields.required?, here]
    exact gives document admits
  · cases droppable

/-- A field that may be `null` is read, or left out. -/
theorem optional (finds : Finds fields found) (place : Nat) {value : Option α} {toJson : α → Json}
    {read : Document → Option α} (at' : fields[place]? = some (name, value.isNone, .plain (orNull (value.map toJson))))
    (reads : ∀ content ∈ value, Document.nullable? read (toJson content).document = some (some content)) :
    (Document.Fields.named found).optional? place read = some value := by
  obtain ⟨document, here, admits⟩ | ⟨here, droppable⟩ := finds place _ at'
  · cases admits
    simp only [Document.Fields.optional?, here]
    cases value with
    | none => rfl
    | some content => exact reads content rfl
  · simp only [Document.Fields.optional?, here]
    rw [Option.isNone_iff_eq_none.mp droppable]

/-- A field that is left out is as in the default. -/
theorem withDefault [DecidableEq α] (finds : Finds fields found) (place : Nat) {content : Form}
    {read : Document → Option α} {value default : α}
    (at' : fields[place]? = some (name, decide (value = default), content)) (gives : content.Gives read value) :
    (Document.Fields.named found).withDefault? place default read = some value := by
  obtain ⟨document, here, admits⟩ | ⟨here, droppable⟩ := finds place _ at'
  · rw [Document.Fields.withDefault?, here]
    exact gives document admits
  · rw [Document.Fields.withDefault?, here, of_decide_eq_true droppable]

end Finds

/-- What is printed is all that a plain form admits. -/
theorem gives_plain {α : Type} {json : Json} {read : Document → Option α} {value : α}
    (reads : read json.document = some value) : (Form.plain json).Gives read value := by
  rintro _ ⟨⟩
  exact reads

/-- A form is that of a value: it is printed as the value is, and the value is read back
    from its own text and from every text of a document that the form admits. -/
structure ReadsBack {α : Type} (toJson : α → Json) (form : Form) (read : Document → Option α) (value : α) : Prop where
  printed : form.json = toJson value
  back : (Document.ofText? (toJson value).toText).bind read = some value
  likewise : ∀ document text, form.Admits document → document.Writes text → (Document.ofText? text).bind read = some value

theorem Gives.readsBack {α : Type} {toJson : α → Json} {form : Form} {read : Document → Option α} {value : α}
    (gives : form.Gives read value) (printed : form.json = toJson value) : ReadsBack toJson form read value := by
  have likewise : ∀ document text, form.Admits document → document.Writes text →
      (Document.ofText? text).bind read = some value := by
    intro document text admits writes
    rw [writes.ofText?, Option.bind_some, gives document admits]
  refine ⟨printed, likewise _ _ form.admits_document ?_, likewise⟩
  have writes : form.json.document.Writes (form.json.toText ++ "") := writes_toText form.json (by simp)
  rw [String.append_empty] at writes
  rwa [← printed]

end Form
end Pkgset.Json

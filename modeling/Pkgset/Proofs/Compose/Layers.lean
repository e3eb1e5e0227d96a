import Mathlib.Data.List.TakeWhile
import Pkgset.Proofs.Compose.Sealing
import Pkgset.Proofs.Text.Dict

/-!
# Layers and their history

A base layer and overlays add definitions one after another. Of that history an
environment keeps one definition of a name for each layer, which is enough: the final
definition is the latest that was added, an earlier layer is seen as the history was
before, and an entry takes over the role of the latest one at its turn.
-/

namespace Pkgset

/-! ### The reference -/

/-- A definition for a base layer. -/
structure Foundation where
  name : String
  role : Role
  definition : Definition

/-- The last of the definitions for a base layer that is for a name. -/
def Foundation.last? (base : List Foundation) (name : String) : Option Foundation := base.reverse.find? (·.name = name)

/-- The last entry of an overlay that is for a name. -/
def Overlay.last? (overlay : Overlay) (name : String) : Option Entry := overlay.entries.reverse.find? (·.name = name)

/-- The last of some overlays that has an entry for a name: its number, counted from one,
    the overlay, and the last such entry in it. -/
def Overlay.defining? (overlays : List Overlay) (name : String) : Option (Nat × Overlay × Entry) :=
  (overlays.zipIdx 1).reverse.findSome? fun (overlay, number) =>
    (overlay.last? name).map fun entry => (number, overlay, entry)

/-- A definition as it was added under a name. -/
structure Addition where
  name : String
  slot : Slot

/-- All that was added, the latest first. -/
abbrev History := List Addition

namespace History

/-- The latest definition of a name. -/
def latest? (history : History) (name : String) : Option Slot := (history.find? (·.name = name)).map (·.slot)

/-- The role of an entry at its turn: its own, else that of the latest definition of its
    name, else for an alias that of the latest definition of its target, else library. -/
def roleFor (history : History) (entry : Entry) : Role :=
  let own := entry.role
  let replaced := (history.latest? entry.name).map (·.role)
  let targeted := match entry.definition with
    | .aliasOf target => (history.latest? target).map (·.role)
    | _ => none
  ((own.or replaced).or targeted).getD .library

/-- Adds an entry to a layer. -/
def add (layer : Nat) (history : History) (entry : Entry) : History :=
  ⟨entry.name, layer, history.roleFor entry, entry.definition⟩ :: history

/-- The history of a base layer. -/
def ofBase (base : List Foundation) : History :=
  (base.map fun entry => ⟨entry.name, 0, entry.role, entry.definition⟩).reverse

/-- The history of a base layer and overlays, whose layers are counted from one. -/
def ofOverlays (base : List Foundation) (overlays : List Overlay) : History :=
  (overlays.zipIdx 1).foldl (fun history (overlay, layer) => overlay.entries.foldl (add layer) history) (ofBase base)

/-- The definition of a name that a layer finds there: the latest that the base layer and
    the overlays before it have added. The base layer finds none. -/
def before? (base : List Foundation) (overlays : List Overlay) (name : String) : Nat → Option Slot
  | 0 => none
  | number + 1 => (ofOverlays base (overlays.take number)).latest? name

end History

namespace Environment

/-- The environment with a base layer, whose definitions are added in their order. -/
def founded (label : String) (base : List Foundation) : Environment :=
  base.foldl (fun environment entry => environment.base entry.name entry.role entry.definition) (empty label)

/-- What shows of an environment is what the history of its layers says. -/
structure Shows (environment : Environment) (base : List Foundation) (overlays : List Overlay) : Prop where
  /-- The layers are the base and the overlays in their order. -/
  layers : environment.layers = "base" :: overlays.map (·.name)
  /-- A view shows the latest definition of a name, or nothing. -/
  final : ∀ role name,
    environment.top? role name = ((History.ofOverlays base overlays).latest? name).filter (admits role)
  /-- Whatever the number of overlays, the latest definition is by the last entry for the
      name in the last overlay that has one, else by the base layer. -/
  latest : ∀ number name,
    ((History.ofOverlays base (overlays.take number)).latest? name).map (fun slot => (slot.layer, slot.definition)) =
      match Overlay.defining? (overlays.take number) name with
      | some (layer, _, entry) => some (layer, entry.definition)
      | none => (Foundation.last? base name).map fun entry => (0, entry.definition)
  /-- The label of what a view shows is that of the overlay which has defined it. -/
  label : ∀ role name slot, environment.top? role name = some slot →
    environment.definedBy? role name =
      some (match Overlay.defining? overlays name with
        | some (_, overlay, _) => overlay.name
        | none => "base")
  /-- A definition that looks at earlier layers finds the latest of them, if any, and
      never its own layer or a later one. -/
  prior : ∀ (machine : Machine) (thread : Thread) (scope : Scope) name,
    machine.environment? scope.env = some environment →
    match History.before? base overlays name scope.layer with
    | some slot => slot.layer < scope.layer ∧
        machine.meet thread (scope.prev name) =
          (machine, thread.push (.resume .done) (.enter ⟨scope.env, name, slot.layer⟩)) ∧
        machine.definition ⟨scope.env, name, slot.layer⟩ = slot.definition.demand ⟨scope.env, slot.layer, name⟩
    | none => machine.meet thread (scope.prev name) = (machine, thread.turn (.meet (.fail (.notFound name))))
  /-- The last entry of an overlay for a name is in its layer, with the role that it gets
      after all that was added before it. -/
  roles : ∀ before overlay after first entry last, overlays = before ++ overlay :: after →
    overlay.entries = first ++ entry :: last → (∀ other ∈ last, other.name ≠ entry.name) →
    ⟨before.length + 1,
      (first.foldl (History.add (before.length + 1)) (History.ofOverlays base before)).roleFor entry,
      entry.definition⟩ ∈ environment.stack entry.name
  /-- The definitions of a name are those that were the latest after the base layer or
      after an overlay. -/
  stack : ∀ name slot, slot ∈ environment.stack name ↔
    ∃ number ≤ overlays.length, (History.ofOverlays base (overlays.take number)).latest? name = some slot
  /-- A name that is there has a definition. -/
  filled : ∀ name ∈ Dict.keys environment.entries, environment.stack name ≠ []
  /-- From the first to the latest, the definitions of a name are in layers going up. -/
  ascends : ∀ name, ((environment.stack name).reverse.map (·.layer)).Pairwise (· < ·)

end Environment

/-! ### Histories -/

namespace History
variable {history : History} {name : String} {layer : Nat}

/-- The definitions of a name, the latest first. -/
def slots (history : History) (name : String) : List Slot := (history.filter (·.name = name)).map (·.slot)

theorem slots_cons (addition : Addition) (history : History) (name : String) :
    slots (addition :: history) name = if addition.name = name then addition.slot :: history.slots name else history.slots name := by
  by_cases same : addition.name = name <;> simp [slots, same]

theorem latest?_eq_head? (history : History) (name : String) : history.latest? name = (history.slots name).head? := by
  simp [latest?, slots, List.head?_filter]

theorem latest?_cons (addition : Addition) (history : History) (name : String) :
    latest? (addition :: history) name = if addition.name = name then some addition.slot else history.latest? name := by
  by_cases same : addition.name = name <;> simp [latest?, same]

theorem ofOverlays_concat (base : List Foundation) (overlays : List Overlay) (overlay : Overlay) :
    ofOverlays base (overlays ++ [overlay]) =
      overlay.entries.foldl (add (overlays.length + 1)) (ofOverlays base overlays) := by
  simp [ofOverlays, List.zipIdx_append, Nat.add_comm 1]

/-- Entries of other names leave the latest definition as it is. -/
theorem latest?_foldl_add_of_absent {entries : List Entry} (absent : ∀ entry ∈ entries, entry.name ≠ name) :
    (entries.foldl (add layer) history).latest? name = history.latest? name := by
  induction entries generalizing history with
  | nil => rfl
  | cons first rest ih =>
    rw [List.foldl_cons, ih fun entry member => absent entry (List.mem_cons_of_mem _ member), add, latest?_cons,
      if_neg (absent first List.mem_cons_self)]

end History

theorem Overlay.defining?_concat (overlays : List Overlay) (overlay : Overlay) (name : String) :
    Overlay.defining? (overlays ++ [overlay]) name =
      match overlay.last? name with
      | some entry => some (overlays.length + 1, overlay, entry)
      | none => Overlay.defining? overlays name := by
  simp only [defining?, List.zipIdx_append, List.zipIdx_singleton, List.reverse_append, List.reverse_singleton,
    List.singleton_append, List.findSome?_cons, Nat.add_comm 1]
  cases overlay.last? name <;> rfl

/-- The overlay that has the last entry is in its place. -/
theorem Overlay.exists_of_defining? {overlays : List Overlay} {name : String} {layer : Nat} {overlay : Overlay} {entry : Entry}
    (defining : Overlay.defining? overlays name = some (layer, overlay, entry)) :
    ∃ number, layer = number + 1 ∧ overlays[number]? = some overlay := by
  obtain ⟨⟨found, place⟩, member, shape⟩ := List.exists_of_findSome?_eq_some defining
  obtain ⟨last, _, same⟩ := Option.map_eq_some_iff.mp shape
  cases same
  obtain ⟨low, high, same⟩ := List.mem_zipIdx (List.mem_reverse.mp member)
  refine ⟨layer - 1, by omega, ?_⟩
  rw [List.getElem?_eq_some_iff]
  exact ⟨by omega, same.symm⟩

namespace History
variable {history : History} {name : String} {layer : Nat}

/-- What a layer leaves is by the last entry for the name, or what was there. -/
theorem latest?_foldl_add (overlay : Overlay) :
    ((overlay.entries.foldl (add layer) history).latest? name).map (fun slot => (slot.layer, slot.definition)) =
      match overlay.last? name with
      | some entry => some (layer, entry.definition)
      | none => (history.latest? name).map fun slot => (slot.layer, slot.definition) := by
  obtain ⟨label, entries⟩ := overlay
  induction entries using List.reverseRecOn with
  | nil => rfl
  | append_singleton entries entry ih =>
    simp only [Overlay.last?, List.foldl_append, List.foldl_cons, List.foldl_nil, List.reverse_append, List.reverse_singleton,
      List.singleton_append, List.find?_cons, add, latest?_cons] at ih ⊢
    by_cases same : entry.name = name
    · simp [same]
    · simpa [same] using ih

theorem latest?_ofBase (base : List Foundation) (name : String) :
    (ofBase base).latest? name =
      (Foundation.last? base name).map fun entry => ⟨0, entry.role, entry.definition⟩ := by
  simp only [latest?, ofBase, Foundation.last?, ← List.map_reverse, List.find?_map, Option.map_map]
  rfl

/-- The latest definition is by the last entry for the name in the last overlay that has
    one, else by the base layer. -/
theorem latest?_ofOverlays (base : List Foundation) (overlays : List Overlay) (name : String) :
    ((ofOverlays base overlays).latest? name).map (fun slot => (slot.layer, slot.definition)) =
      match Overlay.defining? overlays name with
      | some (layer, _, entry) => some (layer, entry.definition)
      | none => (Foundation.last? base name).map fun entry => (0, entry.definition) := by
  induction overlays using List.reverseRecOn with
  | nil =>
    change ((ofBase base).latest? name).map _ = (Foundation.last? base name).map _
    rw [latest?_ofBase, Option.map_map]
    rfl
  | append_singleton overlays overlay ih =>
    rw [ofOverlays_concat, latest?_foldl_add, Overlay.defining?_concat]
    cases overlay.last? name with
    | some entry => rfl
    | none => exact ih

/-! ### Layers of a history -/

/-- No definition is in a later layer than the last overlay. -/
theorem layer_le_of_mem_slots {base : List Foundation} {overlays : List Overlay} {slot : Slot}
    (member : slot ∈ (ofOverlays base overlays).slots name) : slot.layer ≤ overlays.length := by
  have folded (entries : List Entry) (bound : Nat) : ∀ history : History, (∀ addition ∈ history, addition.slot.layer ≤ bound) →
      ∀ addition ∈ entries.foldl (add bound) history, addition.slot.layer ≤ bound := by
    induction entries with
    | nil => exact fun _ => id
    | cons first rest ih =>
      intro history low
      refine ih _ fun addition member => ?_
      rcases List.mem_cons.mp member with rfl | old
      · exact le_refl bound
      · exact low addition old
  have low : ∀ addition ∈ ofOverlays base overlays, addition.slot.layer ≤ overlays.length := by
    clear member
    induction overlays using List.reverseRecOn with
    | nil =>
      intro addition member
      obtain ⟨entry, _, rfl⟩ := List.mem_map.mp (List.mem_reverse.mp member)
      exact le_refl 0
    | append_singleton overlays overlay ih =>
      rw [ofOverlays_concat, List.length_append, List.length_singleton]
      exact folded _ _ _ fun addition member => (ih addition member).trans (Nat.le_succ _)
  obtain ⟨addition, within, rfl⟩ := List.mem_map.mp member
  exact low addition (List.mem_of_mem_filter within)

/-- What a layer adds is not below it. -/
theorem find?_slots_foldl_add {bound : Nat} (entries : List Entry) (above : bound ≤ layer) :
    ((entries.foldl (add layer) history).slots name).find? (fun slot => slot.layer < bound) =
      (history.slots name).find? fun slot => slot.layer < bound := by
  induction entries generalizing history with
  | nil => rfl
  | cons first rest ih =>
    rw [List.foldl_cons, ih, add, slots_cons]
    split
    · exact List.find?_cons_of_neg (by simpa using above)
    · rfl

/-- The latest definition in the layers up to a number is the latest when so many overlays
    had been added. -/
theorem find?_slots_ofOverlays (base : List Foundation) (overlays : List Overlay) (name : String) (number : Nat) :
    ((ofOverlays base overlays).slots name).find? (fun slot => slot.layer < number + 1) =
      (ofOverlays base (overlays.take number)).latest? name := by
  induction overlays using List.reverseRecOn with
  | nil =>
    rw [latest?_eq_head?, List.take_nil]
    cases found : (ofOverlays base []).slots name with
    | nil => rfl
    | cons slot rest =>
      have listed : slot ∈ (ofOverlays base []).slots name := found ▸ List.mem_cons_self
      have low := layer_le_of_mem_slots listed
      exact List.find?_cons_of_pos (by simpa using Nat.lt_succ_of_le (low.trans (Nat.zero_le number)))
  | append_singleton overlays overlay ih =>
    by_cases whole : overlays.length + 1 ≤ number
    · rw [latest?_eq_head?, List.take_of_length_le (by simpa using whole)]
      cases found : (ofOverlays base (overlays ++ [overlay])).slots name with
      | nil => rfl
      | cons slot rest =>
        have low := layer_le_of_mem_slots (found ▸ List.mem_cons_self : slot ∈ _)
        rw [List.length_append, List.length_singleton] at low
        exact List.find?_cons_of_pos (by simpa using Nat.lt_succ_of_le (low.trans whole))
    · have within : number ≤ overlays.length := by omega
      rw [ofOverlays_concat, find?_slots_foldl_add _ (by omega), ih, List.take_append_of_le_length within]

end History

/-! ### What an environment keeps -/

/-- The first of the definitions in each layer, where those of a layer follow each other. -/
def onePerLayer : List Slot → List Slot
  | [] => []
  | slot :: rest => slot :: (onePerLayer rest).dropWhile (·.layer == slot.layer)

theorem mem_of_mem_onePerLayer {slots : List Slot} {slot : Slot} (member : slot ∈ onePerLayer slots) : slot ∈ slots := by
  induction slots with
  | nil => exact member
  | cons first rest ih =>
    rcases List.mem_cons.mp member with rfl | later
    · exact List.mem_cons_self
    · exact List.mem_cons_of_mem _ (ih ((List.dropWhile_sublist _).mem later))

theorem find?_onePerLayer (slots : List Slot) (condition : Nat → Bool) :
    (onePerLayer slots).find? (fun slot => condition slot.layer) = slots.find? fun slot => condition slot.layer := by
  have dropped (layer : Nat) (fails : condition layer = false) (slots : List Slot) :
      (slots.dropWhile (·.layer == layer)).find? (fun slot => condition slot.layer) =
        slots.find? fun slot => condition slot.layer := by
    induction slots with
    | nil => rfl
    | cons slot rest ih =>
      by_cases same : slot.layer = layer
      · rw [List.dropWhile_cons_of_pos (by simpa using same), ih, List.find?_cons_of_neg (by simp [same, fails])]
      · rw [List.dropWhile_cons_of_neg (by simpa using same)]
  induction slots with
  | nil => rfl
  | cons slot rest ih =>
    rw [onePerLayer, List.find?_cons, List.find?_cons]
    cases holds : condition slot.layer with
    | true => rfl
    | false => exact (dropped slot.layer holds _).trans ih

namespace Environment
variable {environment : Environment} {history : History} {name : String}

/-- An environment keeps the latest definition of each name in each layer of a history. -/
def Keeps (environment : Environment) (history : History) : Prop :=
  ∀ name, environment.stack name = onePerLayer (history.slots name)

namespace Keeps

theorem head?_stack (keeps : environment.Keeps history) (name : String) :
    (environment.stack name).head? = history.latest? name := by
  rw [keeps name, History.latest?_eq_head?]
  cases history.slots name <;> rfl

theorem roleFor_eq (keeps : environment.Keeps history) (entry : Entry) :
    environment.roleFor entry = history.roleFor entry := by
  have current (name : String) : environment.currentRole? name = (history.latest? name).map (·.role) := by
    rw [currentRole?, keeps.head?_stack]
  unfold roleFor History.roleFor
  rw [current]
  cases entry.role with
  | some role => rfl
  | none =>
    cases (history.latest? entry.name).map (·.role) with
    | some role => rfl
    | none =>
      cases entry.definition with
      | aliasOf target => exact congrArg (Option.getD · .library) (current target)
      | _ => rfl

theorem define (keeps : environment.Keeps history) (layer : Nat) (entry : Entry) :
    (environment.define layer entry).Keeps (history.add layer entry) := by
  intro other
  rw [History.add, History.slots_cons]
  refine (stack_insert environment entry.name other _).trans ?_
  by_cases same : entry.name = other
  · subst same
    simp only [↓reduceIte, onePerLayer, keeps.roleFor_eq, keeps entry.name]
  · rw [if_neg (Ne.symm same), if_neg same, keeps other]

theorem pushLayer (keeps : environment.Keeps history) (label : String) (entries : List Entry) :
    (environment.pushLayer label entries).Keeps (entries.foldl (History.add environment.layers.length) history) := by
  have folded (layer : Nat) : ∀ (lower : Environment) (history : History), lower.Keeps history →
      (entries.foldl (Environment.define layer) lower).Keeps (entries.foldl (History.add layer) history) := by
    induction entries with
    | nil => exact fun _ _ => id
    | cons first rest ih => exact fun lower history keeps => ih _ _ (keeps.define layer first)
  exact folded _ _ _ keeps

end Keeps

theorem founded_concat (label : String) (base : List Foundation) (entry : Foundation) :
    founded label (base ++ [entry]) = (founded label base).base entry.name entry.role entry.definition := by
  simp [founded]

/-- The base layer of a registry has a definition for each descriptor. -/
theorem ofRegistry_eq_founded (label : String) (registry : Registry) :
    ofRegistry label registry =
      founded label (registry.descriptors.map fun entry => ⟨entry.1, entry.2.role, .call (.new entry.2)⟩) := by
  rw [founded, List.foldl_map]
  rfl

/-- In a base layer there is one definition of a name, the last one. -/
theorem stack_founded (label : String) (base : List Foundation) (name : String) :
    (founded label base).stack name =
      ((Foundation.last? base name).map fun entry => ⟨0, entry.role, entry.definition⟩).toList := by
  induction base using List.reverseRecOn with
  | nil => rfl
  | append_singleton base entry ih =>
    rw [founded_concat, stack_base]
    simp only [Foundation.last?, List.reverse_append, List.reverse_singleton, List.singleton_append, List.find?_cons] at ih ⊢
    by_cases same : entry.name = name
    · subst same
      rw [if_pos rfl, ih]
      cases base.reverse.find? (·.name = entry.name) <;> simp
    · rw [if_neg (Ne.symm same), ih]
      simp [same]

theorem keeps_founded (label : String) (base : List Foundation) : (founded label base).Keeps (.ofBase base) := by
  have single (slots : List Slot) (low : ∀ slot ∈ slots, slot.layer = 0) : onePerLayer slots = slots.head?.toList := by
    cases slots with
    | nil => rfl
    | cons slot rest =>
      have within : ∀ other ∈ onePerLayer rest, other.layer = slot.layer := by
        intro other member
        rw [low slot List.mem_cons_self]
        exact low other (List.mem_cons_of_mem _ (mem_of_mem_onePerLayer member))
      have gone : (onePerLayer rest).dropWhile (·.layer == slot.layer) = [] :=
        List.dropWhile_eq_nil_iff.mpr (by simpa using within)
      rw [onePerLayer, gone]
      rfl
  intro name
  rw [single, ← History.latest?_eq_head?, History.latest?_ofBase, stack_founded]
  intro slot member
  have low : slot.layer ≤ ([] : List Overlay).length := History.layer_le_of_mem_slots member
  exact Nat.le_zero.mp low

theorem apply_concat (environment : Environment) (overlays : List Overlay) (overlay : Overlay) :
    environment.apply (overlays ++ [overlay]) = (environment.apply overlays).pushLayer overlay.name overlay.entries := by
  simp [apply]

theorem layers_apply (label : String) (base : List Foundation) (overlays : List Overlay) :
    ((founded label base).apply overlays).layers = "base" :: overlays.map (·.name) := by
  induction overlays using List.reverseRecOn with
  | nil =>
    induction base using List.reverseRecOn with
    | nil => rfl
    | append_singleton base entry ih =>
      rw [founded_concat]
      exact ih
  | append_singleton overlays overlay ih =>
    rw [apply_concat, pushLayer, layers_foldl_define, ih]
    simp

/-- What overlays are applied to keeps the history of all that they add. -/
theorem keeps_apply (label : String) (base : List Foundation) (overlays : List Overlay) :
    ((founded label base).apply overlays).Keeps (.ofOverlays base overlays) := by
  induction overlays using List.reverseRecOn with
  | nil => exact keeps_founded label base
  | append_singleton overlays overlay ih =>
    have pushed := ih.pushLayer overlay.name overlay.entries
    rw [layers_apply, List.length_cons, List.length_map] at pushed
    rw [apply_concat, History.ofOverlays_concat]
    exact pushed

theorem sealed_founded (label : String) (base : List Foundation) : (founded label base).Sealed := by
  induction base using List.reverseRecOn with
  | nil => exact .empty label
  | append_singleton base entry ih =>
    rw [founded_concat]
    exact ih.base entry.name entry.role entry.definition

section
variable (label : String) (base : List Foundation) (overlays : List Overlay)

theorem below?_apply (name : String) (layer : Nat) :
    ((founded label base).apply overlays).below? name layer = History.before? base overlays name layer := by
  rw [below?, keeps_apply label base overlays name, find?_onePerLayer _ (· < layer)]
  cases layer with
  | zero => exact List.find?_eq_none.mpr (by simp)
  | succ number => exact History.find?_slots_ofOverlays base overlays name number

theorem final_eq (role : Option Role) (name : String) : ((founded label base).apply overlays).top? role name =
    ((History.ofOverlays base overlays).latest? name).filter (admits role) := by
  rw [top?, (keeps_apply label base overlays).head?_stack]

/-- A definition is found by its layer. -/
theorem stack_find? {name : String} {slot : Slot} (member : slot ∈ ((founded label base).apply overlays).stack name) :
    (((founded label base).apply overlays).stack name).find? (·.layer == slot.layer) = some slot := by
  have pairwise := (((sealed_founded label base).apply overlays).descends.2).pairwise name
  obtain ⟨upper, lower, split⟩ := List.append_of_mem member
  rw [split, List.pairwise_append] at pairwise
  have above : ∀ other ∈ upper, ¬ (other.layer == slot.layer) = true := by
    intro other within
    have under := pairwise.2.2 other within slot List.mem_cons_self
    simpa using (Nat.ne_of_gt under)
  rw [split, List.find?_append, List.find?_eq_none.mpr above, Option.none_or, List.find?_cons_of_pos (by simp)]

/-- A definition is the latest below the layer after its own. -/
theorem mem_stack_iff (name : String) (slot : Slot) :
    slot ∈ ((founded label base).apply overlays).stack name ↔
      ∃ number ≤ overlays.length, (History.ofOverlays base (overlays.take number)).latest? name = some slot := by
  have descends := ((sealed_founded label base).apply overlays).descends.2
  constructor
  · intro member
    have low := descends.below name slot member
    rw [layers_apply, List.length_cons, List.length_map] at low
    refine ⟨slot.layer, Nat.le_of_lt_succ low, ?_⟩
    have found := below?_apply label base overlays name (slot.layer + 1)
    refine found.symm.trans ?_
    obtain ⟨upper, lower, split⟩ := List.append_of_mem member
    have pairwise := descends.pairwise name
    rw [split, List.pairwise_append] at pairwise
    have above : ∀ other ∈ upper, ¬ other.layer < slot.layer + 1 := by
      intro other within
      have under := pairwise.2.2 other within slot List.mem_cons_self
      omega
    rw [below?, split, List.find?_append, List.find?_eq_none.mpr (by simpa using above), Option.none_or,
      List.find?_cons_of_pos (by simp)]
  · rintro ⟨number, _, latest⟩
    have found : ((founded label base).apply overlays).below? name (number + 1) = some slot :=
      (below?_apply label base overlays name (number + 1)).trans latest
    exact List.mem_of_find?_eq_some found

end

/-- Whatever definitions are added to a base layer and whatever overlays are applied, with
    names and labels repeated or not: the layers are the base and the overlays in order;
    the final definition of a name is the last entry for it in the last overlay that has
    one, else that of the base layer, and its label is that of this overlay; a layer that
    looks below itself finds the same for the overlays before it, or nothing; an entry has
    its own role, else that of the latest definition of its name at its turn, else for an
    alias that of its target, else library; and the definitions of a name that is there
    are at least one, in layers going up. -/
theorem apply_shows (label : String) (base : List Foundation) (overlays : List Overlay) :
    ((founded label base).apply overlays).Shows base overlays where
  layers := layers_apply label base overlays
  final := final_eq label base overlays
  latest number name := History.latest?_ofOverlays base (overlays.take number) name
  label role name slot shown := by
    have found := (final_eq label base overlays role name).symm.trans shown
    obtain ⟨latest, _⟩ := Option.filter_eq_some_iff.mp found
    rw [definedBy?, shown, Option.bind_some, layers_apply]
    have defined := History.latest?_ofOverlays base overlays name
    rw [latest, Option.map_some] at defined
    cases defining : Overlay.defining? overlays name with
    | none =>
      rw [defining] at defined
      obtain ⟨entry, _, same⟩ := Option.map_eq_some_iff.mp defined.symm
      have zero : slot.layer = 0 := (congrArg Prod.fst same).symm
      rw [zero]
      rfl
    | some place =>
      obtain ⟨layer, overlay, entry⟩ := place
      rw [defining] at defined
      have same : slot.layer = layer := congrArg Prod.fst (Option.some.inj defined)
      obtain ⟨number, rfl, at'⟩ := Overlay.exists_of_defining? defining
      rw [same, List.getElem?_cons_succ, List.getElem?_map, at']
      rfl
  prior machine thread scope name here := by
    have found := below?_apply label base overlays name scope.layer
    rw [← found]
    have meets : machine.below? scope.env name scope.layer =
        (((founded label base).apply overlays).below? name scope.layer).map fun slot => ⟨scope.env, name, slot.layer⟩ := by
      rw [Machine.below?, here]
      simp only [Option.bind_eq_bind, Option.bind_some]
      cases ((founded label base).apply overlays).below? name scope.layer <;> rfl
    cases below : ((founded label base).apply overlays).below? name scope.layer with
    | none =>
      rw [below, Option.map_none] at meets
      simp [Scope.prev, Machine.meet, meets, Demand.fail]
    | some slot =>
      rw [below, Option.map_some] at meets
      refine ⟨by simpa using List.find?_some below, by simp [Scope.prev, Machine.meet, meets], ?_⟩
      have own := stack_find? label base overlays (List.mem_of_find?_eq_some below)
      rw [Machine.definition, here, Option.bind_some, own]
  roles before overlay after first entry last split entries absent := by
    rw [mem_stack_iff]
    refine ⟨before.length + 1, by simp [split], ?_⟩
    have part : overlays.take (before.length + 1) = before ++ [overlay] := by
      rw [split, List.take_append, List.take_of_length_le (by omega)]
      simp
    rw [part, History.ofOverlays_concat, entries, List.foldl_append, List.foldl_cons,
      History.latest?_foldl_add_of_absent absent, History.add, History.latest?_cons, if_pos rfl]
  stack := mem_stack_iff label base overlays
  filled name member := by
    obtain ⟨slots, found⟩ := Option.isSome_iff_exists.mp (Dict.mem_keys.mp member)
    rw [Environment.stack, found, Option.getD_some]
    exact ((sealed_founded label base).apply overlays).filled _ (Dict.mem_of_get? found)
  ascends name := by
    rw [List.pairwise_map, List.pairwise_reverse]
    exact (((sealed_founded label base).apply overlays).descends.2).pairwise name

/-- An alias that is new takes over the role of its target, and keeps it when it is replaced. -/
example :
    let environment := (founded "set" [⟨"sh", .tool, .value (.text "1")⟩]).apply
      [⟨"patch", [.aliasOf "shell" "sh", .value "sh" (.text "2"), .value "sh" (.text "3")]⟩,
        ⟨"patch", [.value "shell" (.text "4")]⟩]
    environment.roleOf? none "shell" = some .tool ∧ environment.definedBy? none "shell" = some "patch" ∧
      (environment.stack "shell").map (·.layer) = [2, 1] ∧ (environment.stack "sh").map (·.layer) = [1, 0] := by decide

end Environment
end Pkgset

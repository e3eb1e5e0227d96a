import Mathlib.Data.List.Basic
import Pkgset.Proofs.Compose.Meaning
import Pkgset.Proofs.Text.Dict

/-!
# Sealed environments

An environment is sealed from definitions of the base layer and layers on top of each
other. Whatever is added in whatever order, the definitions of a name are in layers
strictly going down, so the first one found is the one of the highest layer.
-/

namespace Pkgset

/-- An environment that was put together from base definitions and layers. -/
inductive Environment.Sealed : Environment → Prop where
  | empty (label : String) : Sealed (.empty label)
  | base {environment : Environment} (before : Sealed environment) (name : String) (role : Role)
      (definition : Definition) : Sealed (environment.base name role definition)
  | layer {environment : Environment} (before : Sealed environment) (label : String) (entries : List Entry) :
      Sealed (environment.pushLayer label entries)

namespace Environment

theorem Sealed.apply {environment : Environment} (before : environment.Sealed) (overlays : List Overlay) :
    (environment.apply overlays).Sealed := by
  induction overlays generalizing environment with
  | nil => exact before
  | cons first rest ih => exact ih (before.layer ..)

theorem sealed_ofRegistry (label : String) (registry : Registry) : (ofRegistry label registry).Sealed := by
  have folded (descriptors : Dict Descriptor) : ∀ environment : Environment, environment.Sealed →
      (descriptors.foldl (fun lower entry =>
        lower.base entry.1 entry.2.role (.call (.new entry.2))) environment).Sealed := by
    induction descriptors with
    | nil => exact fun _ => id
    | cons first rest ih => exact fun environment before => ih _ (before.base ..)
  exact folded _ _ (.empty label)

/-- What a registry and overlays are composed to is sealed. -/
theorem sealed_compose (label : String) (registry : Registry) (overlays : List Overlay) :
    (compose label registry overlays).Sealed := (sealed_ofRegistry label registry).apply overlays

/-- What holds of the entries of a sealed environment, because storing definitions keeps it. -/
theorem Sealed.entries (holds : Dict (List Slot) → Prop) (none : holds [])
    (insert : ∀ table name slots, slots ≠ [] → holds table → holds (Dict.insert table name slots))
    {environment : Environment} (before : environment.Sealed) : holds environment.entries := by
  induction before with
  | empty label => exact none
  | base before name role definition ih => exact insert _ _ _ (by simp) ih
  | @layer environment before label entries ih =>
    have folded (layer : Nat) (lower : Environment) (held : holds lower.entries) :
        holds (entries.foldl (define layer) lower).entries := by
      induction entries generalizing lower with
      | nil => exact held
      | cons first rest ih => exact ih _ (insert _ _ _ (by simp) held)
    exact folded _ _ ih

/-- A sealed environment has no name without a definition. -/
theorem Sealed.filled {environment : Environment} (before : environment.Sealed) :
    ∀ entry ∈ environment.entries, entry.2 ≠ [] := by
  refine before.entries (fun table => ∀ entry ∈ table, entry.2 ≠ []) (by simp) fun table name slots inhabited filled => ?_
  intro entry member
  rcases Dict.mem_of_mem_insert member with rfl | old
  · exact inhabited
  · exact filled entry old

/-- A sealed environment has its names in ascending order. -/
theorem Sealed.ascending {environment : Environment} (before : environment.Sealed) : environment.entries.Ascending :=
  before.entries Dict.Ascending .nil fun _ name slots _ ascends => ascends.insert name slots

/-- Whatever a view shows has one of the names that it lists. -/
theorem mem_names {environment : Environment} {role : Option Role} {name : String} {slot : Slot}
    (shows : environment.top? role name = some slot) : name ∈ environment.names role := by
  obtain ⟨first, admitted⟩ := Option.filter_eq_some_iff.mp shows
  cases found : Dict.get? environment.entries name with
  | none => simp [stack, found] at first
  | some slots =>
    simp only [stack, found, Option.getD_some] at first
    refine List.mem_map.mpr ⟨(name, slots), List.mem_filter.mpr ⟨Dict.mem_of_get? found, ?_⟩, rfl⟩
    simpa [first] using admitted

/-- A view lists its names in ascending order. -/
theorem Sealed.names_ascending {environment : Environment} (before : environment.Sealed) (role : Option Role) :
    (environment.names role).Pairwise (· < ·) := by
  refine before.ascending.sublist ?_
  exact (List.filter_sublist).map _

/-- The definitions of a name are in layers strictly going down, all below a bound. -/
structure Descends (environment : Environment) (bound : Nat) : Prop where
  pairwise : ∀ name, (environment.stack name).Pairwise fun upper lower => lower.layer < upper.layer
  below : ∀ name, ∀ slot ∈ environment.stack name, slot.layer < bound

theorem stack_insert (environment : Environment) (name other : String) (slots : List Slot) :
    ({ environment with entries := Dict.insert environment.entries name slots } : Environment).stack other =
      if other = name then slots else environment.stack other := by
  simp only [stack, Dict.get?_insert]
  split <;> rfl

private theorem Descends.insert {environment : Environment} {bound : Nat} (descends : environment.Descends bound)
    {name : String} {slots : List Slot} (pairwise : slots.Pairwise fun upper lower => lower.layer < upper.layer)
    (below : ∀ slot ∈ slots, slot.layer < bound) :
    ({ environment with entries := Dict.insert environment.entries name slots } : Environment).Descends bound := by
  refine ⟨fun other => ?_, fun other => ?_⟩
  · rw [stack_insert]
    split
    · exact pairwise
    · exact descends.pairwise other
  · rw [stack_insert]
    split
    · exact below
    · exact descends.below other

private theorem Descends.base {environment : Environment} {bound : Nat} (descends : environment.Descends bound)
    (inhabited : 0 < bound) (name : String) (role : Role) (definition : Definition) :
    (environment.base name role definition).Descends bound := by
  refine descends.insert ?_ ?_
  · rw [List.pairwise_append]
    refine ⟨(descends.pairwise name).filter _, List.pairwise_singleton _ _, ?_⟩
    intro upper member lower single
    rw [List.mem_singleton.mp single]
    have above : upper.layer ≠ 0 := by simpa using (List.mem_filter.mp member).2
    exact Nat.pos_of_ne_zero above
  · intro slot member
    rcases List.mem_append.mp member with old | new
    · exact descends.below name slot (List.mem_of_mem_filter old)
    · rw [List.mem_singleton.mp new]
      exact inhabited

/-- What is below the definition that a layer puts on top is in lower layers. -/
private theorem below_of_mem_dropWhile {slots : List Slot} {layer : Nat}
    (pairwise : slots.Pairwise fun upper lower => lower.layer < upper.layer)
    (below : ∀ slot ∈ slots, slot.layer < layer + 1) :
    ∀ slot ∈ slots.dropWhile (·.layer == layer), slot.layer < layer := by
  cases slots with
  | nil => simp
  | cons first rest =>
    obtain ⟨lower, _⟩ := List.pairwise_cons.mp pairwise
    have top := below first (by simp)
    by_cases same : first.layer = layer
    · intro slot member
      rw [List.dropWhile_cons_of_pos (by simpa using same)] at member
      have under := lower slot ((List.dropWhile_sublist _).mem member)
      omega
    · intro slot member
      rw [List.dropWhile_cons_of_neg (by simpa using same)] at member
      rcases List.mem_cons.mp member with rfl | later
      · omega
      · have under := lower slot later
        omega

private theorem Descends.define {environment : Environment} {layer : Nat} (descends : environment.Descends (layer + 1))
    (entry : Entry) : (environment.define layer entry).Descends (layer + 1) := by
  have lower := below_of_mem_dropWhile (descends.pairwise entry.name) (descends.below entry.name)
  refine descends.insert ?_ ?_
  · exact List.pairwise_cons.mpr ⟨lower, (descends.pairwise entry.name).sublist (List.dropWhile_sublist _)⟩
  · intro slot member
    rcases List.mem_cons.mp member with rfl | under
    · exact Nat.lt_succ_self layer
    · exact Nat.lt_succ_of_lt (lower slot under)

private theorem Descends.foldl_define {layer : Nat} (entries : List Entry) :
    ∀ environment : Environment, environment.Descends (layer + 1) →
      (entries.foldl (Environment.define layer) environment).Descends (layer + 1) := by
  induction entries with
  | nil => exact fun _ => id
  | cons first rest ih => exact fun environment descends => ih _ (descends.define first)

theorem layers_foldl_define {layer : Nat} (entries : List Entry) :
    ∀ environment : Environment, (entries.foldl (Environment.define layer) environment).layers = environment.layers := by
  induction entries with
  | nil => exact fun _ => rfl
  | cons first rest ih => exact fun environment => ih _

theorem Sealed.descends {environment : Environment} (before : environment.Sealed) :
    0 < environment.layers.length ∧ environment.Descends environment.layers.length := by
  induction before with
  | empty label => exact ⟨Nat.zero_lt_one, fun _ => .nil, by simp [stack, Environment.empty, Dict.get?]⟩
  | base before name role definition ih => exact ⟨ih.1, ih.2.base ih.1 name role definition⟩
  | @layer environment before label entries ih =>
    have wider : ({ environment with layers := environment.layers ++ [label] } : Environment).Descends
        (environment.layers.length + 1) :=
      ⟨ih.2.pairwise, fun name slot member => Nat.lt_succ_of_lt (ih.2.below name slot member)⟩
    have stacked := Descends.foldl_define entries _ wider
    have length : (environment.pushLayer label entries).layers.length = environment.layers.length + 1 := by
      simp [pushLayer, layers_foldl_define]
    rw [length]
    exact ⟨Nat.succ_pos _, stacked⟩

/-- The highest of slots that go down is the first. -/
theorem argmax_eq_head? {slots : List Slot} (pairwise : slots.Pairwise fun upper lower => lower.layer < upper.layer) :
    slots.argmax Slot.layer = slots.head? := by
  cases slots with
  | nil => rfl
  | cons first rest =>
    obtain ⟨lower, _⟩ := List.pairwise_cons.mp pairwise
    rw [List.argmax_cons]
    cases highest : rest.argmax Slot.layer with
    | none => rfl
    | some other =>
      have under := lower other (List.argmax_mem highest)
      simp [Nat.not_lt_of_lt under]

theorem Sealed.highest?_eq {environment : Environment} (before : environment.Sealed) (name : String)
    (condition : Slot → Bool) : environment.highest? name condition = (environment.stack name).find? condition := by
  rw [highest?, argmax_eq_head? ((before.descends.2.pairwise name).filter _), List.head?_filter]

/-- The first definition found is the final one. -/
theorem Sealed.top?_eq {environment : Environment} (before : environment.Sealed) (role : Option Role) (name : String) :
    environment.top? role name = (environment.highest? name fun _ => true).filter (admits role) := by
  rw [before.highest?_eq, top?, ← List.head?_filter, List.filter_true]

/-- The first definition found below a layer is the highest there. -/
theorem Sealed.below?_eq {environment : Environment} (before : environment.Sealed) (name : String) (layer : Nat) :
    environment.below? name layer = environment.highest? name fun slot => slot.layer < layer :=
  (before.highest?_eq name _).symm

/-! ### Definitions that stay as they are -/

section
variable {environment : Environment} {name : String}

theorem stack_base (environment : Environment) (name other : String) (role : Role) (definition : Definition) :
    (environment.base name role definition).stack other =
      if other = name then (environment.stack name).filter (·.layer != 0) ++ [⟨0, role, definition⟩]
      else environment.stack other :=
  stack_insert environment name other _

/-- A layer leaves the definitions of a name alone that none of its entries has. -/
theorem stack_pushLayer (label : String) {entries : List Entry} (absent : ∀ entry ∈ entries, entry.name ≠ name) :
    (environment.pushLayer label entries).stack name = environment.stack name := by
  have folded (layer : Nat) (lower : Environment) :
      (entries.foldl (define layer) lower).stack name = lower.stack name := by
    induction entries generalizing lower with
    | nil => rfl
    | cons first rest ih =>
      rw [List.foldl_cons, ih fun entry member => absent entry (List.mem_cons_of_mem _ member)]
      refine (stack_insert lower first.name name _).trans (if_neg ?_)
      exact (absent first (by simp)).symm
  exact folded _ _

theorem stack_apply {overlays : List Overlay}
    (absent : ∀ overlay ∈ overlays, ∀ entry ∈ overlay.entries, entry.name ≠ name) :
    (environment.apply overlays).stack name = environment.stack name := by
  induction overlays generalizing environment with
  | nil => rfl
  | cons first rest ih =>
    refine (ih fun overlay member => absent overlay (List.mem_cons_of_mem _ member)).trans ?_
    exact stack_pushLayer first.name (absent first (by simp))

/-- A registry has definitions in the base layer only. -/
theorem layer_ofRegistry (label : String) (registry : Registry) (name : String) :
    ∀ slot ∈ (ofRegistry label registry).stack name, slot.layer = 0 := by
  have folded (descriptors : Dict Descriptor) (lower : Environment)
      (flat : ∀ name, ∀ slot ∈ lower.stack name, slot.layer = 0) :
      ∀ name, ∀ slot ∈ (descriptors.foldl (fun lower entry =>
        lower.base entry.1 entry.2.role (.call (.new entry.2))) lower).stack name, slot.layer = 0 := by
    induction descriptors generalizing lower with
    | nil => exact flat
    | cons first rest ih =>
      refine ih _ fun name slot member => ?_
      rw [stack_base] at member
      split at member
      · rcases List.mem_append.mp member with old | new
        · exact flat _ slot (List.mem_of_mem_filter old)
        · rw [List.mem_singleton.mp new]
      · exact flat name slot member
  exact folded _ _ (by simp [stack, empty, Dict.get?]) name

end

/-! ### All definitions of an environment -/

/-- Every definition of an environment satisfies a condition. -/
def Every (condition : Definition → Prop) (environment : Environment) : Prop :=
  ∀ name, ∀ slot ∈ environment.stack name, condition slot.definition

namespace Every
variable {condition : Definition → Prop} {environment : Environment}

private theorem insert (every : environment.Every condition) (name : String) {slots : List Slot}
    (all : ∀ slot ∈ slots, condition slot.definition) :
    ({ environment with entries := Dict.insert environment.entries name slots } : Environment).Every condition := by
  intro other
  rw [stack_insert]
  split
  · exact all
  · exact every other

theorem base (every : environment.Every condition) (name : String) (role : Role) {definition : Definition}
    (holds : condition definition) : (environment.base name role definition).Every condition := by
  refine every.insert name fun slot member => ?_
  rcases List.mem_append.mp member with old | new
  · exact every name slot (List.mem_of_mem_filter old)
  · rw [List.mem_singleton.mp new]
    exact holds

theorem pushLayer (every : environment.Every condition) (label : String) {entries : List Entry}
    (all : ∀ entry ∈ entries, condition entry.definition) : (environment.pushLayer label entries).Every condition := by
  have folded (layer : Nat) : ∀ lower : Environment, lower.Every condition →
      (entries.foldl (define layer) lower).Every condition := by
    induction entries with
    | nil => exact fun _ => id
    | cons first rest ih =>
      intro lower holds
      refine ih (fun entry member => all entry (List.mem_cons_of_mem _ member)) _ (holds.insert first.name ?_)
      intro slot member
      rcases List.mem_cons.mp member with rfl | under
      · exact all first (by simp)
      · exact holds first.name slot ((List.dropWhile_sublist _).mem under)
  exact folded _ _ every

theorem apply {overlays : List Overlay} (every : environment.Every condition)
    (entries : ∀ overlay ∈ overlays, ∀ entry ∈ overlay.entries, condition entry.definition) :
    (environment.apply overlays).Every condition := by
  induction overlays generalizing environment with
  | nil => exact every
  | cons first rest ih =>
    exact ih (every.pushLayer first.name (entries first (by simp)))
      fun overlay member => entries overlay (List.mem_cons_of_mem _ member)

theorem ofRegistry (label : String) {registry : Registry}
    (calls : ∀ entry ∈ registry.descriptors, condition (.call (.new entry.2))) :
    (ofRegistry label registry).Every condition := by
  have folded (descriptors : Dict Descriptor) (all : ∀ entry ∈ descriptors, condition (.call (.new entry.2))) :
      ∀ lower : Environment, lower.Every condition →
        (descriptors.foldl (fun lower entry =>
          lower.base entry.1 entry.2.role (.call (.new entry.2))) lower).Every condition := by
    induction descriptors with
    | nil => exact fun _ => id
    | cons first rest ih =>
      intro lower holds
      exact ih (fun entry member => all entry (List.mem_cons_of_mem _ member)) _ (holds.base _ _ (all first (by simp)))
  exact folded _ calls _ (by simp [Every, stack, Environment.empty, Dict.get?])

/-- What holds of the call sites of a registry and of the entries of overlays holds of
    what they are composed to. -/
theorem compose (label : String) {registry : Registry} {overlays : List Overlay}
    (calls : ∀ entry ∈ registry.descriptors, condition (.call (.new entry.2)))
    (entries : ∀ overlay ∈ overlays, ∀ entry ∈ overlay.entries, condition entry.definition) :
    (compose label registry overlays).Every condition := (Every.ofRegistry label calls).apply entries

end Every

end Environment
end Pkgset

import Mathlib.Data.List.MinMax
import Mathlib.Logic.Relation
import Pkgset.Compose.Machine

/-!
# What entries stand for

The meaning of definitions, without a machine and without anything remembered. A
computation goes from demand to demand; where it asks for what another computation
comes to, it goes on with any outcome that can be derived for that one. The final
definition of a name is the one of the highest layer, and an earlier one is the highest
strictly below a layer.

No computation has two outcomes. One that has an outcome has one for everything that it
asks, so computations that ask for each other in a circle have none.
-/

namespace Pkgset
open Relation

/-- The definition of a name in the highest layer among those that satisfy a condition. -/
def Environment.highest? (environment : Environment) (name : String) (condition : Slot → Bool) : Option Slot :=
  ((environment.stack name).filter condition).argmax Slot.layer

/-- The environments by their identities. -/
abbrev World := EnvId → Option Environment

/-- What comes of a demand at once. -/
inductive Reaction where
  /-- It is the result. -/
  | settled (outcome : Outcome)
  /-- Another demand follows, and that many cells are made then. -/
  | further (made : Nat) (demand : Demand)
  /-- It depends on what another computation comes to. -/
  | question (asked : Origin) (next : Outcome → Demand)
  | crash

namespace World

/-- The final definition of a name, if the view shows it. -/
def final? (world : World) (view : View) (name : String) : Option SlotId := do
  let environment ← world view.env
  let slot ← (environment.highest? name fun _ => true).filter (Environment.admits view.role)
  some ⟨view.env, name, slot.layer⟩

/-- The highest definition of a name strictly below a layer. -/
def earlier? (world : World) (env : EnvId) (name : String) (layer : Nat) : Option SlotId := do
  let environment ← world env
  let slot ← environment.highest? name fun slot => slot.layer < layer
  some ⟨env, name, slot.layer⟩

/-- What evaluating a definition demands. -/
def definition (world : World) (id : SlotId) : Demand :=
  match (world id.env).bind fun environment => (environment.stack id.name).find? (·.layer == id.layer) with
  | some slot => slot.definition.demand ⟨id.env, id.layer, id.name⟩
  | none => .fail (.notFound id.name)

/-- What the default of an input demands. -/
def fallback (world : World) (input : String) (env : EnvId) (body : Demand) : Demand :=
  match world env with
  | some _ => body
  | none => .fail (.environmentDropped input)

/-- What comes of a demand in a computation that has made a number of cells. -/
def react (world : World) (origin : Origin) (made : Nat) : Demand → Reaction
  | .done outcome => .settled outcome
  | .panic => .crash
  | .get view name next =>
    match world.final? view name with
    | some slot => .question (.slot slot) next
    | none => .further made (next (.error (.notFound name)))
  | .prior env name layer next =>
    match world.earlier? env name layer with
    | some slot => .question (.slot slot) next
    | none => .further made (next (.error (.notFound name)))
  | .has view name next => .further made (next (world.final? view name).isSome)
  | .hasPrior env name layer next => .further made (next (world.earlier? env name layer).isSome)
  | .force (.entry view name) next =>
    match world view.env with
    | some _ => .further made (.get view name next)
    | none => .further made (next (.error (.environmentDropped name)))
  | .force (.ready component) next => .further made (next (.ok component))
  | .force (.default _ cell) next => .question cell.computation next
  | .settle (.lazy reference) next => .further made (Machine.follow reference next)
  | .settle component next => .further made (next (.ok component))
  | .allot _ _ _ next => .further (made + 1) (next ⟨origin, made⟩)
  | .mark _ next => .further made next
  | .pause next => .further made next

/-- What a demand asks for: a final definition, an earlier one or the default of an input. -/
inductive Question (world : World) : Demand → Origin → (Outcome → Demand) → Prop where
  | get {view : View} {name : String} {slot : SlotId} {next : Outcome → Demand}
      (found : world.final? view name = some slot) : Question world (.get view name next) (.slot slot) next
  | prior {env : EnvId} {name : String} {layer : Nat} {slot : SlotId} {next : Outcome → Demand}
      (found : world.earlier? env name layer = some slot) : Question world (.prior env name layer next) (.slot slot) next
  | default (input : String) (cell : CellId) (next : Outcome → Demand) :
      Question world (.force (.default input cell) next) cell.computation next

theorem question_of_react {world : World} {origin asked : Origin} {made : Nat} {demand : Demand} {next : Outcome → Demand}
    (asks : world.react origin made demand = .question asked next) : world.Question demand asked next := by
  fun_cases react world origin made demand with
  | case3 view name next' slot found =>
    simp only [react, found] at asks
    cases asks
    exact .get found
  | case5 env name layer next' slot found =>
    simp only [react, found] at asks
    cases asks
    exact .prior found
  | case12 =>
    cases asks
    exact .default _ _ _
  | _ => simp_all [react]

/-- The demands that a computation comes to, and the number of cells that it has made
    then. -/
inductive Reaches (world : World) : Origin → Nat → Demand → Prop where
  /-- A definition starts with its demand. -/
  | definition (slot : SlotId) : Reaches world (.slot slot) 0 (world.definition slot)
  /-- The default of an input starts with the body that its cell was made with. -/
  | default {origin : Origin} {made : Nat} {input : String} {view : View} {body : Demand} {next : CellId → Demand}
      (allots : Reaches world origin made (.allot input view body next)) :
      Reaches world (.cell origin made) 0 (world.fallback input view.env body)
  | further {origin : Origin} {made made' : Nat} {demand demand' : Demand} (before : Reaches world origin made demand)
      (follows : world.react origin made demand = .further made' demand') : Reaches world origin made' demand'
  /-- A question is answered with an outcome of the computation asked. -/
  | answer {origin asked : Origin} {made made' : Nat} {demand : Demand} {next : Outcome → Demand} {outcome : Outcome}
      (before : Reaches world origin made demand) (asks : world.react origin made demand = .question asked next)
      (result : Reaches world asked made' (.done outcome)) : Reaches world origin made (next outcome)

/-- An outcome can be derived for a computation. -/
def Yields (world : World) (origin : Origin) (outcome : Outcome) : Prop := ∃ made, world.Reaches origin made (.done outcome)

/-- A computation asks for what another one comes to. -/
def Asks (world : World) (origin asked : Origin) : Prop :=
  ∃ made demand next, world.Reaches origin made demand ∧ world.react origin made demand = .question asked next

/-! ### Going on -/

/-- A computation goes on from a demand, with the number of cells made, to the next. -/
inductive Goes (world : World) (origin : Origin) : Nat × Demand → Nat × Demand → Prop where
  | further {made made' : Nat} {demand demand' : Demand}
      (follows : world.react origin made demand = .further made' demand') :
      Goes world origin (made, demand) (made', demand')
  | answer {asked : Origin} {made : Nat} {demand : Demand} {next : Outcome → Demand} {outcome : Outcome}
      (asks : world.react origin made demand = .question asked next) (result : world.Yields asked outcome) :
      Goes world origin (made, demand) (made, next outcome)

section
variable {world : World} {origin asked : Origin} {made made' : Nat} {demand demand' : Demand} {outcome other : Outcome}

theorem Goes.made_le {first second : Nat × Demand} (goes : world.Goes origin first second) : first.1 ≤ second.1 := by
  cases goes with
  | answer asks result => exact le_rfl
  | @further made made' demand demand' follows =>
    fun_cases react world origin made demand <;> simp_all [react]
    omega

/-- A computation leads from a demand to another. -/
abbrev Leads (world : World) (origin : Origin) : Nat × Demand → Nat × Demand → Prop :=
  ReflTransGen (world.Goes origin)

theorem Leads.made_le {first second : Nat × Demand} (leads : world.Leads origin first second) : first.1 ≤ second.1 := by
  induction leads with
  | refl => exact le_rfl
  | tail _ goes ih => exact ih.trans goes.made_le

theorem Goes.reaches {first second : Nat × Demand} (goes : world.Goes origin first second)
    (reaches : world.Reaches origin first.1 first.2) : world.Reaches origin second.1 second.2 := by
  cases goes with
  | further follows => exact reaches.further follows
  | answer asks result =>
    obtain ⟨made, result⟩ := result
    exact reaches.answer asks result

/-- Where a result is reached, nothing follows. -/
theorem eq_of_leads_done {node : Nat × Demand} (leads : world.Leads origin (made, .done outcome) node) :
    node = (made, .done outcome) := by
  rcases leads.cases_head with same | ⟨next, goes, _⟩
  · exact same.symm
  · cases goes with
    | further follows => cases follows
    | answer asks result => cases asks

/-- Where a demand follows at once, all others come after it. -/
theorem Leads.of_further {node : Nat × Demand} (leads : world.Leads origin (made, demand) node)
    (follows : world.react origin made demand = .further made' demand') :
    (made, demand) = node ∨ world.Leads origin (made', demand') node := by
  rcases leads.cases_head with same | ⟨next, goes, later⟩
  · exact Or.inl same
  · cases goes with
    | further follows' =>
      cases follows.symm.trans follows'
      exact Or.inr later
    | answer asks _ => cases follows.symm.trans asks

/-- Where a question is asked, all other demands come after an answer. -/
theorem Leads.of_question {node : Nat × Demand} {next : Outcome → Demand}
    (leads : world.Leads origin (made, demand) node) (asks : world.react origin made demand = .question asked next) :
    (made, demand) = node ∨ ∃ answer, world.Yields asked answer ∧ world.Leads origin (made, next answer) node := by
  rcases leads.cases_head with same | ⟨first, goes, later⟩
  · exact Or.inl same
  · cases goes with
    | further follows => cases asks.symm.trans follows
    | answer asks' result =>
      cases asks.symm.trans asks'
      exact Or.inr ⟨_, result, later⟩

/-- A cell is made once: the demands that make it are the same. -/
private theorem eq_of_leads_allot {input input' : String} {view view' : View} {body body' : Demand}
    {next next' : CellId → Demand}
    (leads : world.Leads origin (made, .allot input view body next) (made, .allot input' view' body' next')) :
    Demand.allot input' view' body' next' = .allot input view body next := by
  rcases leads.of_further rfl with same | later
  · exact (Prod.mk.inj same).2.symm
  · have least : made + 1 ≤ made := later.made_le
    omega

theorem Reaches.leads_definition {slot : SlotId} (reaches : world.Reaches (.slot slot) made demand) :
    world.Leads (.slot slot) (0, world.definition slot) (made, demand) := by
  generalize same : Origin.slot slot = origin at reaches
  induction reaches with
  | definition slot' =>
    cases same
    exact .refl
  | default allots => cases same
  | further before follows ih => exact (ih same).tail (.further follows)
  | answer before asks result ih => exact (ih same).tail (.answer asks ⟨_, result⟩)

theorem Reaches.leads_default {number : Nat} {input : String} {view : View} {body : Demand}
    {next : CellId → Demand}
    (once : ∀ {input' view' body' next'}, world.Reaches origin number (.allot input' view' body' next') →
      Demand.allot input' view' body' next' = .allot input view body next)
    (reaches : world.Reaches (.cell origin number) made demand) :
    world.Leads (.cell origin number) (0, world.fallback input view.env body) (made, demand) := by
  generalize same : Origin.cell origin number = origin' at reaches
  induction reaches with
  | definition slot => cases same
  | default allots =>
    cases same
    cases once allots
    exact .refl
  | further before follows ih => exact (ih same).tail (.further follows)
  | answer before asks result ih => exact (ih same).tail (.answer asks ⟨_, result⟩)

/-- Of two demands that a computation comes to, one leads to the other. -/
theorem Reaches.comparable (reaches : world.Reaches origin made demand) :
    ∀ {made' : Nat} {demand' : Demand}, world.Reaches origin made' demand' →
      world.Leads origin (made, demand) (made', demand') ∨ world.Leads origin (made', demand') (made, demand) := by
  induction reaches with
  | definition slot => exact fun reaches' => Or.inl reaches'.leads_definition
  | @default origin number input view body next allots ih =>
    intro made' demand' reaches'
    have once {input' : String} {view' : View} {body' : Demand} {next' : CellId → Demand}
        (allots' : world.Reaches origin number (.allot input' view' body' next')) :
        Demand.allot input' view' body' next' = .allot input view body next := by
      rcases ih allots' with leads | leads
      · exact eq_of_leads_allot leads
      · exact (eq_of_leads_allot leads).symm
    exact Or.inl (reaches'.leads_default once)
  | @further origin made made' demand demand' before follows ih =>
    intro made'' demand'' reaches'
    rcases ih reaches' with leads | leads
    · rcases leads.of_further follows with same | later
      · rw [← same]
        exact Or.inr (.single (.further follows))
      · exact Or.inl later
    · exact Or.inr (leads.tail (.further follows))
  | @answer origin asked made made' demand next outcome before asks result ih ihResult =>
    intro made'' demand'' reaches'
    rcases ih reaches' with leads | leads
    · rcases leads.of_question asks with same | ⟨answer, ⟨total, result'⟩, later⟩
      · rw [← same]
        exact Or.inr (.single (.answer asks ⟨_, result⟩))
      · -- The computation asked has one outcome, so the answers are the same.
        have once : answer = outcome := by
          rcases ihResult result' with leads' | leads'
          · cases eq_of_leads_done leads'
            rfl
          · cases eq_of_leads_done leads'
            rfl
        exact Or.inl (once ▸ later)
    · exact Or.inr (leads.tail (.answer asks ⟨_, result⟩))

/-- A computation has one outcome at most. -/
theorem Yields.unique (yields : world.Yields origin outcome) (yields' : world.Yields origin other) : outcome = other := by
  obtain ⟨made, reaches⟩ := yields
  obtain ⟨made', reaches'⟩ := yields'
  rcases reaches.comparable reaches' with leads | leads
  · cases eq_of_leads_done leads
    rfl
  · cases eq_of_leads_done leads
    rfl

/-- The cell of a computation and a number is made with one body. -/
theorem Reaches.allot_unique {input input' : String} {view view' : View} {body body' : Demand}
    {next next' : CellId → Demand} (allots : world.Reaches origin made (.allot input view body next))
    (allots' : world.Reaches origin made (.allot input' view' body' next')) :
    Demand.allot input' view' body' next' = .allot input view body next := by
  rcases allots.comparable allots' with leads | leads
  · exact eq_of_leads_allot leads
  · exact (eq_of_leads_allot leads).symm

/-! ### Questions -/

/-- Asking goes back to computations that ask nothing. -/
def Grounded (world : World) : Origin → Prop := Acc fun asked origin => world.Asks origin asked

/-- The questions on the way to a demand are to grounded computations; all others come
    later. -/
private theorem Reaches.grounded (reaches : world.Reaches origin made demand) :
    ∀ {made' : Nat} {demand' : Demand} {asked : Origin} {next : Outcome → Demand},
      world.Reaches origin made' demand' → world.react origin made' demand' = .question asked next →
        world.Grounded asked ∨ world.Leads origin (made, demand) (made', demand') := by
  induction reaches with
  | definition slot => exact fun reaches' _ => Or.inr reaches'.leads_definition
  | default allots _ => exact fun reaches' _ => Or.inr (reaches'.leads_default fun allots' => allots.allot_unique allots')
  | further before follows ih =>
    intro made' demand' asked next reaches' question
    rcases ih reaches' question with grounded | leads
    · exact Or.inl grounded
    · rcases leads.of_further follows with same | later
      · cases same
        cases follows.symm.trans question
      · exact Or.inr later
  | answer before asks result ih ihResult =>
    intro made' demand' asked' next' reaches' question
    rcases ih reaches' question with grounded | leads
    · exact Or.inl grounded
    · rcases leads.of_question asks with same | ⟨answer, result', later⟩
      · cases same
        cases asks.symm.trans question
        -- What was asked here has come to a result, which is not before any question.
        refine Or.inl (Acc.intro _ ?_)
        rintro asked ⟨made'', demand'', next'', reaches'', question''⟩
        rcases ihResult reaches'' question'' with grounded | leads'
        · exact grounded
        · cases eq_of_leads_done leads'
          cases question''
      · cases result'.unique ⟨_, result⟩
        exact Or.inr later

/-- A computation with an outcome is grounded. -/
theorem Yields.grounded (yields : world.Yields origin outcome) : world.Grounded origin := by
  obtain ⟨made, reaches⟩ := yields
  refine Acc.intro _ ?_
  rintro asked ⟨made', demand', next, reaches', question⟩
  rcases reaches.grounded reaches' question with grounded | leads
  · exact grounded
  · cases eq_of_leads_done leads
    cases question

/-- A computation with an outcome has asked only those that have one. -/
theorem Yields.of_asks (yields : world.Yields origin outcome) (asks : world.Asks origin asked) :
    ∃ answer, world.Yields asked answer := by
  obtain ⟨made, reaches⟩ := yields
  obtain ⟨made', demand', next, reaches', question⟩ := asks
  rcases reaches'.comparable reaches with leads | leads
  · rcases leads.of_question question with same | ⟨answer, result, _⟩
    · cases same
      cases question
    · exact ⟨answer, result⟩
  · cases eq_of_leads_done leads
    cases question

/-- No outcome can be derived for a computation. -/
def Stuck (world : World) (origin : Origin) : Prop := ∀ outcome, ¬ world.Yields origin outcome

theorem Stuck.of_asks (stuck : world.Stuck asked) (asks : world.Asks origin asked) : world.Stuck origin := by
  intro outcome yields
  obtain ⟨answer, result⟩ := yields.of_asks asks
  exact stuck answer result

/-- Computations that ask for each other in a circle have no outcomes. -/
theorem stuck_of_circle (circle : TransGen world.Asks origin origin) : world.Stuck origin := by
  intro outcome yields
  have irrefl : ∀ {start}, world.Grounded start → ¬ TransGen world.Asks start start := by
    intro start grounded
    induction grounded with
    | intro start _ ih =>
      intro circle
      obtain ⟨asked, asks, back⟩ := TransGen.head'_iff.mp circle
      exact ih asked asks (TransGen.tail' back asks)
  exact irrefl yields.grounded circle

end
end World
end Pkgset

import Pkgset.Proofs.Compose.Computing
import Pkgset.Proofs.Compose.Locality
import Pkgset.Proofs.Text.Dict
import Mathlib.Data.Multiset.DershowitzManna
import Mathlib.SetTheory.Ordinal.Family
import Mathlib.Tactic.Abel

/-!
# What is left to do

A thread alone begins definitions that are pending, of which there are finitely many, and
goes through demands, which are finite. What it still has to do is measured by the pending
definitions and, if they stay the same, by what the thread and the pending defaults owe: a
demand owes more than whatever may follow it, also if there are infinitely many answers. A
default owes more than its body, and may make new defaults, which owe less. So each move makes
the load lighter, with one exception: what follows on a lazy reference may be as large as that.
-/

namespace Pkgset
open Machine

/-! ### The definitions that there are -/

/-- Whether nothing is known of a computation. -/
def Progress.isPending : Progress → Bool
  | .pending => true
  | _ => false

theorem Progress.isPending_iff {progress : Progress} : progress.isPending = true ↔ progress = .pending := by
  cases progress <;> simp [isPending]

namespace Machine

/-- The identities of all definitions of the environments. -/
def slotIds (machine : Machine) : List SlotId :=
  (List.range machine.environments.length).flatMap fun place =>
    match machine.environment? (place + 1) with
    | none => []
    | some environment => environment.entries.flatMap fun (name, stack) =>
      stack.map fun slot => ⟨place + 1, name, slot.layer⟩

/-- The number of definitions of which nothing is known. -/
def pendingSlots (machine : Machine) : Nat := machine.slotIds.countP fun slot => (machine.slots slot).isPending

theorem mem_slotIds {machine : Machine} {env : EnvId} {environment : Environment}
    (found : machine.environment? env = some environment)
    {name : String} {slot : Slot} (member : slot ∈ environment.stack name) : ⟨env, name, slot.layer⟩ ∈ machine.slotIds := by
  cases env with
  | zero => cases found
  | succ place =>
    have bound : place < machine.environments.length := by
      by_contra beyond
      simp [environment?, List.getElem?_eq_none (not_lt.mp beyond)] at found
    obtain ⟨stack, entry, within⟩ : ∃ stack, (name, stack) ∈ environment.entries ∧ slot ∈ stack := by
      unfold Environment.stack at member
      cases at' : Dict.get? environment.entries name with
      | none => simp [at'] at member
      | some stack => exact ⟨stack, Dict.mem_of_get? at', by simpa [at'] using member⟩
    simp only [slotIds, List.mem_flatMap, List.mem_range]
    refine ⟨place, bound, ?_⟩
    rw [found]
    exact List.mem_flatMap.mpr ⟨(name, stack), entry, List.mem_map.mpr ⟨slot, within, rfl⟩⟩

theorem mem_slotIds_of_top? {machine : Machine} {view : View} {name : String} {slot : SlotId}
    (shows : machine.top? view name = some slot) : slot ∈ machine.slotIds := by
  obtain ⟨environment, found, shows⟩ := Option.bind_eq_some_iff.mp shows
  obtain ⟨slot, top, is⟩ := Option.bind_eq_some_iff.mp shows
  cases is
  exact mem_slotIds found (List.mem_of_head? (Option.filter_eq_some_iff.mp top).1)

theorem mem_slotIds_of_below? {machine : Machine} {env : EnvId} {name : String} {layer : Nat} {slot : SlotId}
    (shows : machine.below? env name layer = some slot) : slot ∈ machine.slotIds := by
  obtain ⟨environment, found, shows⟩ := Option.bind_eq_some_iff.mp shows
  obtain ⟨slot, lower, is⟩ := Option.bind_eq_some_iff.mp shows
  cases is
  exact mem_slotIds found (List.mem_of_find?_eq_some lower)

/-- There is nothing to what is not a definition of an environment. -/
theorem definition_of_not_mem {machine : Machine} {slot : SlotId} (absent : slot ∉ machine.slotIds) :
    machine.definition slot = .fail (.notFound slot.name) := by
  unfold Machine.definition
  split
  next found at' =>
    obtain ⟨environment, there, within⟩ := Option.bind_eq_some_iff.mp at'
    have same : found.layer = slot.layer := by simpa using List.find?_some within
    have member := mem_slotIds there (List.mem_of_find?_eq_some within)
    rw [same] at member
    exact absurd member absent
  next => rfl

theorem pendingSlots_le {machine machine' : Machine} (same : machine'.environments = machine.environments)
    (fewer : ∀ slot, machine'.slots slot = .pending → machine.slots slot = .pending) :
    machine'.pendingSlots ≤ machine.pendingSlots := by
  have ids : machine'.slotIds = machine.slotIds := by simp only [slotIds, environment?, same]
  rw [pendingSlots, ids]
  exact List.countP_mono_left fun slot _ pending =>
    Progress.isPending_iff.mpr (fewer slot (Progress.isPending_iff.mp pending))

/-- To begin a definition leaves fewer of them pending. -/
theorem pendingSlots_setSlot {machine : Machine} {slot : SlotId} (member : slot ∈ machine.slotIds)
    (pending : machine.slots slot = .pending) (owner : ThreadId) :
    (machine.setSlot slot (.running owner)).pendingSlots < machine.pendingSlots := by
  simp only [pendingSlots, show (machine.setSlot slot (.running owner)).slotIds = machine.slotIds from rfl]
  obtain ⟨before, after, split⟩ := List.append_of_mem member
  have fewer (ids : List SlotId) :
      ids.countP (fun id => ((machine.setSlot slot (.running owner)).slots id).isPending) ≤
        ids.countP fun id => (machine.slots id).isPending := by
    refine List.countP_mono_left fun id _ still => ?_
    rw [slots_setSlot] at still
    split at still
    · cases still
    · exact still
  have first := fewer before
  have last := fewer after
  have here : (machine.slots slot).isPending = true := Progress.isPending_iff.mpr pending
  have gone : ((machine.setSlot slot (.running owner)).slots slot).isPending = false := by simp [Progress.isPending]
  simp only [split, List.countP_append, List.countP_cons, here, gone, ↓reduceIte]
  simp only [Bool.false_eq_true, ↓reduceIte]
  omega

theorem slotIds_step (machine : Machine) (id : ThreadId) (thread : Thread) :
    (machine.step id thread).1.slotIds = machine.slotIds := by
  simp only [slotIds, environment?, environments_step]

end Machine

/-! ### What demands owe -/

namespace Demand

/-- More than the rank of what may follow. Going on with an answer owes no less than the answer. -/
noncomputable def rank : Demand → Ordinal.{0}
  | .done _ => 0
  | .panic => 0
  | .get _ _ next => (⨆ outcome, rank (next outcome)) + 1 + 1
  | .prior _ _ _ next => (⨆ outcome, rank (next outcome)) + 1 + 1
  | .has _ _ next => (⨆ answer, rank (next answer)) + 1
  | .hasPrior _ _ _ next => (⨆ answer, rank (next answer)) + 1
  | .force _ next => (⨆ outcome, rank (next outcome)) + 1 + 1 + 1
  | .settle _ next => (⨆ outcome, rank (next outcome)) + 1
  | .allot _ _ body next => max (rank body + 1 + 1) ((⨆ cell, rank (next cell)) + 1)
  | .mark _ next => rank next + 1
  | .pause next => rank next + 1 + 1

noncomputable def rankAfter (next : Outcome → Demand) : Ordinal.{0} := ⨆ outcome, (next outcome).rank

theorem rank_le_rankAfter (next : Outcome → Demand) (outcome : Outcome) : (next outcome).rank ≤ rankAfter next :=
  Ordinal.le_iSup _ outcome

/-- What goes on with the answer to a reference: it settles a component, and errors end that. -/
def onward (next : Outcome → Demand) : Outcome → Demand
  | .ok component => .settle component next
  | .error error => next (.error error)

/-- To settle a component owes no more than to go on with the answer to a reference. -/
theorem rankAfter_onward (component : Component) (next : Outcome → Demand) :
    rankAfter (onward next) = (settle component next).rank := by
  apply le_antisymm
  · refine Ordinal.iSup_le fun outcome => ?_
    cases outcome with
    | ok other => exact le_rfl
    | error error => exact (rank_le_rankAfter next _).trans (le_add_right le_rfl)
  · exact rank_le_rankAfter (onward next) (.ok component)

end Demand

/-- What a thread owes for what it is about to do. -/
noncomputable def Control.due : Control → Multiset Ordinal.{0}
  | .meet demand => {demand.rank}
  | .paused demand => {demand.rank + 1}
  | .blocked _ => {1 + 1}
  | .enter _ => {1}
  | .fill _ => {0}
  | .yield _ => 0
  | .unwind => 0

/-- What a thread owes for a frame. -/
noncomputable def Frame.due : Frame → Multiset Ordinal.{0}
  | .resume next => {Demand.rankAfter next}
  | .slot _ => 0
  | .cell _ => 0

/-- What a thread owes for its frames. -/
noncomputable def duesOf (frames : List Frame) : Multiset Ordinal.{0} := (frames.map Frame.due).sum

@[simp] theorem duesOf_cons (frame : Frame) (frames : List Frame) : duesOf (frame :: frames) = frame.due + duesOf frames := by
  simp [duesOf]

namespace Machine

/-- What is owed for one cell. -/
noncomputable def owed (entry : CellId × Cell) : Option Ordinal.{0} :=
  match entry.2.progress with
  | .pending => some (entry.2.body.rank + 1)
  | _ => none

/-- What is owed for the pending defaults. -/
noncomputable def dues (machine : Machine) : Multiset Ordinal.{0} := (machine.cells.filterMap owed : List Ordinal.{0})

theorem dues_allot (machine : Machine) (origin : Origin) (input : String) (view : View) (body : Demand) :
    (machine.allot origin input view body).1.dues = machine.dues + {body.rank + 1} := by
  simp [dues, allot, owed, ← Multiset.coe_add]

theorem dues_setCell (machine : Machine) (id : CellId) {progress : Progress} (busy : progress ≠ .pending) :
    (machine.setCell id progress).dues = ((machine.cells.filter fun entry => entry.1 ≠ id).filterMap owed : List Ordinal.{0}) := by
  simp only [dues, setCell]
  congr 1
  induction machine.cells with
  | nil => rfl
  | cons entry rest ih =>
    by_cases here : entry.1 = id
    · have nothing : owed (id, { entry.2 with progress }) = none := by
        cases progress <;> first | rfl | exact absurd rfl busy
      simpa [here, nothing] using ih
    · simp only [List.map_cons, here, ↓reduceIte, List.filterMap_cons, ne_eq, not_false_eq_true, decide_true,
        List.filter_cons_of_pos, ih]

theorem dues_setCell_le (machine : Machine) (id : CellId) {progress : Progress} (busy : progress ≠ .pending) :
    (machine.setCell id progress).dues ≤ machine.dues := by
  rw [dues_setCell machine id busy]
  exact Multiset.coe_le.mpr (List.filter_sublist.filterMap _).subperm

/-- To begin a default takes it from what is owed. -/
theorem dues_begin {machine : Machine} {id : CellId} {cell : Cell} (found : machine.cell? id = some cell)
    (pending : cell.progress = .pending) (owner : ThreadId) :
    (machine.setCell id (.running owner)).dues + {cell.body.rank + 1} ≤ machine.dues := by
  rw [dues_setCell machine id (by simp)]
  have split : ∀ cells : List (CellId × Cell), cells.lookup id = some cell →
      List.Subperm ((cell.body.rank + 1) :: (cells.filter fun entry => entry.1 ≠ id).filterMap owed) (cells.filterMap owed) := by
    intro cells
    induction cells with
    | nil => intro found; cases found
    | cons entry rest ih =>
      intro found
      obtain ⟨first, content⟩ := entry
      by_cases here : first = id
      · subst here
        obtain rfl : content = cell := by simpa using found
        have due : owed (first, content) = some (content.body.rank + 1) := by simp [owed, pending]
        simpa [due] using (List.subperm_cons _).mpr (List.filter_sublist.filterMap owed).subperm
      · have unlike : (id == first) = false := beq_eq_false_iff_ne.mpr (Ne.symm here)
        have later := ih (by simpa [List.lookup_cons, unlike] using found)
        cases due : owed (first, content) with
        | none => simpa [here, due, List.filterMap_cons] using later
        | some amount =>
          simp only [here, due, ne_eq, not_false_eq_true, decide_true, List.filter_cons_of_pos, List.filterMap_cons]
          exact (List.Perm.swap _ _ _).subperm.trans ((List.subperm_cons _).mpr later)
  have within := Multiset.coe_le.mpr (split machine.cells found)
  rwa [← Multiset.cons_coe, ← Multiset.singleton_add, add_comm] at within

end Machine

/-! ### The load -/

/-- What is left to do: the number of pending definitions, and what is owed. -/
abbrev Load := Nat × Multiset Ordinal.{0}

namespace Load

/-- Fewer definitions are pending, or as many, and some of what was owed is replaced by less. -/
def Lighter : Load → Load → Prop := Prod.Lex (· < ·) Multiset.IsDershowitzMannaLT

theorem lighter_wf : WellFounded Lighter :=
  WellFounded.prod_lex wellFounded_lt Multiset.wellFounded_isDershowitzMannaLT

theorem Lighter.trans {load load' load'' : Load} (lighter : Lighter load load') (lighter' : Lighter load' load'') :
    Lighter load load'' := by
  rw [Lighter, Prod.lex_def] at *
  rcases lighter with fewer | ⟨same, less⟩ <;> rcases lighter' with fewer' | ⟨same', less'⟩
  · exact Or.inl (fewer.trans fewer')
  · exact Or.inl (same' ▸ fewer)
  · exact Or.inl (same ▸ fewer')
  · exact Or.inr ⟨same.trans same', less.trans less'⟩

/-- The load is the same or lighter. -/
def AtMost (load load' : Load) : Prop := load = load' ∨ Lighter load load'

theorem AtMost.lighter {load load' load'' : Load} (atMost : AtMost load load') (lighter : Lighter load' load'') :
    Lighter load load'' := by
  rcases atMost with rfl | lighter'
  · exact lighter
  · exact lighter'.trans lighter

theorem Lighter.atMost {load load' load'' : Load} (lighter : Lighter load load') (atMost : AtMost load' load'') :
    Lighter load load'' := by
  rcases atMost with rfl | lighter'
  · exact lighter
  · exact lighter.trans lighter'

theorem AtMost.trans {load load' load'' : Load} (atMost : AtMost load load') (atMost' : AtMost load' load'') :
    AtMost load load'' := by
  rcases atMost' with rfl | lighter
  · exact atMost
  · exact Or.inr (atMost.lighter lighter)

theorem lighter_of_replaced {pending pending' : Nat} (fewer : pending' ≤ pending) {kept less more : Multiset Ordinal.{0}}
    (some : more ≠ 0) (smaller : ∀ due ∈ less, ∃ due' ∈ more, due < due') :
    Lighter (pending', kept + less) (pending, kept + more) := by
  rw [Lighter, Prod.lex_def]
  rcases fewer.lt_or_eq with fewer | same
  · exact Or.inl fewer
  · exact Or.inr ⟨same, kept, less, more, some, rfl, rfl, smaller⟩

theorem lighter_of_lt {pending pending' : Nat} (fewer : pending' < pending) (dues dues' : Multiset Ordinal.{0}) :
    Lighter (pending', dues') (pending, dues) := Prod.Lex.left _ _ fewer

theorem atMost_of_le {pending pending' : Nat} (fewer : pending' ≤ pending) {dues dues' : Multiset Ordinal.{0}}
    (less : dues' ≤ dues) : AtMost (pending', dues') (pending, dues) := by
  obtain ⟨paid, rfl⟩ := Multiset.le_iff_exists_add.mp less
  by_cases nothing : paid = 0
  · rcases fewer.lt_or_eq with fewer | rfl
    · exact Or.inr (lighter_of_lt fewer _ _)
    · exact Or.inl (by simp [nothing])
  · have lighter : Lighter (pending', dues' + 0) (pending, dues' + paid) := lighter_of_replaced fewer nothing (by simp)
    exact Or.inr (by simpa using lighter)

end Load

namespace Machine

/-- What is left to do for a thread on a machine. -/
noncomputable def load (machine : Machine) (thread : Thread) : Load :=
  (machine.pendingSlots, machine.dues + (thread.control.due + duesOf thread.frames))

/-- No definition of another thread is in progress. -/
def Solitary (machine : Machine) : Prop := ∀ slot owner, machine.slots slot = .running owner → owner = 0

section
variable {machine machine' : Machine} {thread thread' : Thread} {control : Control} {amount owed : Ordinal.{0}}

/-- What a thread owes for its next move is replaced by less. -/
theorem lighter_of_moved (fewer : machine'.pendingSlots ≤ machine.pendingSlots) (owes : thread.control.due = {amount})
    (less : Multiset Ordinal.{0})
    (dues : machine'.dues + (thread'.control.due + duesOf thread'.frames) = machine.dues + duesOf thread.frames + less)
    (smaller : ∀ due ∈ less, due < amount) : Load.Lighter (machine'.load thread') (machine.load thread) := by
  have same : machine.dues + (thread.control.due + duesOf thread.frames) = machine.dues + duesOf thread.frames + {amount} := by
    rw [owes]
    abel
  rw [load, load, dues, same]
  exact Load.lighter_of_replaced fewer (by simp) fun due member => ⟨amount, by simp, smaller due member⟩

theorem lighter_goOn (owes : thread.control.due = {amount}) (then' : control.due = {owed}) (less : owed < amount) :
    Load.Lighter (machine.load (thread.turn control)) (machine.load thread) := by
  refine lighter_of_moved le_rfl owes {owed} ?_ (by simpa using less)
  simp only [Thread.turn, then']
  abel

theorem lighter_end (owes : thread.control.due = {amount}) (nothing : control.due = 0) :
    Load.Lighter (machine.load (thread.turn control)) (machine.load thread) := by
  refine lighter_of_moved le_rfl owes 0 ?_ (by simp)
  simp only [Thread.turn, nothing]
  abel

/-- The thread asks, and goes on with the answer after that. -/
theorem lighter_push (owes : thread.control.due = {amount}) {next : Outcome → Demand} (asks : control.due = {owed})
    (less : owed < amount) (after : Demand.rankAfter next < amount) :
    Load.Lighter (machine.load (thread.push (.resume next) control)) (machine.load thread) := by
  refine lighter_of_moved le_rfl owes ({owed} + {Demand.rankAfter next}) ?_ fun due member => ?_
  · simp only [Thread.push, asks, duesOf_cons, Frame.due]
    abel
  · rcases Multiset.mem_add.mp member with member | member
    · exact Multiset.mem_singleton.mp member ▸ less
    · exact Multiset.mem_singleton.mp member ▸ after

/-- To meet a demand that is not to settle a reference makes the load lighter. -/
theorem lighter_meet {demand : Demand} (meets : thread.control = .meet demand)
    (straight : ∀ reference next, demand ≠ .settle (.lazy reference) next) :
    Load.Lighter ((machine.meet thread demand).1.load (machine.meet thread demand).2) (machine.load thread) := by
  have owes : thread.control.due = {demand.rank} := by rw [meets]; rfl
  have after (next : Outcome → Demand) (outcome : Outcome) := Demand.rank_le_rankAfter next outcome
  have once (amount : Ordinal.{0}) : amount < amount + 1 := lt_add_one amount
  have twice (amount : Ordinal.{0}) : amount < amount + 1 + 1 := (once _).trans (once _)
  have thrice (amount : Ordinal.{0}) : amount < amount + 1 + 1 + 1 := (twice _).trans (once _)
  fun_cases Machine.meet machine thread demand with
  | case1 outcome => exact lighter_end owes rfl
  | case2 => exact lighter_end owes rfl
  | case3 view name next slot shows | case5 env name layer next slot shows =>
    exact lighter_push owes rfl (le_add_self.trans_lt (once _)) (twice _)
  | case4 view name next hidden | case6 env name layer next hidden =>
    exact lighter_goOn owes rfl ((after next _).trans_lt (twice _))
  | case7 view name next | case8 env name layer next =>
    exact lighter_goOn owes rfl ((Ordinal.le_iSup (fun answer => (next answer).rank) _).trans_lt (once _))
  | case9 view name next environment found => exact lighter_goOn owes rfl (once _)
  | case10 view name next dropped | case11 component next => exact lighter_goOn owes rfl ((after next _).trans_lt (thrice _))
  | case12 input cell next => exact lighter_push owes rfl (bot_le.trans_lt (once _)) (thrice _)
  | case13 reference next => exact absurd rfl (straight reference next)
  | case14 component next other => exact lighter_goOn owes rfl ((after next _).trans_lt (once _))
  | case15 input view body next larger cell made =>
    cases made
    have makes : body.rank + 1 < (Demand.allot input view body next).rank := lt_max_of_lt_left (once _)
    have onwards (cell : CellId) : (next cell).rank < (Demand.allot input view body next).rank :=
      lt_max_of_lt_right ((Ordinal.le_iSup (fun cell => (next cell).rank) cell).trans_lt (once _))
    refine lighter_of_moved le_rfl owes
      ({body.rank + 1} + {(next ⟨thread.origin, machine.cellsMade thread.origin⟩).rank}) ?_ fun due member => ?_
    · refine (congrArg (· + _) (dues_allot machine thread.origin input view body)).trans ?_
      simp only [Thread.turn, Control.due]
      abel
    · rcases Multiset.mem_add.mp member with member | member
      · exact Multiset.mem_singleton.mp member ▸ makes
      · exact Multiset.mem_singleton.mp member ▸ onwards _
  | case16 label next =>
    have less : next.rank < (Demand.mark label next).rank := once _
    refine lighter_of_moved le_rfl owes {next.rank} ?_ fun due member => Multiset.mem_singleton.mp member ▸ less
    simp only [Thread.turn, Control.due]
    exact (add_left_comm _ _ _).trans (add_comm _ _)
  | case17 next => exact lighter_goOn owes rfl (once _)

theorem lighter_enter (solitary : machine.Solitary) {slot : SlotId} (enters : thread.control = .enter slot) :
    Load.Lighter ((machine.enter 0 thread slot).1.load (machine.enter 0 thread slot).2) (machine.load thread) := by
  have owes : thread.control.due = {1} := by rw [enters]; rfl
  fun_cases Machine.enter machine 0 thread slot with
  | case1 outcome known => exact lighter_end owes rfl
  | case2 pending =>
    by_cases member : slot ∈ machine.slotIds
    · exact Load.lighter_of_lt (pendingSlots_setSlot member pending 0) _ _
    · refine lighter_of_moved (pendingSlots_le rfl fun other still => ?_) owes {0} ?_ (by simp)
      · rw [slots_setSlot] at still
        split at still
        · cases still
        · exact still
      · simp only [Thread.push, definition_of_not_mem member, Demand.fail, Control.due, Demand.rank, duesOf_cons, Frame.due,
          zero_add]
        rw [show (machine.setSlot slot (.running 0)).dues = machine.dues from rfl]
        abel
  | case3 own => exact lighter_end owes rfl
  | case4 owner running other => exact absurd (solitary slot owner running) other
  | case5 owner running other => exact absurd (solitary slot owner running) other

/-- A default owes more than its body, so to begin it makes the load lighter. -/
theorem lighter_begin {id : CellId} {cell : Cell} (found : machine.cell? id = some cell) (pending : cell.progress = .pending)
    (rest : Multiset Ordinal.{0}) :
    Load.Lighter ((machine.setCell id (.running 0)).pendingSlots,
      (machine.setCell id (.running 0)).dues + ({(machine.cellDemand cell).rank} + rest))
      (machine.pendingSlots, machine.dues + rest) := by
  have small : (machine.cellDemand cell).rank < cell.body.rank + 1 := by
    unfold Machine.cellDemand
    split
    · exact lt_add_one _
    · exact bot_le.trans_lt (lt_add_one _)
  obtain ⟨others, split⟩ := Multiset.le_iff_exists_add.mp (dues_begin found pending 0)
  have dues : machine.dues + rest = (machine.setCell id (.running 0)).dues + rest + ({cell.body.rank + 1} + others) := by
    rw [split]
    abel
  have dues' : (machine.setCell id (.running 0)).dues + ({(machine.cellDemand cell).rank} + rest) =
      (machine.setCell id (.running 0)).dues + rest + {(machine.cellDemand cell).rank} := by abel
  have fewer : (machine.setCell id (.running 0)).pendingSlots ≤ machine.pendingSlots := pendingSlots_le rfl fun _ still => still
  rw [dues, dues']
  refine Load.lighter_of_replaced fewer (by simp) fun due member => ⟨cell.body.rank + 1, by simp, ?_⟩
  exact Multiset.mem_singleton.mp member ▸ small

theorem lighter_fill {cell : CellId} (uses : thread.control = .fill cell) (idle : machine.isFilling cell = false) :
    Load.Lighter ((machine.fill 0 thread cell).1.load (machine.fill 0 thread cell).2) (machine.load thread) := by
  have owes : thread.control.due = {0} := by rw [uses]; rfl
  unfold Machine.fill
  split
  next missing => exact lighter_end owes rfl
  next content found =>
    split
    next outcome known => exact lighter_end owes rfl
    next owner running =>
      obtain ⟨input, env, body, progress⟩ := content
      simp only at running
      simp [isFilling, found, running] at idle
    next pending =>
      have begins := lighter_begin found pending (duesOf thread.frames)
      have more : Load.AtMost (machine.pendingSlots, machine.dues + duesOf thread.frames) (machine.load thread) := by
        refine Load.atMost_of_le le_rfl (add_le_add_right ?_ _)
        exact Multiset.le_add_left _ _
      simpa [load, Thread.push, Control.due, Frame.due] using begins.atMost more

/-- To give an outcome to a frame leaves no more to do. -/
theorem atMost_handOver {outcome : Outcome} {frame : Frame} {frames : List Frame} (yields : thread.control = .yield outcome)
    (held : thread.frames = frame :: frames) :
    Load.AtMost ((machine.handOver outcome frames frame).1.load (machine.handOver outcome frames frame).2)
      (machine.load thread) := by
  cases frame with
  | slot slot =>
    simp only [Machine.handOver, load, yields, held, Control.due, duesOf_cons, Frame.due, zero_add]
    have fewer : (machine.publish slot outcome).pendingSlots ≤ machine.pendingSlots := by
      refine pendingSlots_le rfl fun other still => ?_
      rw [slots_publish] at still
      split at still
      · cases still
      · exact still
    exact Load.atMost_of_le fewer le_rfl
  | cell cell =>
    simp only [Machine.handOver, load, yields, held, Control.due, duesOf_cons, Frame.due, zero_add]
    refine Load.atMost_of_le (pendingSlots_le rfl fun _ => id) ?_
    exact add_le_add_left (dues_setCell_le machine cell (by simp)) _
  | resume next =>
    simp only [Machine.handOver, load, yields, held, Control.due, duesOf_cons, Frame.due, zero_add]
    have less := Demand.rank_le_rankAfter next outcome
    rcases less.lt_or_eq with less | same
    · refine Or.inr ?_
      rw [add_comm {(next outcome).rank}, add_comm {Demand.rankAfter next}, ← add_assoc, ← add_assoc]
      refine Load.lighter_of_replaced le_rfl (by simp) fun due member => ⟨Demand.rankAfter next, by simp, ?_⟩
      exact Multiset.mem_singleton.mp member ▸ less
    · exact Or.inl (by rw [same])

theorem Solitary.step (solitary : machine.Solitary) (thread : Thread) : (machine.step 0 thread).1.Solitary := by
  have effect := step_effect machine 0 thread
  generalize machine.step 0 thread = result at effect
  intro slot owner running
  cases effect with
  | quiet slots waits forcing awake stillAwake silent => exact solitary slot owner (by simpa [slots] using running)
  | start begun enters pending =>
    rw [slots_setSlot] at running
    split at running
    · cases running
      rfl
    · exact solitary slot owner running
  | sleep other owner' enters running' apart clear => exact solitary slot owner running
  | wake other asleep => exact solitary slot owner running
  | publish left outcome frames control publishes held next =>
    rw [slots_publish] at running
    split at running
    · cases running
    · exact solitary slot owner running

/-- What is left to do for a thread on a machine, and the number of its frames. -/
noncomputable def weight (machine : Machine) (thread : Thread) : Load × Nat := (machine.load thread, thread.frames.length)

/-- The load is lighter, or it is the same and there are fewer frames. -/
def Eases : Load × Nat → Load × Nat → Prop := Prod.Lex Load.Lighter (· < ·)

theorem eases_wf : WellFounded Eases := WellFounded.prod_lex Load.lighter_wf wellFounded_lt

theorem eases_of_lighter (lighter : Load.Lighter (machine'.load thread') (machine.load thread)) :
    Eases (machine'.weight thread') (machine.weight thread) := Prod.Lex.left _ _ lighter

theorem atMost_of_eases (eases : Eases (machine'.weight thread') (machine.weight thread)) :
    Load.AtMost (machine'.load thread') (machine.load thread) := by
  rcases (Prod.lex_def.mp eases : _ ∨ _) with lighter | ⟨same, _⟩
  · exact Or.inr lighter
  · exact Or.inl same

/-- A move eases the thread, unless it settles a reference, crashes or has no frames to go on with. -/
theorem step_eases (solitary : machine.Solitary)
    (moves : machine.standing 0 thread = .moving ∨ machine.standing 0 thread = .resting)
    (straight : ∀ reference next, thread.control ≠ .meet (.settle (.lazy reference) next)) (alive : thread.control ≠ .unwind) :
    Eases ((machine.step 0 thread).1.weight (machine.step 0 thread).2) (machine.weight thread) := by
  obtain ⟨control, frames⟩ := thread
  cases control with
  | meet demand => exact eases_of_lighter (lighter_meet rfl fun reference next same => straight reference next (by rw [same]))
  | enter slot => exact eases_of_lighter (lighter_enter solitary rfl)
  | fill cell =>
    cases busy : machine.isFilling cell with
    | true => simp [Machine.standing, busy] at moves
    | false => exact eases_of_lighter (lighter_fill rfl busy)
  | yield outcome =>
    cases frames with
    | nil => simp [Machine.standing] at moves
    | cons frame frames =>
      have fewer : ((machine.handOver outcome frames frame).2).frames.length < (frame :: frames).length := by
        cases frame <;> simp [Machine.handOver]
      rcases atMost_handOver (rfl : (⟨.yield outcome, frame :: frames⟩ : Thread).control = _) rfl with same | lighter
      · exact Prod.lex_def.mpr (Or.inr ⟨same, fewer⟩)
      · exact eases_of_lighter lighter
  | unwind => exact absurd rfl alive
  | blocked slot =>
    have same : (machine.clearWait 0).load ⟨.blocked slot, frames⟩ = machine.load ⟨.blocked slot, frames⟩ := rfl
    exact eases_of_lighter (same ▸ lighter_goOn rfl rfl (lt_add_one _))
  | paused demand => exact eases_of_lighter (lighter_goOn rfl rfl (lt_add_one _))

end

end Machine
end Pkgset

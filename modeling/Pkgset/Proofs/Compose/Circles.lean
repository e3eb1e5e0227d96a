import Mathlib.Data.List.Chain
import Pkgset.Proofs.Compose.Following

/-!
# Circles of computations

A computation without an outcome that gets as far as a question to another one of that
kind hangs on it, and on no other. So the computations that hang on each other form paths,
and a path that comes to a circle goes round in it. It enters the circle at one place, the
first computation on the way that hangs on itself.
-/

namespace Pkgset
open Relation

namespace World

/-- A computation asks for one that has no outcome, and goes no further. -/
def Hangs (world : World) (origin asked : Origin) : Prop := world.Asks origin asked ∧ world.Stuck asked

/-- A computation hangs on itself, through others. -/
def Circular (world : World) (origin : Origin) : Prop := TransGen world.Hangs origin origin

/-- The first computation on the way from one that hangs on itself. -/
inductive Enters (world : World) : Origin → Origin → Prop where
  | here {origin : Origin} (circular : world.Circular origin) : Enters world origin origin
  | later {origin asked entrance : Origin} (straight : ¬ world.Circular origin) (hangs : world.Hangs origin asked)
      (enters : Enters world asked entrance) : Enters world origin entrance

section
variable {world : World} {origin asked other entrance : Origin}

/-- A computation hangs on one other at most. -/
theorem Hangs.unique (hangs : world.Hangs origin asked) (hangs' : world.Hangs origin other) : asked = other := by
  obtain ⟨⟨made, demand, next, reaches, asks⟩, stuck⟩ := hangs
  obtain ⟨⟨made', demand', next', reaches', asks'⟩, stuck'⟩ := hangs'
  rcases reaches.comparable reaches' with leads | leads
  · rcases leads.of_question asks with same | ⟨answer, result, _⟩
    · cases same
      cases asks.symm.trans asks'
      rfl
    · exact absurd result (stuck answer)
  · rcases leads.of_question asks' with same | ⟨answer, result, _⟩
    · cases same
      cases asks.symm.trans asks'
      rfl
    · exact absurd result (stuck' answer)

/-- What asks through others for a computation without an outcome hangs on it. -/
theorem Stuck.hangs (stuck : world.Stuck asked) (path : TransGen world.Asks origin asked) :
    TransGen world.Hangs origin asked := by
  induction path with
  | single asks => exact .single ⟨asks, stuck⟩
  | tail _ asks ih => exact (ih (stuck.of_asks asks)).tail ⟨asks, stuck⟩

/-- The way from a computation that hangs on itself comes back to it. -/
theorem Circular.back (circular : world.Circular origin) (path : ReflTransGen world.Hangs origin other) :
    TransGen world.Hangs other origin := by
  induction path with
  | refl => exact circular
  | tail _ hangs ih =>
    obtain ⟨after, first, rest⟩ := TransGen.head'_iff.mp ih
    cases first.unique hangs
    exact TransGen.trans_right rest circular

/-- What a circular computation leads to is circular. -/
theorem Circular.of_path (circular : world.Circular origin) (path : ReflTransGen world.Hangs origin other) :
    world.Circular other := (circular.back path).trans_left path

/-- A circle is entered at one place. -/
theorem Enters.unique (enters : world.Enters origin entrance) (enters' : world.Enters origin other) :
    entrance = other := by
  induction enters with
  | here circular =>
    cases enters' with
    | here _ => rfl
    | later straight _ _ => exact absurd circular straight
  | later straight hangs _ ih =>
    cases enters' with
    | here circular => exact absurd circular straight
    | later _ hangs' rest =>
      cases hangs.unique hangs'
      exact ih rest

theorem Enters.circular (enters : world.Enters origin entrance) : world.Circular entrance := by
  induction enters with
  | here circular => exact circular
  | later _ _ _ ih => exact ih

theorem Enters.path (enters : world.Enters origin entrance) : ReflTransGen world.Hangs origin entrance := by
  induction enters with
  | here _ => exact .refl
  | later _ hangs _ ih => exact ih.head hangs

/-! ### Chains -/

/-- Computations of which each is hung on by the next. -/
abbrev Chain (world : World) (chain : List Origin) : Prop := chain.IsChain fun asked origin => world.Hangs origin asked

/-- A computation of a chain hangs on one before it. -/
theorem Chain.exists_before {chain : List Origin} (hung : world.Chain (asked :: chain)) (member : origin ∈ chain) :
    ∃ before ∈ (asked :: chain).dropLast, world.Hangs origin before := by
  induction chain generalizing asked with
  | nil => cases member
  | cons first rest ih =>
    obtain ⟨hangs, later⟩ := List.isChain_cons_cons.mp hung
    rcases List.mem_cons.mp member with rfl | member
    · exact ⟨asked, by simp, hangs⟩
    · obtain ⟨before, inside, hangs⟩ := ih later member
      exact ⟨before, by simpa using Or.inr inside, hangs⟩

/-- The computations of a chain hang on its start. -/
theorem Chain.path {chain : List Origin} (hung : world.Chain (asked :: chain)) (member : origin ∈ chain) :
    TransGen world.Hangs origin asked := by
  induction chain generalizing asked with
  | nil => cases member
  | cons first rest ih =>
    obtain ⟨hangs, later⟩ := List.isChain_cons_cons.mp hung
    rcases List.mem_cons.mp member with rfl | member
    · exact .single hangs
    · exact (ih later member).tail hangs

/-- From the end of a chain of which only the start may be circular, a circle is entered
    where it is entered from the start. -/
theorem Enters.of_chain {chain : List Origin} (enters : world.Enters origin entrance) (hung : world.Chain (origin :: chain))
    (straight : ∀ other ∈ chain, ¬ world.Circular other) (last : (origin :: chain).getLast? = some other) :
    world.Enters other entrance := by
  induction chain generalizing origin with
  | nil =>
    cases last
    exact enters
  | cons first rest ih =>
    obtain ⟨hangs, later⟩ := List.isChain_cons_cons.mp hung
    rw [List.getLast?_cons_cons] at last
    exact ih (.later (straight first (by simp)) hangs enters) later (fun other member => straight other (by simp [member]))
      last

/-- What a chain that comes back to its start leads to from there is on the way back. -/
private theorem mem_of_path {above : List Origin} (hung : world.Chain (asked :: (above ++ [asked])))
    (path : ReflTransGen world.Hangs asked other) : other ∈ asked :: above := by
  induction path with
  | refl => simp
  | tail _ hangs ih =>
    obtain ⟨before, inside, hangs'⟩ := hung.exists_before (by simpa [or_comm] using ih)
    rw [← List.cons_append, List.dropLast_concat] at inside
    exact hangs.unique hangs' ▸ inside

/-- A chain without repetitions that comes back to its start enters its circle there. -/
theorem enters_of_chain {above below : List Origin} (hung : world.Chain (asked :: (above ++ asked :: below)))
    (distinct : (above ++ asked :: below).Nodup) (last : (asked :: below).getLast? = some origin) :
    world.Enters origin asked := by
  have circular : world.Circular asked := hung.path (by simp)
  have round : world.Chain (asked :: (above ++ [asked])) := by
    refine List.IsChain.prefix hung ⟨below, ?_⟩
    simp
  have rest : world.Chain (asked :: below) := List.IsChain.suffix hung ⟨asked :: above, by simp⟩
  refine (Enters.here circular).of_chain rest (fun other member circle => ?_) last
  have around := mem_of_path round (circle.back (rest.path member).to_reflTransGen).to_reflTransGen
  obtain ⟨_, once, apart⟩ := List.nodup_append.mp distinct
  rcases List.mem_cons.mp around with rfl | inside
  · exact (List.nodup_cons.mp once).1 member
  · exact apart other inside other (List.mem_cons_of_mem _ member) rfl

end
end World

namespace Awaits
variable {world : World} {made : Origin → Nat} {inquiry : Inquiry} {asked : Origin} {frames : List Frame}

/-- Frames that wait for a computation without an outcome are a chain, from that computation
    down to the one that the inquiry is for. -/
theorem chain (awaits : Awaits world made inquiry asked frames) (stuck : world.Stuck asked) :
    world.Chain (asked :: frames.filterMap Frame.origin?) ∧
      ∃ slot, world.final? inquiry.view inquiry.name = some slot ∧
        (asked :: frames.filterMap Frame.origin?).getLast? = some (.slot slot) := by
  induction awaits with
  | inquiry shows => exact ⟨List.isChain_singleton _, _, shows, rfl⟩
  | @question origin asked demand next frame frames is reaches asks below ih =>
    have edge : world.Asks origin asked := ⟨_, demand, next, reaches, asks⟩
    obtain ⟨hung, slot, shows, last⟩ := ih (stuck.of_asks edge)
    have origins : (Frame.resume next :: frame :: frames).filterMap Frame.origin? =
        origin :: frames.filterMap Frame.origin? := by
      simp [List.filterMap_cons, is]
    refine ⟨?_, slot, shows, ?_⟩
    · rw [origins]
      exact List.isChain_cons_cons.mpr ⟨⟨edge, stuck⟩, hung⟩
    · rw [origins, List.getLast?_cons_cons]
      exact last

end Awaits
end Pkgset

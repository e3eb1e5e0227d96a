import Pkgset.Proofs.Compose.Once

/-!
# What the error of a cycle says

A thread that enters a definition of its own gets an error with a chain of names. The
chain starts at the innermost frame that has the environment and the name of the
definition. Layers share names, so this may be the frame of another layer: then what lies
between the two is missing from the chain.
-/

namespace Pkgset
open Machine

/-- Two definitions of one name of one environment, perhaps in different layers. -/
def SlotId.Alike (slot other : SlotId) : Prop := other.env = slot.env ∧ other.name = slot.name

namespace Thread

/-- The definitions that the thread has begun within a definition, the innermost first. -/
def within (thread : Thread) (slot : SlotId) : List SlotId := thread.forcing.takeWhile (· ≠ slot)

/-- The names of the frames from that of a definition up to the top. -/
def namesFrom (thread : Thread) (slot : SlotId) : List String :=
  ((thread.within slot ++ [slot]).map (·.name)).reverse

theorem within_of_forcing {thread : Thread} {slot : SlotId} {above below : List SlotId}
    (forcing : thread.forcing = above ++ slot :: below) (apart : slot ∉ above) : thread.within slot = above := by
  have differs : ∀ other ∈ above, decide (other ≠ slot) = true := by
    intro other member
    simpa using ne_of_mem_of_not_mem member apart
  rw [within, forcing, List.takeWhile_append_of_pos differs]
  simp

/-- The frames that a chain is read off end at the innermost one of an environment and a
    name. -/
theorem exists_of_since? {env : EnvId} {name : String} {frames found : List SlotId}
    (since : since? env name frames = some found) :
    ∃ above nearest below, frames = above ++ nearest :: below ∧ found = above ++ [nearest] ∧
      (nearest.env = env ∧ nearest.name = name) ∧ ∀ other ∈ above, ¬ (other.env = env ∧ other.name = name) := by
  induction frames generalizing found with
  | nil => cases since
  | cons slot outer ih =>
    rw [since?] at since
    split at since
    next here =>
      cases since
      exact ⟨[], slot, outer, rfl, rfl, here, by simp⟩
    next elsewhere =>
      obtain ⟨rest, since', rfl⟩ := Option.map_eq_some_iff.mp since
      obtain ⟨above, nearest, below, rfl, rfl, here, none⟩ := ih since'
      exact ⟨slot :: above, nearest, below, rfl, rfl, here, List.forall_mem_cons.mpr ⟨elsewhere, none⟩⟩

theorem isSome_since? {env : EnvId} {name : String} {frames : List SlotId}
    (some : ∃ slot ∈ frames, slot.env = env ∧ slot.name = name) : (since? env name frames).isSome := by
  induction frames with
  | nil => simp at some
  | cons slot outer ih =>
    rw [since?]
    split
    next => rfl
    next elsewhere =>
      have later : ∃ slot ∈ outer, slot.env = env ∧ slot.name = name := by simpa [elsewhere] using some
      simpa using ih later

/-- The chain of a cycle starts at the innermost frame that is alike. -/
theorem ownChain_eq {thread : Thread} {slot : SlotId} (inside : slot ∈ thread.forcing) :
    ∃ nearest ∈ thread.forcing, slot.Alike nearest ∧ (∀ other ∈ thread.within nearest, ¬ slot.Alike other) ∧
      thread.ownChain slot = thread.namesFrom nearest ++ [slot.name] := by
  obtain ⟨frames, since⟩ := Option.isSome_iff_exists.mp (isSome_since? ⟨slot, inside, rfl, rfl⟩)
  obtain ⟨above, nearest, below, forcing, rfl, alike, none⟩ := exists_of_since? since
  have within : thread.within nearest = above := within_of_forcing forcing fun member => none nearest member alike
  refine ⟨nearest, by simp [forcing], alike, within ▸ none, ?_⟩
  simp [ownChain, namesSince?, since, namesFrom, within]

/-- A definition that is not within another one lies further out: the frames from it on
    begin with frames that those from the other one lack. -/
theorem namesFrom_of_outer {thread : Thread} {slot nearest : SlotId} (inside : slot ∈ thread.forcing)
    (there : nearest ∈ thread.forcing) (outer : slot ∉ thread.within nearest) (apart : slot ≠ nearest) :
    nearest ∈ thread.within slot ∧ ∃ skipped ≠ [], thread.namesFrom slot = skipped ++ thread.namesFrom nearest := by
  obtain ⟨above, below, forcing, fresh⟩ := List.eq_append_cons_of_mem there
  rw [within_of_forcing forcing fresh] at outer
  have further : slot ∈ below := by simpa [forcing, outer, apart] using inside
  obtain ⟨between, rest, rfl, first⟩ := List.eq_append_cons_of_mem further
  have whole : thread.forcing = (above ++ nearest :: between) ++ slot :: rest := by simp [forcing]
  have within : thread.within slot = above ++ nearest :: between := within_of_forcing whole (by simp [outer, apart, first])
  refine ⟨by simp [within], ((between ++ [slot]).map (·.name)).reverse, by simp, ?_⟩
  simp [namesFrom, within, within_of_forcing forcing fresh]

/-- The chain of a cycle lists the frames from the definition on, exactly if none within it
    is alike; otherwise the first ones of them are missing. -/
theorem ownChain_suffix {thread : Thread} {slot : SlotId} (inside : slot ∈ thread.forcing) :
    thread.ownChain slot <:+ thread.namesFrom slot ++ [slot.name] ∧
      (thread.ownChain slot = thread.namesFrom slot ++ [slot.name] ↔ ∀ other ∈ thread.within slot, ¬ slot.Alike other) := by
  obtain ⟨nearest, there, alike, none, chain⟩ := ownChain_eq inside
  by_cases same : slot = nearest
  · subst same
    exact ⟨by simp [chain], iff_of_true chain none⟩
  · have outer : slot ∉ thread.within nearest := fun member => none slot member ⟨rfl, rfl⟩
    obtain ⟨member, skipped, some, names⟩ := namesFrom_of_outer inside there outer same
    refine ⟨⟨skipped, by simp [chain, names]⟩, iff_of_false ?_ fun free => free nearest member alike⟩
    simpa [chain, names] using some

end Thread

/-- However threads are interleaved, a thread that enters a definition that it is computing
    gets the error of a cycle at once. The error names the definition. Its chain are the names
    of the frames from the innermost one that has the environment and the name of the
    definition, up to the top, and then the name. So the last part of what the thread does
    from the definition on is listed; all of it is, exactly if no other layer's definition of
    the name is computed within it. -/
theorem Pool.Idle.names_cycle {pool : Pool} (idle : pool.Idle) (interleaving : List ThreadId) :
    let reached := pool.run interleaving
    ∀ id slot, (reached.threads id).control = .enter slot → reached.machine.slots slot = .running id →
      let thread := reached.threads id
      slot ∈ thread.forcing ∧ ∃ chain,
        (reached.step id).threads id = ⟨.yield (.error (.evaluationCycle slot.name chain)), thread.frames⟩ ∧
        (∃ nearest ∈ thread.forcing, slot.Alike nearest ∧ (∀ other ∈ thread.within nearest, ¬ slot.Alike other) ∧
          chain = thread.namesFrom nearest ++ [slot.name]) ∧
        chain <:+ thread.namesFrom slot ++ [slot.name] ∧
        (chain = thread.namesFrom slot ++ [slot.name] ↔ ∀ other ∈ thread.within slot, ¬ slot.Alike other) := by
  intro reached id slot enters own thread
  have orderly : reached.Orderly := run_keeps (fun _ id orderly => orderly.step id) idle.orderly interleaving
  have inside : slot ∈ thread.forcing := orderly.held slot id own
  refine ⟨inside, thread.ownChain slot, ?_, Thread.ownChain_eq inside, Thread.ownChain_suffix inside⟩
  rw [threads_step_self]
  simp only [Machine.step, enters, Machine.enter, own, ↓reduceIte]
  rfl

/-! ### Two layers of one name

A layer wraps an entry through another entry, which shows what the base has made of the
first one. What the base asks for is a parameter. -/

namespace Layered

/-- The environment of a base definition that asks for a name, and of an overlay. -/
def environment (asked : String) : Environment :=
  .compose "layered" ⟨[("x", (Descriptor.new "x" .library fun inputs => inputs.get asked).requires asked)]⟩
    [⟨"wrapping", [.define "x" none fun scope => scope.get "a", .define "a" none fun scope => scope.prev "x"]⟩]

/-- A thread that gets the wrapped entry, alone. -/
def pool (asked : String) : Pool where
  machine := { Machine.empty with environments := [some (environment asked)] }
  threads _ := .start (.get (.whole 1) "x" .done)

theorem idle (asked : String) : (pool asked).Idle := by
  refine ⟨rfl, fun slot owner running => ?_, fun id => ⟨_, rfl⟩⟩
  cases running

/-- If the base asks for the wrapped entry, the cycle goes through the overlay's definition
    of the name and the base's one. The chain starts at the latter: the overlay's frame and
    the entry between the two, through which the cycle goes, are not listed. -/
theorem chain_skips :
    let reached := (pool "x").run (List.replicate 8 0)
    let slot : SlotId := ⟨1, "x", 1⟩
    (reached.threads 0).control = .enter slot ∧ reached.machine.slots slot = .running 0 ∧
      (reached.threads 0).namesFrom slot ++ ["x"] = ["x", "a", "x", "x"] ∧
      ((reached.step 0).threads 0).control = .yield (.error (.evaluationCycle "x" ["x", "x"])) :=
  ⟨rfl, rfl, rfl, rfl⟩

/-- If the base asks for the entry between them, the chain is all of the cycle, although
    two layers of the other name are being computed. -/
theorem names_cycle_between :
    let reached := (pool "a").run (List.replicate 8 0)
    let slot : SlotId := ⟨1, "a", 1⟩
    (reached.threads 0).forcing = [⟨1, "x", 0⟩, slot, ⟨1, "x", 1⟩] ∧
      ((reached.step 0).threads 0).control = .yield (.error (.evaluationCycle "a" ["a", "x", "a"])) := by
  intro reached slot
  obtain ⟨_, chain, refused, _, _, whole⟩ := (idle "a").names_cycle (List.replicate 8 0) 0 slot rfl rfl
  have free : ∀ other ∈ (reached.threads 0).within slot, ¬ slot.Alike other := by
    rw [show (reached.threads 0).within slot = [⟨1, "x", 0⟩] from rfl]
    simp [SlotId.Alike, slot]
  have names : (reached.threads 0).namesFrom slot = ["a", "x"] := rfl
  refine ⟨rfl, ?_⟩
  rw [refused, whole.mpr free, names]
  rfl

end Layered
end Pkgset

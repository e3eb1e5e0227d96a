import Pkgset.Kernel.Activity

/-!
# Schedules

Processes take turns: one moves until it waits, ends or has used up its slice of time.
When all wait, time goes on to the first moment that one of them waits for.
-/

namespace Pkgset.Kernel

/-- Processes in the order of their turns. -/
abbrev Turns := List (ProcessId × Activity)

namespace Schedule

/-- The number of changes of the world in a slice of time. -/
def slice : Nat := 20000

/-- How long a change of the world takes, in nanoseconds. -/
def tick : Int := 1000

/-- Whether a process has ended and nobody writes to whoever has started it. -/
def isOver (world : World) (first : ProcessId) : Bool :=
  world.hasEnded first && !world.holds fun stream => stream.source = .outside && stream.writes

/-- The first moment that one of several processes waits for. -/
def nextWake? (turns : Turns) : Option Int :=
  turns.foldl (fun earliest (_, activity) =>
    match activity, earliest with
    | .await (some wake) _ _, some other => some (min wake other)
    | .await (some wake) _ _, none => some wake
    | _, _ => earliest) none

/-- Lets processes move until the first one is over, within a number of moves. The
    slice is what is left of the turn, and the idle ones are those found waiting since
    the last change. -/
def run (first : ProcessId) : Nat → Nat → Nat → World → Turns → World
  | 0, _, _, world, _ => world
  | _, _, _, world, [] => world
  | bound + 1, left, idle, world, (id, activity) :: others =>
    if world.hasEnded id then
      if isOver world first then world else run first bound slice 0 world others
    else match activity with
    | .ended ending => run first bound slice 0 (world.finish id ending) ((id, .ended ending) :: others)
    | .act change =>
      let (world, next) := change { world with now := world.now + tick }
      match left with
      | 0 => run first bound slice 0 world (others ++ [(id, next)])
      | left + 1 => run first bound left 0 world ((id, next) :: others)
    | .fork child next =>
      let (world, made) := world.fork id
      run first bound left 0 world ((id, next made) :: others ++ [(made, child made)])
    | .await wake ready next =>
      if ready world || wake.any (· ≤ world.now) then run first bound left 0 world ((id, next) :: others)
      else
        let turns := others ++ [(id, activity)]
        if idle < others.length then run first bound slice (idle + 1) world turns
        else match nextWake? turns with
          | some wake => run first bound slice 0 { world with now := max world.now wake } turns
          | none => world

/-- The most moves that are made. -/
def moveLimit : Nat := 200000000

/-- Runs an activity as the first process of a world, and tells how it has ended. A
    process that never ends counts as killed. -/
def outcome (world : World) (first : ProcessId) (activity : Activity) : World × Exit :=
  let world := run first moveLimit slice 0 world [(first, activity)]
  (world, ((world.record? first).bind (·.ending)).getD (.killed 9))

end Schedule
end Pkgset.Kernel

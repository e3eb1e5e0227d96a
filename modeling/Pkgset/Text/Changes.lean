import Pkgset.Text.Dict

/-!
# Changes between texts

Two texts are compared line by line. The lines that both have in the same order are a
shortest way from one text to the other: it is searched for from both ends at once, up to
where the two searches meet, and then again on both sides of that point. Runs of changed
lines are moved towards the end as far as the lines allow it.
-/

namespace Pkgset

/-- A change: some lines from a place on give way to lines of another text. -/
structure Change where
  old : Nat
  removed : Nat
  new : Nat
  added : Nat
  deriving DecidableEq, Repr

namespace Changes

/-- How far a search has come on each diagonal; diagonals are counted from the lowest one,
    and one more on each side of a search is known to be out of reach. -/
structure Front where
  low : Int
  high : Int
  reached : Array Int

/-- The place that a search has reached on a diagonal. -/
def Front.at_ (front : Front) (base : Nat) (diagonal : Int) : Int := front.reached.getD (diagonal + base).toNat 0

/-- Notes the place that a search has reached on a diagonal. -/
def Front.note (front : Front) (base : Nat) (diagonal place : Int) : Front :=
  { front with reached := front.reached.setIfInBounds (diagonal + base).toNat place }

/-- Widens a search by a diagonal on each side, or narrows it at the edges. What is out of
    reach has the given value. -/
def Front.widen (front : Front) (base : Nat) (least most out : Int) : Front :=
  let front := if least < front.low then ({ front with low := front.low - 1 } : Front).note base (front.low - 2) out
    else { front with low := front.low + 1 }
  if front.high < most then ({ front with high := front.high + 1 } : Front).note base (front.high + 2) out
  else { front with high := front.high - 1 }

/-- The part of two texts that is compared. -/
structure Box where
  left : Nat
  right : Nat
  top : Nat
  bottom : Nat

/-- Follows equal lines forward, within a number of them. -/
def slide (old new : Array Nat) (box : Box) (diagonal : Int) : Nat → Int → Int
  | 0, x => x
  | bound + 1, x =>
    let y := x - diagonal
    if 0 ≤ x && x < box.right && 0 ≤ y && y < box.bottom && old.getD x.toNat 0 = new.getD y.toNat 0 then
      slide old new box diagonal bound (x + 1)
    else x

/-- Follows equal lines backward, within a number of them. -/
def slideBack (old new : Array Nat) (box : Box) (diagonal : Int) : Nat → Int → Int
  | 0, x => x
  | bound + 1, x =>
    let y := x - diagonal
    if box.left < x && box.top < y && old.getD (x - 1).toNat 0 = new.getD (y - 1).toNat 0 then
      slideBack old new box diagonal bound (x - 1)
    else x

/-- Takes a search one step forward on some diagonals, and gives the point at which it
    meets the other one, if it does. -/
def forward (old new : Array Nat) (box : Box) (base : Nat) (meets : Bool) (back : Front) :
    List Int → Front → Front × Option (Nat × Nat)
  | [], front => (front, none)
  | d :: rest, front =>
    let low := front.at_ base (d - 1)
    let high := front.at_ base (d + 1)
    let x := slide old new box d (old.size + 1) (if low < high then high else low + 1)
    let front := front.note base d x
    if meets && back.low ≤ d && d ≤ back.high && back.at_ base d ≤ x then (front, some (x.toNat, (x - d).toNat))
    else forward old new box base meets back rest front

/-- Takes the search from the end one step back on some diagonals, and gives the point at
    which it meets the other one, if it does. -/
def backward (old new : Array Nat) (box : Box) (base : Nat) (meets : Bool) (front : Front) :
    List Int → Front → Front × Option (Nat × Nat)
  | [], back => (back, none)
  | d :: rest, back =>
    let low := back.at_ base (d - 1)
    let high := back.at_ base (d + 1)
    let x := slideBack old new box d (old.size + 1) (if low < high then low else high - 1)
    let back := back.note base d x
    if meets && front.low ≤ d && d ≤ front.high && x ≤ front.at_ base d then (back, some (x.toNat, (x - d).toNat))
    else backward old new box base meets front rest back

/-- Every second diagonal of a search, from the highest one down. -/
def Front.diagonals (front : Front) : List Int :=
  if front.high < front.low then []
  else (List.range ((front.high - front.low).toNat / 2 + 1)).map fun n => front.high - (2 * n : Nat)

/-- The point at which searches from both ends meet, within a number of steps. -/
def meeting (old new : Array Nat) (box : Box) (base : Nat) (out : Int) : Nat → Front → Front → Nat × Nat
  | 0, _, _ => (box.right, box.bottom)
  | bound + 1, front, back =>
    let least : Int := (box.left : Int) - box.bottom
    let most : Int := (box.right : Int) - box.top
    let odd : Bool := ((box.left : Int) - box.top - ((box.right : Int) - box.bottom)) % 2 ≠ 0
    let front := front.widen base least most (-1)
    match forward old new box base odd back front.diagonals front with
    | (_, some point) => point
    | (front, none) =>
      let back := back.widen base least most out
      match backward old new box base (!odd) front back.diagonals back with
      | (_, some point) => point
      | (back, none) => meeting old new box base out bound front back

/-- The point in which a part of two texts is divided. -/
def middle (old new : Array Nat) (box : Box) : Nat × Nat :=
  let base := new.size + 2
  let size := old.size + new.size + 5
  let start (diagonal : Int) (place : Nat) : Front :=
    (⟨diagonal, diagonal, (List.replicate size (0 : Int)).toArray⟩ : Front).note base diagonal place
  meeting old new box base (size : Nat) size (start ((box.left : Int) - box.top) box.left)
    (start ((box.right : Int) - box.bottom) box.right)

/-- The lines that two texts do not share: their places in both, within a depth. -/
def differing (old new : Array Nat) : Nat → Box → List Nat × List Nat
  | 0, _ => ([], [])
  | bound + 1, box =>
    let left := (slide old new box ((box.left : Int) - box.top) (old.size + 1) box.left).toNat
    let box := { box with left, top := box.top + (left - box.left) }
    let right := (slideBack old new box ((box.right : Int) - box.bottom) (old.size + 1) box.right).toNat
    let box := { box with right, bottom := box.bottom - (box.right - right) }
    if box.left = box.right then ([], (List.range (box.bottom - box.top)).map (· + box.top))
    else if box.top = box.bottom then ((List.range (box.right - box.left)).map (· + box.left), [])
    else
      let (x, y) := middle old new box
      let first := differing old new bound { box with right := x, bottom := y }
      let second := differing old new bound { box with left := x, top := y }
      (first.1 ++ second.1, first.2 ++ second.2)

/-! ## Runs of changed lines -/

/-- The lines of a text, which of them have changed, and which of the other one. There is a
    line that has not changed before each of them and behind it. -/
structure Runs where
  lines : Array Nat
  changed : Array Bool
  other : Array Bool

/-- Whether a line has changed. -/
def Runs.at_ (runs : Runs) (place : Int) : Bool := runs.changed.getD (place + 1).toNat false

/-- Whether a line of the other text has changed. -/
def Runs.otherAt (runs : Runs) (place : Int) : Bool := runs.other.getD (place + 1).toNat false

/-- Notes whether a line has changed. -/
def Runs.note (runs : Runs) (place : Int) (value : Bool) : Runs :=
  { runs with changed := runs.changed.setIfInBounds (place + 1).toNat value }

/-- The first place from one on that does not pass a test, within a number of steps. -/
def past (test : Int → Bool) (step : Int) : Nat → Int → Int
  | 0, place => place
  | bound + 1, place => if test place then past test step bound (place + step) else place

/-- A run of changed lines, with the place in the other text that corresponds to its end. -/
structure Run where
  start : Int
  stop : Int
  there : Int

/-- Moves a run back while the line before it is like its last one. -/
def moveBack (size : Nat) : Nat → Runs → Run → Runs × Run
  | 0, runs, run => (runs, run)
  | bound + 1, runs, run =>
    if 0 < run.start && runs.lines.getD (run.start - 1).toNat 0 = runs.lines.getD (run.stop - 1).toNat 0 then
      let runs := (runs.note (run.start - 1) true).note (run.stop - 1) false
      let start := past (fun place => runs.at_ (place - 1)) (-1) size (run.start - 1)
      let there := past runs.otherAt (-1) size (run.there - 1)
      moveBack size bound runs ⟨start, run.stop - 1, there⟩
    else (runs, run)

/-- Moves a run forward while the line behind it is like its first one. The last place is
    kept at which the other text has changed too. -/
def moveOn (size : Nat) : Nat → Runs → Run → Int → Runs × Run × Int
  | 0, runs, run, both => (runs, run, both)
  | bound + 1, runs, run, both =>
    if run.stop < runs.lines.size && runs.lines.getD run.start.toNat 0 = runs.lines.getD run.stop.toNat 0 then
      let runs := (runs.note run.start false).note run.stop true
      let stop := past runs.at_ 1 size (run.stop + 1)
      let there := past runs.otherAt 1 size (run.there + 1)
      moveOn size bound runs ⟨run.start + 1, stop, there⟩ (if run.there + 1 < there then stop else both)
    else (runs, run, both)

/-- Moves a run to and fro until it does not grow any more. -/
def settle (size : Nat) : Nat → Runs → Run → Runs × Run × Int
  | 0, runs, run => (runs, run, runs.lines.size)
  | bound + 1, runs, run =>
    let before := run.stop - run.start
    let (runs, run) := moveBack size size runs run
    let both : Int := if runs.otherAt (run.there - 1) then run.stop else runs.lines.size
    let (runs, run, both) := moveOn size size runs run both
    if run.stop - run.start = before then (runs, run, both) else settle size bound runs run

/-- Moves a run back to where the other text has changed too. -/
def align (size : Nat) (both : Int) : Nat → Runs → Run → Runs × Run
  | 0, runs, run => (runs, run)
  | bound + 1, runs, run =>
    if both < run.stop then
      let runs := (runs.note (run.start - 1) true).note (run.stop - 1) false
      align size both bound runs ⟨run.start - 1, run.stop - 1, past runs.otherAt (-1) size (run.there - 1)⟩
    else (runs, run)

/-- Moves all runs from a place on, within a number of steps. -/
def shift (size : Nat) : Nat → Runs → Int → Int → Runs
  | 0, runs, _, _ => runs
  | bound + 1, runs, place, there =>
    if (runs.lines.size : Int) ≤ place then runs
    else if !runs.at_ place then shift size bound runs (place + 1) (past runs.otherAt 1 size there + 1)
    else
      let stop := past runs.at_ 1 size place
      let (runs, run, both) := settle size size runs ⟨place, stop, past runs.otherAt 1 size there⟩
      let (runs, run) := align size both size runs run
      shift size bound runs run.stop run.there

/-! ## Whole texts -/

/-- Which of some lines are among the given places, with one more on each side. -/
def marks (size : Nat) (places : List Nat) : Array Bool :=
  places.foldl (fun marks place => marks.setIfInBounds (place + 1) true) (List.replicate (size + 2) false).toArray

/-- The numbers of lines: equal lines have equal numbers. -/
def numbered {α : Type} [BEq α] (lines : List α) : List Nat := lines.map fun line => lines.idxOf line

/-- The changes that marks of lines tell, within a number of lines. -/
def collect (old new : Array Bool) (oldSize newSize : Nat) : Nat → Nat → Nat → List Change
  | 0, _, _ => []
  | bound + 1, x, y =>
    let isOld (place : Nat) : Bool := old.getD (place + 1) false
    let isNew (place : Nat) : Bool := new.getD (place + 1) false
    if oldSize ≤ x && newSize ≤ y then []
    else if isOld x || isNew y then
      let removed := ((List.range (oldSize - x)).takeWhile fun n => isOld (x + n)).length
      let added := ((List.range (newSize - y)).takeWhile fun n => isNew (y + n)).length
      ⟨x, removed, y, added⟩ :: collect old new oldSize newSize bound (x + removed) (y + added)
    else collect old new oldSize newSize bound (x + 1) (y + 1)

/-- The changes from one list of lines to another. Only so many lines around what differs
    count when runs are moved. -/
def between {α : Type} [BEq α] (context : Nat) (old new : List α) : List Change :=
  let same := ((old.zip new).takeWhile fun (a, b) => a == b).length
  let front := same - context
  let oldRest := old.drop front
  let newRest := new.drop front
  let sameEnd := ((oldRest.reverse.zip newRest.reverse).takeWhile fun (a, b) => a == b).length
  let back := sameEnd - context
  let oldPart := (old.drop front).take (old.length - front - back)
  let newPart := (new.drop front).take (new.length - front - back)
  let all := numbered (oldPart ++ newPart)
  let oldLines := all.take oldPart.length
  let newLines := all.drop oldPart.length
  let oldKept := oldLines.zipIdx.filter fun (line, _) => newLines.contains line
  let newKept := newLines.zipIdx.filter fun (line, _) => oldLines.contains line
  let a := (oldKept.map (·.1)).toArray
  let b := (newKept.map (·.1)).toArray
  let (x, y) := differing a b (a.size + b.size + 1) ⟨0, a.size, 0, b.size⟩
  let dropped (lines others : List Nat) : List Nat :=
    (lines.zipIdx.filter fun (line, _) => !others.contains line).map (·.2)
  let places (kept : List (Nat × Nat)) (found : List Nat) : List Nat :=
    found.filterMap fun place => (kept[place]?).map (·.2)
  let oldMarks := marks oldLines.length (dropped oldLines newLines ++ places oldKept x)
  let newMarks := marks newLines.length (dropped newLines oldLines ++ places newKept y)
  let size := oldLines.length + newLines.length + 2
  let first := shift size size ⟨oldLines.toArray, oldMarks, newMarks⟩ 0 0
  let second := shift size size ⟨newLines.toArray, newMarks, first.changed⟩ 0 0
  (collect first.changed second.changed oldLines.length newLines.length (size + 1) 0 0).map fun change =>
    { change with old := change.old + front, new := change.new + front }

end Changes
end Pkgset

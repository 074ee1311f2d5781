/-! # Tracking progress and mismatches

In a plain pass the tracker keeps the furthest offset that was reached. In a diagnostic pass that offset is
frozen, the mismatches at it are counted, and the first one beyond the index of the pass asks for an abort.
-/

namespace PegMatcher

/-- The furthest offset reached, the index of a diagnostic pass, and the mismatches counted in it. -/
structure Tracker where
  deepest : Nat := 0
  collecting : Option Int := none
  seen : Nat := 0
  deriving DecidableEq, Inhabited, Repr

namespace Tracker

/-- Starts a pass: plain without an index, diagnostic with one. -/
def beginPass (tracker : Tracker) (index : Option Int) : Tracker :=
  { tracker with seen := 0, collecting := index }

def forget (tracker : Tracker) : Tracker :=
  { tracker with deepest := 0 }

def isCollecting (tracker : Tracker) : Bool :=
  tracker.collecting.isSome

/-- Raises the furthest offset to an offset that was reached; a diagnostic pass leaves it as it is. -/
def observe (tracker : Tracker) (offset : Int) : Tracker :=
  match tracker.collecting with
  | none => { tracker with deepest := max tracker.deepest offset.toNat }
  | some _ => tracker

/-- Takes note of a mismatch and says whether it ends the pass. -/
def register (tracker : Tracker) (offset : Int) : Bool × Tracker :=
  match tracker.collecting with
  | none => (false, tracker.observe offset)
  | some index =>
    if offset = tracker.deepest then
      (index < (tracker.seen + 1 : Nat), { tracker with seen := tracker.seen + 1 })
    else (false, tracker)

end Tracker

end PegMatcher

import PegMatcher.Frame

/-! # Machines

Matchers are written against the operations that they need of the machine that runs them. A machine reads a
text through a cursor, keeps a stack of values, takes note of mismatches, and limits the nesting of named
rules. The engine is the machine that runs grammars.
-/

namespace PegMatcher

/-- The operations that matchers are built from. -/
class Machine (m : Type → Type) extends Monad m where
  /-- A place that a matcher can return to. -/
  Place : Type
  /-- Whether the cursor is at the end of the text. -/
  atEnd : m Bool
  /-- The character at the cursor. -/
  peek : m Char
  /-- Consumes the character at the cursor. -/
  advance : m Char
  /-- The offset of the cursor. -/
  offset : m Int
  /-- Moves the cursor and leaves the values as they are. -/
  moveTo (target : Int) : m Unit
  /-- The text between an offset and the cursor. -/
  sliceFrom (start : Int) : m String
  /-- Remembers the current place. -/
  mark : m Place
  /-- Returns to a place, which drops the values that were pushed since. -/
  reset (target : Place) : m Unit
  /-- Reports a mismatch at the cursor. -/
  mismatch : m Unit
  /-- Pushes a value. -/
  push (value : Value) : m Unit
  /-- Pops some values, which are returned from the bottom up. -/
  popMany (count : Int) : m (List Value)
  /-- Ends in a fault. -/
  fail {α : Type} (fault : Fault) : m α
  /-- Adds a frame to the explanation of the mismatches of a computation. -/
  framed {α : Type} (frame : Frame) (inner : m α) : m α
  /-- Runs a computation as the body of a named rule. -/
  nested {α : Type} (inner : m α) : m α
  /-- Gives up because the evaluation budget is used up. -/
  exhausted {α : Type} : m α

namespace Machine

variable {m : Type → Type} [Machine m] {α : Type}

@[inline] def lift : Except Fault α → m α
  | .ok result => pure result
  | .error fault => fail fault

/-- Builds a computation only when it is run, so that recursive ones unfold no further than needed. -/
@[inline] def suspend (computation : Unit → m α) : m α :=
  pure () >>= computation

end Machine

end PegMatcher

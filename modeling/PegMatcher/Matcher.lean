import PegMatcher.Machine

/-! # Matchers

A leaf matcher compares the character at the cursor and reports a mismatch where the comparison failed. A
composite matcher runs other matchers and returns to a mark when it gives up. Every matcher that can hold a
mismatch adds its frame to an abort signal that passes through it.

The bound of a repetition limits the number of its iterations; it is part of the evaluation budget and has
no influence on an outcome that is reached.
-/

namespace PegMatcher.Matcher

open Machine

variable {m : Type → Type} [Machine m]

/-- Whether the text goes on with a character of some kind. -/
@[inline] def nextIs (accepts : Char → Bool) : m Bool := do
  if ← atEnd then pure false
  else return accepts (← peek)

/-- Matches one character of some kind. -/
@[specialize] def oneChar (frame : Frame) (accepts : Char → Bool) : m Bool :=
  framed frame do
    if ← nextIs accepts then
      let _ ← advance
      pure true
    else
      mismatch
      pure false

/-- Whether one text comes before another one or is equal to it, by code points. -/
def precedes : List Char → List Char → Bool
  | [], _ => true
  | _ :: _, [] => false
  | a :: first, b :: second => a < b || (a == b && precedes first second)

/-- Whether a character, as a text of length one, lies between two texts. -/
def inRange (low high : String) (c : Char) : Bool :=
  precedes low.toList [c] && precedes [c] high.toList

def charFrame (c : Char) : Frame :=
  { kind := .charMatch, detail := String.singleton c }

def literalFrame (text : String) : Frame :=
  { kind := .stringMatch, detail := text }

def anyOfFrame (chars : String) : Frame :=
  { kind := .anyOf, detail := chars }

def rangeFrame (low high : String) : Frame :=
  { kind := .charRange, detail := low ++ "-" ++ high }

@[specialize] def char (c : Char) : m Bool :=
  oneChar (charFrame c) (· == c)

@[specialize] def anyOf (chars : String) : m Bool :=
  oneChar (anyOfFrame chars) chars.toList.contains

@[specialize] def range (low high : String) : m Bool :=
  oneChar (rangeFrame low high) (inRange low high)

@[specialize] def anyChar : m Bool :=
  oneChar { kind := .anyChar } fun _ => true

/-- Matches what is left of a literal; a mismatch is reported where it occurs, before the cursor goes back to
the start of the literal. -/
@[specialize] def literalFrom (start : Int) : List Char → m Bool
  | [] => pure true
  | c :: rest => do
    if ← nextIs (· == c) then
      let _ ← advance
      literalFrom start rest
    else
      mismatch
      moveTo start
      pure false

@[specialize] def literal (text : String) : m Bool :=
  framed (literalFrame text) do
    let start ← offset
    literalFrom start text.toList

@[specialize] def endOfInput : m Bool :=
  framed { kind := .endOfInput } do
    if ← atEnd then pure true
    else
      mismatch
      pure false

/-- Matches what is left of a sequence, and returns to its start when a part fails. -/
@[specialize] def sequenceFrom (start : Place m) : List (m Bool) → m Bool
  | [] => pure true
  | first :: rest => do
    if ← first then sequenceFrom start rest
    else
      reset start
      pure false

@[specialize] def sequence (parts : List (m Bool)) : m Bool :=
  framed { kind := .sequence } do
    let start ← mark
    sequenceFrom start parts

/-- Tries what is left of a choice, each alternative from the same place. -/
@[specialize] def firstOfFrom (start : Place m) : List (m Bool) → m Bool
  | [] => pure false
  | first :: rest => do
    if ← first then pure true
    else
      reset start
      firstOfFrom start rest

@[specialize] def firstOf (alternatives : List (m Bool)) : m Bool :=
  framed { kind := .firstOf } do
    let start ← mark
    firstOfFrom start alternatives

/-- Matches the body if it can, and nothing otherwise. -/
@[specialize] def optional (body : m Bool) : m Bool :=
  framed { kind := .optional } do
    let start ← mark
    if ← body then pure true
    else
      reset start
      pure true

/-- Repeats the body until it fails, or succeeds without moving, and returns the number of successes. -/
@[specialize] def iterate (body : m Bool) : Nat → Nat → m Nat
  | 0, _ => exhausted
  | bound + 1, count => do
    let origin ← offset
    let here ← mark
    if ← body then
      if (← offset) = origin then pure (count + 1)
      else iterate body bound (count + 1)
    else
      reset here
      pure count

/-- Matches the body as often as possible, at least a given number of times. -/
@[specialize] def repeated (kind : RuleKind) (minimum bound : Nat) (body : m Bool) : m Bool :=
  framed { kind := kind } do
    let start ← mark
    let count ← iterate body bound 0
    if count < minimum then
      reset start
      pure false
    else pure true

/-- Matches without consuming if the body matches. -/
@[specialize] def andPredicate (body : m Bool) : m Bool :=
  framed { kind := .andPredicate } do
    let start ← mark
    let matched ← body
    reset start
    pure matched

/-- Matches without consuming if the body does not match. -/
@[specialize] def notPredicate (body : m Bool) : m Bool :=
  framed { kind := .notPredicate } do
    let start ← mark
    let matched ← body
    reset start
    pure !matched

/-- Pushes the text that the body matched. -/
@[specialize] def capture (body : m Bool) : m Bool :=
  framed { kind := .capture } do
    let start ← offset
    if ← body then
      push (.str (← sliceFrom start))
      pure true
    else pure false

@[specialize] def pushValue (value : Value) : m Bool := do
  push value
  pure true

/-- Replaces the top values by a value that is computed from them. -/
@[specialize] def action (arity : Int) (compute : List Value → Except Fault Value) : m Bool := do
  let operands ← popMany arity
  let value ← lift (compute operands)
  push value
  pure true

/-- Gives the body a name, and counts it against the allowed nesting while it runs. -/
@[specialize] def named (name : Option String) (body : m Bool) : m Bool :=
  framed { kind := .named, name := name } (nested body)

end PegMatcher.Matcher

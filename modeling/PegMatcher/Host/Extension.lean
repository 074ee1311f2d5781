import PegMatcher.Engine.Primitive
import PegMatcher.Session
import Std.Data.HashMap

/-! # Rules of a host program

The rules that a host program can add to the combinators. They work on the engine directly, leave no frame,
and roll nothing back. A staged rule behaves differently from one invocation to the next, for which it keeps
a counter in the memory of the engine.
-/

namespace PegMatcher

/-- A rule of the host program. -/
inductive Extension where
  /-- Answers with the truth of a value. -/
  | constant (answer : Value)
  /-- Performs a script, then answers with the truth of a value. -/
  | script (primitives : List Primitive) (answer : Value)
  /-- Runs its first part the first time, its second part the second time, and so on; the last part serves
  for all later times. The number tells staged rules apart. -/
  | staged (counter : Nat)
  /-- Runs its part and turns a fault into a failure to match. -/
  | shielded
  /-- Runs its part and turns a fault or an abort signal into a failure to match. -/
  | swallowing
  /-- Starts a run of its part on the session that is running it. -/
  | reentrant
  /-- Answers whether a diagnostic pass is under way. -/
  | collecting

/-- How often each staged rule was invoked. -/
abbrev Invocations := Std.HashMap Nat Nat

namespace Extension

def give {σ : Type} (answer : Value) : Engine σ Bool :=
  pure answer.truthy

def perform {σ : Type} (primitives : List Primitive) (answer : Value) : Engine σ Bool := do
  Primitive.script primitives []
  give answer

/-- Turns faults into a failure to match. -/
def shield {σ : Type} (rule : Matcher σ) : Matcher σ :=
  rule.recover fun
    | .fault _ => some false
    | .abort _ => none

/-- Turns every interrupt into a failure to match. -/
def swallow {σ : Type} (rule : Matcher σ) : Matcher σ :=
  rule.recover fun _ => some false

/-- Starts a run of a rule on the session that is at work, and answers whether it has matched. -/
def reenter {σ : Type} (rule : Matcher σ) (shape : Shape) : Engine σ Bool := do
  let result ← Session.runInside rule shape
  pure result.isSuccess

/-- Counts an invocation and returns its number, from zero. -/
def countInvocation (counter : Nat) : Engine Invocations Nat :=
  ⟨fun _ state =>
    let number := state.memory.getD counter 0
    some (.ok number, { state with memory := state.memory.insert counter (number + 1) })⟩

/-- Runs the part of a staged rule whose turn it is. -/
def stage (counter : Nat) (parts : List (Matcher Invocations)) : Engine Invocations Bool := do
  let number ← countInvocation counter
  match parts[min number (parts.length - 1)]? with
  | some part => part
  | none => pure false

/-- The meaning of a host rule, given the meaning of its parts. A rule that needs a part and has none does
not match. -/
def interpret : Interpretation Extension (Engine Invocations)
  | constant answer, _ => give answer
  | script primitives answer, _ => perform primitives answer
  | staged counter, parts => stage counter parts
  | shielded, part :: _ => shield part
  | swallowing, part :: _ => swallow part
  | reentrant, part :: _ => reenter part .all
  | collecting, _ => Engine.isCollecting
  | _, [] => give .null

end Extension

end PegMatcher

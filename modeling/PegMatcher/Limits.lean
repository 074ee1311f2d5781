import PegMatcher.Log

/-! # Limits

A session bounds the size of its input, the nesting of named rules and the number of rule stacks in a parse
error. The nesting is also bounded by the host's call stack, of which each named rule takes four calls.
-/

namespace PegMatcher

def defaultInputSize : Nat := 10 * 1024 * 1024

def defaultRuleDepth : Nat := 200

def defaultErrorStacks : Nat := 1024

/-- The character that stands for the end of the text where a character is asked for. -/
def endMarker : Char := '\uffff'

/-- The number of nested calls that the host allows unless told otherwise. -/
def defaultCallLimit : Int := 1000

/-- The number of calls that are kept free for the work outside of named rules. -/
def defaultReserve : Int := 50

/-- The nesting depth that fits into the host's call stack, which is at least one. -/
def safeDepth (callLimit reserve : Int) : Int :=
  max 1 ((callLimit - reserve) / 4)

/-- Lowers a requested depth to the safe one, with a warning if that changes it. -/
def clampDepth (requested reserve callLimit : Int) : Int × List LogEvent :=
  let safe := safeDepth callLimit reserve
  if safe < requested then (safe, [.depthClamped requested callLimit safe]) else (requested, [])

theorem clampDepth_fst (requested reserve callLimit : Int) :
    (clampDepth requested reserve callLimit).1 = min requested (safeDepth callLimit reserve) := by
  simp only [clampDepth]
  split <;> simp only <;> omega

end PegMatcher

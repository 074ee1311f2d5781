import PegMatcher.Frame

/-! # Log events

Opening a session and running a rule leave a record of what happened. An event knows its level and its
message, and `LogEvent.line` is the line that a log shows for it.
-/

namespace PegMatcher

/-- Something worth a line in the log. -/
inductive LogEvent where
  /-- A requested nesting depth was lowered to what the host's call stack bears. -/
  | depthClamped (requested callLimit depth : Int)
  /-- A run began on a text of some length. -/
  | runStarted (length : Nat)
  /-- The rule matched, with the cursor left at an offset. -/
  | ruleMatched (offset : Int)
  /-- The rule failed, and the mismatches at an offset are about to be explained. -/
  | ruleFailed (offset : Nat)
  /-- A diagnostic pass, counted from one, ended with a rule stack. -/
  | stackCollected (pass : Nat) (stack : RuleStack)
  /-- All mismatches at an offset are explained. -/
  | stacksComplete (count offset : Nat)
  deriving DecidableEq

namespace LogEvent

/-- Only a lowered limit is a warning. -/
def level : LogEvent → String
  | depthClamped .. => "WARNING"
  | _ => "DEBUG"

def message : LogEvent → String
  | depthClamped requested callLimit depth =>
    "Requested rule depth " ++ toString requested ++ " exceeds Python recursion limit (" ++
      toString callLimit ++ "). Clamping to " ++ toString depth ++ " to prevent RecursionError. " ++
      "Consider increasing sys.setrecursionlimit() if needed."
  | runStarted length => "Run started, input length " ++ toString length
  | ruleMatched offset => "Rule matched at offset " ++ toString offset
  | ruleFailed offset => "Rule failed; collecting rule stacks at offset " ++ toString offset
  | stackCollected pass stack => "Pass " ++ toString pass ++ " collected: " ++ stack.label
  | stacksComplete count offset =>
    "Collected " ++ toString count ++ " rule stack(s) at offset " ++ toString offset

/-- The line of an event: its level, a colon and its message. -/
def line (event : LogEvent) : String :=
  event.level ++ ": " ++ event.message

end LogEvent

end PegMatcher

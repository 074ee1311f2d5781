import PegMatcher.Frame
import PegMatcher.Position

/-! # Parse errors and run results

A parse error says where a run failed and which chains of rules were active at the mismatches there. It is
data: a run returns it, and only `RunResult.unwrap` turns it into a fault.
-/

namespace PegMatcher

/-- Where parsing failed, and the alternatives that were tried there, in the order of the attempts. -/
structure ParseError where
  position : Position
  ruleStacks : List RuleStack := []
  deriving DecidableEq

/-- The labels of the innermost frames, each once, in the order of their first occurrence. -/
def ParseError.expected (error : ParseError) : List String :=
  (error.ruleStacks.filterMap fun stack => stack.innermost?.map Frame.label).eraseDups

/-- What a run returns: a value, or the description of a failure. -/
inductive RunResult where
  | success (value : Value)
  | failure (error : ParseError)

namespace RunResult

/-- A result given by its two parts, of which an error excludes any value but null. -/
def ofParts (value : Value) : Option ParseError → Except Fault RunResult
  | none => .ok (success value)
  | some error => if value.isNull then .ok (failure error) else .error .resultConflict

def isSuccess : RunResult → Bool
  | success _ => true
  | failure _ => false

/-- The value of a result, null for a failure. -/
def value : RunResult → Value
  | success value => value
  | failure _ => .null

def error? : RunResult → Option ParseError
  | success _ => none
  | failure error => some error

/-- The value of a successful run; a failure becomes a fault that tells its line and column. -/
def unwrap : RunResult → Except Fault Value
  | success value => .ok value
  | failure error => .error (.parseFailed error.position.line error.position.column)

end RunResult

end PegMatcher

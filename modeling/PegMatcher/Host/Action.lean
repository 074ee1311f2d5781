import PegMatcher.Fault

/-! # Action functions

The functions that a grammar may apply to values on the stack. A function that is given the wrong number of
operands, or operands of the wrong kind, refuses them with a fault that carries its name.
-/

namespace PegMatcher

/-- A function on values. -/
inductive Action where
  | int
  | add
  | sub
  | mul
  | div
  | concat
  | list
  | null
  | fail
  deriving DecidableEq, Repr

namespace Action

def name : Action → String
  | int => "int"
  | add => "add"
  | sub => "sub"
  | mul => "mul"
  | div => "div"
  | concat => "concat"
  | list => "list"
  | null => "null"
  | fail => "fail"

def all : List Action :=
  [int, add, sub, mul, div, concat, list, null, fail]

def ofName? (text : String) : Option Action :=
  all.find? (·.name == text)

/-- The number that a non-empty text of decimal digits denotes. -/
def decimal? (text : String) : Option Nat :=
  let digits := text.toList
  if digits.isEmpty || !digits.all Char.isDigit then none
  else some (digits.foldl (fun number digit => number * 10 + (digit.toNat - '0'.toNat)) 0)

def integers? : List Value → Option (Int × Int)
  | [.int first, .int second] => some (first, second)
  | _ => none

def joined? : List Value → Option String
  | [] => some ""
  | .str text :: rest => (joined? rest).map (text ++ ·)
  | _ :: _ => none

/-- The value of a function where it is defined. Division rounds down, and by zero it gives zero. -/
def result? : Action → List Value → Option Value
  | int, [.str text] => (decimal? text).map fun number => .int number
  | int, _ => none
  | add, operands => (integers? operands).map fun (a, b) => .int (a + b)
  | sub, operands => (integers? operands).map fun (a, b) => .int (a - b)
  | mul, operands => (integers? operands).map fun (a, b) => .int (a * b)
  | div, operands => (integers? operands).map fun (a, b) => .int (Int.fdiv a b)
  | concat, operands => (joined? operands).map .str
  | list, operands => some (.list operands)
  | null, _ => some .null
  | fail, _ => none

def apply (action : Action) (operands : List Value) : Except Fault Value :=
  match action.result? operands with
  | some value => .ok value
  | none => .error (.actionFailed action.name)

end Action

end PegMatcher

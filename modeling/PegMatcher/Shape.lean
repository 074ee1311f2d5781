import PegMatcher.Value

/-! # Requested shapes

A caller of a run says what the value stack has to look like after a match: any number of values, none, one,
or a stated number of them. A stated number is given as a value, and only a value that denotes a count is a
proper request.
-/

namespace PegMatcher

/-- What the value stack must hold after a match. -/
inductive Shape where
  | all
  | empty
  | single
  | exactly (count : Value)

namespace Shape

/-- The three shapes that have a name, in their listing order, each with its listed name and its text. -/
def named : List (Shape × String × String) :=
  [(empty, "EMPTY", "empty"), (single, "SINGLE", "single"), (all, "ALL", "all")]

/-- Reads a request: the text of a named shape, and otherwise an exact count. -/
def ofValue : Value → Shape
  | .str "empty" => empty
  | .str "single" => single
  | .str "all" => all
  | other => exactly other

/-- How a message describes the stack that a shape asks for. -/
def description : Shape → String
  | all => "any values"
  | empty => "no values"
  | single => "exactly 1 value"
  | exactly count => "exactly " ++ count.spelling ++ " values"

end Shape

end PegMatcher

import PegMatcher.Text.Quoted

/-! # Semantic values

Rules leave values on a stack, and actions compute new ones from them. A value is null, a truth value, an
integer, a text, a list or an object with its members in order. Two written forms are given: `spelling` is
how a value appears inside a message, `toJson` is its JSON text.
-/

namespace PegMatcher

/-- A value that a rule can push, or that a run can return. -/
inductive Value where
  | null
  | bool (flag : Bool)
  | int (number : Int)
  | str (text : String)
  | list (elements : List Value)
  | object (members : List (String × Value))
  deriving Inhabited, Repr

namespace Value

/-- A value counts as true unless it is null, false, zero, or an empty text, list or object. -/
def truthy : Value → Bool
  | null => false
  | bool flag => flag
  | int number => number != 0
  | str text => !text.isEmpty
  | list elements => !elements.isEmpty
  | object members => !members.isEmpty

/-- Null is the only value that stands for the absence of one. -/
def isNull : Value → Bool
  | null => true
  | _ => false

/-- The count that a value denotes: an integer denotes itself, false and true denote zero and one. -/
def count? : Value → Option Int
  | int number => some number
  | bool flag => some (if flag then 1 else 0)
  | _ => none

mutual

/-- A value as messages show it: texts are quoted, and null and truth values are capitalised words. -/
def spelling : Value → String
  | null => "None"
  | bool flag => if flag then "True" else "False"
  | int number => toString number
  | str text => Text.quote text
  | list elements => "[" ++ ", ".intercalate (spellElements elements) ++ "]"
  | object members => "\x7b" ++ ", ".intercalate (spellMembers members) ++ "\x7d"

def spellElements : List Value → List String
  | [] => []
  | element :: rest => element.spelling :: spellElements rest

def spellMembers : List (String × Value) → List String
  | [] => []
  | (key, member) :: rest => (Text.quote key ++ ": " ++ member.spelling) :: spellMembers rest

end

end Value

end PegMatcher

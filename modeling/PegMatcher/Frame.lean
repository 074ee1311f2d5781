import PegMatcher.Fault

/-! # Frames and rule stacks

While a mismatch is being explained, every active rule contributes a frame that says what kind of rule it
is. A rule stack is the chain of frames from the top rule down to the matcher that met the mismatch. Both
have a label for messages.
-/

namespace PegMatcher

/-- The kinds of rules that appear in a rule stack. -/
inductive RuleKind where
  | named
  | sequence
  | firstOf
  | optional
  | zeroOrMore
  | oneOrMore
  | charMatch
  | stringMatch
  | anyOf
  | charRange
  | anyChar
  | endOfInput
  | andPredicate
  | notPredicate
  | capture
  | action
  deriving DecidableEq, Repr

namespace RuleKind

def all : List RuleKind :=
  [named, sequence, firstOf, optional, zeroOrMore, oneOrMore, charMatch, stringMatch, anyOf, charRange,
    anyChar, endOfInput, andPredicate, notPredicate, capture, action]

def text : RuleKind → String
  | named => "named"
  | sequence => "sequence"
  | firstOf => "first-of"
  | optional => "optional"
  | zeroOrMore => "zero-or-more"
  | oneOrMore => "one-or-more"
  | charMatch => "char"
  | stringMatch => "string"
  | anyOf => "any-of"
  | charRange => "char-range"
  | anyChar => "any-char"
  | endOfInput => "end-of-input"
  | andPredicate => "and-predicate"
  | notPredicate => "not-predicate"
  | capture => "capture"
  | action => "action"

/-- The name under which a kind is listed. -/
def listName : RuleKind → String
  | named => "NAMED"
  | sequence => "SEQUENCE"
  | firstOf => "FIRST_OF"
  | optional => "OPTIONAL"
  | zeroOrMore => "ZERO_OR_MORE"
  | oneOrMore => "ONE_OR_MORE"
  | charMatch => "CHAR_MATCH"
  | stringMatch => "STRING_MATCH"
  | anyOf => "ANY_OF"
  | charRange => "CHAR_RANGE"
  | anyChar => "ANY_CHAR"
  | endOfInput => "END_OF_INPUT"
  | andPredicate => "AND_PREDICATE"
  | notPredicate => "NOT_PREDICATE"
  | capture => "CAPTURE"
  | action => "ACTION"

def ofValue (value : Value) : Except Fault RuleKind :=
  match value with
  | .str text =>
    match all.find? (·.text == text) with
    | some kind => .ok kind
    | none => .error (.unknownMember value .ruleKind)
  | _ => .error (.unknownMember value .ruleKind)

end RuleKind

/-- One active rule: its kind, its name if it has one, and what it was looking for. -/
structure Frame where
  kind : RuleKind
  name : Option String := none
  detail : String := ""
  deriving DecidableEq, Repr

namespace Frame

def ofParts (kind : Value) (name : Option String) (detail : String) : Except Fault Frame :=
  (RuleKind.ofValue kind).map fun kind => ⟨kind, name, detail⟩

/-- A frame shows its name; without one, literals are quoted and other details follow the kind. -/
def label (frame : Frame) : String :=
  match frame.name with
  | some name => name
  | none =>
    match frame.kind with
    | .charMatch => Text.quote frame.detail
    | .stringMatch => Text.quote frame.detail
    | .anyOf => "any of " ++ Text.quote frame.detail
    | .charRange => "[" ++ frame.detail ++ "]"
    | kind => if frame.detail.isEmpty then kind.text else kind.text ++ "(" ++ frame.detail ++ ")"

end Frame

/-- A chain of active rules, the top rule first. -/
structure RuleStack where
  frames : List Frame
  deriving DecidableEq, Repr

namespace RuleStack

/-- The labels of the frames, separated by slashes. -/
def label (stack : RuleStack) : String :=
  " / ".intercalate (stack.frames.map Frame.label)

/-- The frame of the rule that met the mismatch. -/
def innermost? (stack : RuleStack) : Option Frame :=
  stack.frames.getLast?

end RuleStack

end PegMatcher

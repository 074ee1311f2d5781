import PegMatcher.Diagnostic
import PegMatcher.Shape

/-! # Faults

A fault is a broken contract: a rule, an action or a caller did something that has no meaning. Faults end a
run at once and are never turned into parse errors. Each constructor is one cause, `message` is its wording,
and `diagnostic?` is the coded diagnostic of those causes that have one.
-/

namespace PegMatcher

/-- The stack operations that need values to be present. -/
inductive StackOperation where
  | pop
  | popMany (count : Int)
  | peek
  deriving DecidableEq, Inhabited, Repr

def StackOperation.text : StackOperation → String
  | pop => "pop"
  | popMany count => "pop " ++ toString count ++ " values"
  | peek => "peek"

/-- The closed lists of words that a caller may refer to by value. -/
inductive Vocabulary where
  | ruleKind
  | valueShape
  | outputFormat
  | diagnosticCode
  deriving DecidableEq, Repr

def Vocabulary.title : Vocabulary → String
  | ruleKind => "RuleKind"
  | valueShape => "ValueShape"
  | outputFormat => "OutputFormat"
  | diagnosticCode => "DiagnosticCode"

/-- Why an operation could not be carried out. -/
inductive Fault where
  /-- Fewer values on the stack than the operation needs. -/
  | stackUnderflow (operation : StackOperation)
  /-- A match left a stack that does not have the requested shape. -/
  | shapeMismatch (shape : Shape) (actual : Nat)
  /-- A requested count that is no count. -/
  | unknownShape (request : Value)
  /-- A stack cannot be cut back to a depth it does not reach. -/
  | invalidMark (depth : Int) (current : Nat)
  /-- The abort signal left the rule of a plain pass. -/
  | abortEscaped
  /-- A diagnostic pass found one alternative more than allowed. -/
  | stackLimit (limit : Int) (offset : Nat)
  /-- A named rule was entered with the allowed nesting used up. -/
  | depthExceeded (limit : Int)
  /-- A run was started inside a run. -/
  | reentered
  /-- The value of a failed run was demanded. -/
  | parseFailed (line column : Nat)
  /-- The text has no character at an offset. -/
  | offsetOutOfRange
  /-- An offset that no index of a text can be. -/
  | offsetTooWide
  /-- A caret that would stand further behind the text than any index. -/
  | caretTooWide
  /-- A single-character rule was given a text of another length. -/
  | notOneCharacter (text : String)
  /-- A value that a vocabulary does not hold. -/
  | unknownMember (value : Value) (vocabulary : Vocabulary)
  /-- A name that nothing was defined under. -/
  | unknownName (name : String)
  /-- A position was asked for in front of the text. -/
  | negativeOffset (offset : Int)
  /-- A position record with an offset below zero. -/
  | positionOffset (offset : Int)
  /-- A position record with a line below one. -/
  | positionLine (line : Int)
  /-- A position record with a column below one. -/
  | positionColumn (column : Int)
  /-- A line number below one. -/
  | lineTooSmall (line : Int)
  /-- A line number beyond the last line. -/
  | lineTooLarge (line : Int) (count : Nat)
  /-- The text is longer than the configured limit. -/
  | inputTooLarge (size : Nat) (limit : Int)
  /-- A result with both a value and an error. -/
  | resultConflict
  /-- An action function refused its arguments. -/
  | actionFailed (action : String)
  deriving Inhabited

namespace Fault

def diagnostic? : Fault → Option Diagnostic
  | stackUnderflow operation => some (.valueStackUnderflow operation.text)
  | shapeMismatch shape actual => some (.valueStackShapeMismatch shape.description actual)
  | invalidMark depth current => some (.invalidMark depth current)
  | abortEscaped => some .abortSignalEscaped
  | stackLimit limit offset => some (.errorStackLimitExceeded limit offset)
  | depthExceeded limit => some (.ruleDepthExceeded limit)
  | reentered => some .runReentered
  | parseFailed line column => some (.parseFailed line column)
  | _ => none

def message : Fault → String
  | stackUnderflow operation => (Diagnostic.valueStackUnderflow operation.text).format
  | shapeMismatch shape actual => (Diagnostic.valueStackShapeMismatch shape.description actual).format
  | unknownShape request => "Unknown value shape: " ++ request.spelling
  | invalidMark depth current => (Diagnostic.invalidMark depth current).format
  | abortEscaped => Diagnostic.abortSignalEscaped.format
  | stackLimit limit offset => (Diagnostic.errorStackLimitExceeded limit offset).format
  | depthExceeded limit => (Diagnostic.ruleDepthExceeded limit).format
  | reentered => Diagnostic.runReentered.format
  | parseFailed line column => (Diagnostic.parseFailed line column).format
  | offsetOutOfRange => "string index out of range"
  | offsetTooWide => "cannot fit 'int' into an index-sized integer"
  | caretTooWide => "cannot fit 'int' into an index-sized integer"
  | notOneCharacter text => "ch() expects a single character, got " ++ Text.quote text
  | unknownMember value vocabulary => value.spelling ++ " is not a valid " ++ vocabulary.title
  | unknownName name => Text.quote name
  | negativeOffset offset => "Offset must be >= 0, got " ++ toString offset
  | positionOffset offset => "Position.offset must be >= 0, got " ++ toString offset
  | positionLine line => "Position.line must be >= 1 (1-indexed), got " ++ toString line
  | positionColumn column => "Position.column must be >= 1 (1-indexed), got " ++ toString column
  | lineTooSmall line => "Line number must be >= 1, got " ++ toString line
  | lineTooLarge line count =>
    "Line " ++ toString line ++ " out of range (input has " ++ toString count ++ " lines)"
  | inputTooLarge size limit => (Diagnostic.inputTooLarge size limit).message
  | resultConflict => "RunResult holds either a value or an error, not both"
  | actionFailed action => action

/-- A fault with a diagnostic is worded by it. -/
theorem message_eq_format {fault : Fault} {diagnostic : Diagnostic}
    (coded : fault.diagnostic? = some diagnostic) : fault.message = diagnostic.format := by
  cases fault <;> simp only [diagnostic?, Option.some.injEq, reduceCtorEq] at coded <;> subst coded <;> rfl

end Fault

end PegMatcher

import PegMatcher.Text.Grouped

/-! # Diagnostics

A diagnostic is a coded message with an optional hint. Codes in the three thousands say that the input did
not match, codes in the six thousands say that a rule or a caller broke the engine's contract. One function
per code builds the diagnostic with its wording.
-/

namespace PegMatcher

/-- What a diagnostic is about. -/
inductive DiagnosticCode where
  | parseFailed
  | inputTooLarge
  | valueStackUnderflow
  | valueStackShapeMismatch
  | invalidMark
  | abortSignalEscaped
  | errorStackLimitExceeded
  | ruleDepthExceeded
  | runReentered
  deriving DecidableEq, Repr

namespace DiagnosticCode

def all : List DiagnosticCode :=
  [parseFailed, inputTooLarge, valueStackUnderflow, valueStackShapeMismatch, invalidMark,
    abortSignalEscaped, errorStackLimitExceeded, ruleDepthExceeded, runReentered]

/-- The name of a code as it appears in a formatted diagnostic. -/
def name : DiagnosticCode → String
  | parseFailed => "PARSE_FAILED"
  | inputTooLarge => "INPUT_TOO_LARGE"
  | valueStackUnderflow => "VALUE_STACK_UNDERFLOW"
  | valueStackShapeMismatch => "VALUE_STACK_SHAPE_MISMATCH"
  | invalidMark => "INVALID_MARK"
  | abortSignalEscaped => "ABORT_SIGNAL_ESCAPED"
  | errorStackLimitExceeded => "ERROR_STACK_LIMIT_EXCEEDED"
  | ruleDepthExceeded => "RULE_DEPTH_EXCEEDED"
  | runReentered => "RUN_REENTERED"

/-- The number of a code. -/
def number : DiagnosticCode → Nat
  | parseFailed => 3001
  | inputTooLarge => 3002
  | valueStackUnderflow => 6001
  | valueStackShapeMismatch => 6002
  | invalidMark => 6003
  | abortSignalEscaped => 6004
  | errorStackLimitExceeded => 6005
  | ruleDepthExceeded => 6006
  | runReentered => 6007

def ofName? (text : String) : Option DiagnosticCode :=
  all.find? (·.name == text)

end DiagnosticCode

/-- A coded message. The severity is free text; the engine itself only reports errors. -/
structure Diagnostic where
  code : DiagnosticCode
  message : String
  hint : Option String := none
  severity : String := "error"
  deriving DecidableEq, Repr

namespace Diagnostic

/-- One line with severity, code name and message, and a second line for a hint that is not empty. -/
def format (diagnostic : Diagnostic) : String :=
  let head := diagnostic.severity ++ "[" ++ diagnostic.code.name ++ "]: " ++ diagnostic.message
  match diagnostic.hint with
  | some hint => if hint.isEmpty then head else head ++ "\n  = help: " ++ hint
  | none => head

def parseFailed (line column : Int) : Diagnostic where
  code := .parseFailed
  message := "Input does not match at line " ++ toString line ++ ", column " ++ toString column
  hint := some "Use Parser.format_error() for the expected alternatives"

def inputTooLarge (size limit : Int) : Diagnostic where
  code := .inputTooLarge
  message := "Input size (" ++ Text.grouped size ++ " characters) exceeds maximum (" ++
    Text.grouped limit ++ " characters)"
  hint := some "Configure max_input_size in the Parser constructor to increase the limit"

def valueStackUnderflow (operation : String) : Diagnostic where
  code := .valueStackUnderflow
  message := "Cannot " ++ operation ++ " from an empty value stack"
  hint := some "An action consumes more values than its sub-rules push"

def valueStackShapeMismatch (expected : String) (actual : Int) : Diagnostic where
  code := .valueStackShapeMismatch
  message := "Expected " ++ expected ++ " on the value stack, found " ++ toString actual
  hint := some "Check the push, capture and action rules of the grammar"

/-- A mark asks for a stack depth that no longer exists. -/
def invalidMark (depth current : Int) : Diagnostic where
  code := .invalidMark
  message := "Cannot restore value stack to depth " ++ toString depth ++ ", current depth is " ++
    toString current
  hint := some "A mark was reset after values below it had been popped"

/-- The abort signal surfaced where no diagnostic pass was running. -/
def abortSignalEscaped : Diagnostic where
  code := .abortSignalEscaped
  message := "Rule-stack abort signal raised outside a diagnostic pass"
  hint := some "Rules must only register mismatches, never raise the signal directly"

def errorStackLimitExceeded (limit offset : Int) : Diagnostic where
  code := .errorStackLimitExceeded
  message := "More than " ++ toString limit ++ " alternative rule stacks at offset " ++ toString offset
  hint := some ("A rule explores unboundedly many alternatives at one offset; " ++
    "configure max_error_stacks if the grammar is legitimately this wide")

def ruleDepthExceeded (maximum : Int) : Diagnostic where
  code := .ruleDepthExceeded
  message := "Maximum rule nesting depth (" ++ toString maximum ++ ") exceeded"
  hint := some "Check for left recursion or configure max_rule_depth"

/-- A run was started from inside a run on the same session. -/
def runReentered : Diagnostic where
  code := .runReentered
  message := "Parser.run() called while another run is in progress"
  hint := some "Use one Parser instance per concurrent or nested parse"

end Diagnostic

end PegMatcher

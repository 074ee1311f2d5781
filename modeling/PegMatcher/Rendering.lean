import PegMatcher.ParseError
import PegMatcher.Value.Json

/-! # Rendering parse errors

A parse error is shown against its text in one of three forms: several lines with the rule stacks, the
source line and a caret under the offending character; a single line; or a JSON object. Only the first form
needs the source line, so only there a position that does not fit the text can be a fault.
-/

namespace PegMatcher

/-- The forms in which a parse error can be shown. -/
inductive OutputFormat where
  | text
  | simple
  | json
  deriving DecidableEq, Repr

namespace OutputFormat

def all : List OutputFormat :=
  [text, simple, json]

def word : OutputFormat → String
  | text => "text"
  | simple => "simple"
  | json => "json"

def listName : OutputFormat → String
  | text => "TEXT"
  | simple => "SIMPLE"
  | json => "JSON"

def ofWord? (text : String) : Option OutputFormat :=
  all.find? (·.word == text)

end OutputFormat

namespace ParseError

/-- The character at the position of an error, unless that is the end of the text. -/
def found? (error : ParseError) (source : Source) : Option Char :=
  source.chars[error.position.offset]?

/-- What is wrong: the end of the text, or the character at the position, escaped if it is not printable. -/
def problem (error : ParseError) (source : Source) : String :=
  match error.found? source with
  | none => "Unexpected end of input"
  | some c => "Invalid input '" ++ String.ofList (Text.escapeUnprintable c) ++ "'"

/-- Several lines: the problem, the rule stacks, the place, the source line, and a caret. -/
def renderText (error : ParseError) (source : Source) : Except Fault String :=
  let position := error.position
  let head :=
    if error.ruleStacks.isEmpty then [error.problem source]
    else (error.problem source ++ ", expected:") :: error.ruleStacks.map fun stack => "  " ++ stack.label
  let place := "(line " ++ toString position.line ++ ", column " ++ toString position.column ++ "):"
  let indent := position.column - 1
  match source.line position.line with
  | .error fault => .error fault
  | .ok line =>
    if source.length < indent ∧ !Source.fitsIndex indent then .error .caretTooWide
    else
      let caret := String.ofList (List.replicate indent ' ' ++ ['^'])
      .ok ("\n".intercalate (head ++ [place, line, caret]))

/-- A single line: the place, the problem, and the expected labels. -/
def renderSimple (error : ParseError) (source : Source) : String :=
  let position := error.position
  let head := toString position.line ++ ":" ++ toString position.column ++ ": " ++ error.problem source
  if error.expected.isEmpty then head
  else head ++ " (expected: " ++ ", ".intercalate error.expected ++ ")"

/-- The error as an object with its position, the character found, and all labels. -/
def toValue (error : ParseError) (source : Source) : Value :=
  .object [
    ("offset", .int error.position.offset),
    ("line", .int error.position.line),
    ("column", .int error.position.column),
    ("end_of_input", .bool (error.position.atEnd source)),
    ("found", match error.found? source with
      | none => .null
      | some c => .str (String.singleton c)),
    ("expected", .list (error.expected.map .str)),
    ("stacks", .list (error.ruleStacks.map fun stack =>
      .list (stack.frames.map fun frame => .str frame.label)))]

def renderJson (error : ParseError) (source : Source) : String :=
  (error.toValue source).toJson

def render (error : ParseError) (source : Source) : OutputFormat → Except Fault String
  | .text => error.renderText source
  | .simple => .ok (error.renderSimple source)
  | .json => .ok (error.renderJson source)

end ParseError

end PegMatcher

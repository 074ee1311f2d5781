import PegMatcher.Rendering

/-! # Vocabularies

The closed lists of words of the library: kinds of rules, named shapes, output forms and diagnostic codes.
Each entry has a name and a value, and a member is looked up by its value.
-/

namespace PegMatcher.Vocabulary

def members : Vocabulary → List (String × Value)
  | ruleKind => RuleKind.all.map fun kind => (kind.listName, .str kind.text)
  | valueShape => Shape.named.map fun (_, name, text) => (name, .str text)
  | outputFormat => OutputFormat.all.map fun format => (format.listName, .str format.word)
  | diagnosticCode => DiagnosticCode.all.map fun code => (code.name, .int code.number)

def all : List Vocabulary :=
  [ruleKind, valueShape, outputFormat, diagnosticCode]

def ofTitle? (text : String) : Option Vocabulary :=
  all.find? (·.title == text)

/-- Whether two values denote the same text or the same number. -/
def sameEntry : Value → Value → Bool
  | .str first, .str second => first == second
  | first, second =>
    match first.count?, second.count? with
    | some a, some b => a == b
    | _, _ => false

def nameOf (vocabulary : Vocabulary) (value : Value) : Except Fault String :=
  match vocabulary.members.find? fun entry => sameEntry entry.2 value with
  | some (name, _) => .ok name
  | none => .error (.unknownMember value vocabulary)

end PegMatcher.Vocabulary

namespace PegMatcher.DiagnosticCode

def ofNumber (number : Int) : Except Fault DiagnosticCode :=
  match all.find? fun code => (code.number : Int) == number with
  | some code => .ok code
  | none => .error (.unknownMember (.int number) .diagnosticCode)

def ofName (text : String) : Except Fault DiagnosticCode :=
  match ofName? text with
  | some code => .ok code
  | none => .error (.unknownName text)

end PegMatcher.DiagnosticCode

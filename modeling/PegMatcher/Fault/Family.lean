import PegMatcher.Fault

/-! # Families of engine errors

Errors that carry a diagnostic are sorted into families, and a special family lies inside more general
ones. A failed parse and a broken contract are two disjoint branches of the same root.
-/

namespace PegMatcher

/-- The families of engine errors, from the general to the special. -/
inductive ErrorFamily where
  | engine
  | parseFailed
  | contract
  | valueStack
  | valueShape
  | abortEscaped
  | stackLimit
  | depthExceeded
  | reentered
  deriving DecidableEq, Repr

namespace ErrorFamily

/-- The families that an error of this family belongs to, the most special first. -/
def lineage : ErrorFamily → List ErrorFamily
  | engine => [engine]
  | parseFailed => [parseFailed, engine]
  | contract => [contract, engine]
  | valueStack => [valueStack, contract, engine]
  | valueShape => [valueShape, valueStack, contract, engine]
  | abortEscaped => [abortEscaped, contract, engine]
  | stackLimit => [stackLimit, contract, engine]
  | depthExceeded => [depthExceeded, contract, engine]
  | reentered => [reentered, contract, engine]

end ErrorFamily

def Fault.family? : Fault → Option ErrorFamily
  | stackUnderflow _ => some .valueStack
  | invalidMark _ _ => some .valueStack
  | shapeMismatch _ _ => some .valueShape
  | abortEscaped => some .abortEscaped
  | stackLimit _ _ => some .stackLimit
  | depthExceeded _ => some .depthExceeded
  | reentered => some .reentered
  | parseFailed _ _ => some .parseFailed
  | _ => none

/-- What an engine error says: a plain text, or a diagnostic that is shown in its formatted form. -/
inductive Notice where
  | plain (text : String)
  | coded (diagnostic : Diagnostic)
  deriving DecidableEq, Repr

namespace Notice

def message : Notice → String
  | plain text => text
  | coded diagnostic => diagnostic.format

def diagnostic? : Notice → Option Diagnostic
  | plain _ => none
  | coded diagnostic => some diagnostic

end Notice

end PegMatcher

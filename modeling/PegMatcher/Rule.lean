import PegMatcher.Engine.Basic
import PegMatcher.Matcher

/-! # Rules and grammars

A rule is a parsing expression. Rules refer to each other by name through a grammar, so grammars can be
recursive. A host program can add rules of its own: `χ` is the type of these extensions, and a rule of type
`Rule Empty` is made of the combinators alone. `Rule.matcher` gives a rule its meaning as a matcher, within
an evaluation budget that every descent into a part of a rule lowers by one.
-/

namespace PegMatcher

/-- A parsing expression over the extensions `χ`. -/
inductive Rule (χ : Type) where
  /-- One given character. -/
  | char (c : Char)
  /-- A literal. -/
  | literal (text : String)
  /-- One character of a set. -/
  | anyOf (chars : String)
  /-- One character between two bounds. -/
  | range (low high : String)
  /-- Any character. -/
  | anyChar
  /-- The end of the text. -/
  | endOfInput
  /-- All parts in order. -/
  | sequence (parts : List (Rule χ))
  /-- The first alternative that matches. -/
  | firstOf (alternatives : List (Rule χ))
  /-- The body or nothing. -/
  | optional (body : Rule χ)
  /-- The body as often as possible. -/
  | zeroOrMore (body : Rule χ)
  /-- The body as often as possible, at least once. -/
  | oneOrMore (body : Rule χ)
  /-- Looks ahead for the body. -/
  | andPredicate (body : Rule χ)
  /-- Looks ahead for the absence of the body. -/
  | notPredicate (body : Rule χ)
  /-- Pushes the text that the body matches. -/
  | capture (body : Rule χ)
  /-- Pushes a value. -/
  | push (value : Value)
  /-- Replaces the top values by a computed one. -/
  | action (arity : Int) (compute : List Value → Except Fault Value)
  /-- Names the body. -/
  | named (name : Option String) (body : Rule χ)
  /-- Stands for the rule that the grammar has under a name. -/
  | reference (name : String)
  /-- Stands for a rule that could not be built, and ends in the fault of building it. -/
  | unbuilt (fault : Fault)
  /-- A rule of the host program, with its parts. -/
  | extension (host : χ) (parts : List (Rule χ))

namespace Rule

variable {χ : Type}

/-- A rule for one character that is given as a text. -/
def ofText (text : String) : Except Fault (Rule χ) :=
  match text.toList with
  | [c] => .ok (char c)
  | _ => .error (.notOneCharacter text)

/-- Defers building a rule until it is matched, so that a fault of building it occurs only then. -/
def deferred : Except Fault (Rule χ) → Rule χ
  | .ok rule => rule
  | .error fault => unbuilt fault

mutual

def size : Rule χ → Nat
  | sequence parts => sizes parts + 1
  | firstOf alternatives => sizes alternatives + 1
  | optional body => body.size + 1
  | zeroOrMore body => body.size + 1
  | oneOrMore body => body.size + 1
  | andPredicate body => body.size + 1
  | notPredicate body => body.size + 1
  | capture body => body.size + 1
  | named _ body => body.size + 1
  | extension _ parts => sizes parts + 1
  | _ => 1

/-- The number of nodes of some rules together. -/
def sizes : List (Rule χ) → Nat
  | [] => 0
  | rule :: rest => rule.size + sizes rest

end

end Rule

/-- Named rules. A later definition hides an earlier one with the same name. -/
structure Grammar (χ : Type) where
  definitions : List (String × Rule χ) := []

namespace Grammar

variable {χ : Type}

def define (grammar : Grammar χ) (name : String) (rule : Rule χ) : Grammar χ :=
  ⟨(name, rule) :: grammar.definitions⟩

def find? (grammar : Grammar χ) (name : String) : Option (Rule χ) :=
  grammar.definitions.lookup name

def size (grammar : Grammar χ) : Nat :=
  Rule.sizes (grammar.definitions.map (·.2))

/-- A depth that no evaluation reaches before it has filled every memory there is. -/
def outOfReach : Nat := 0x1000000000000000

/-- The evaluation budget for a rule. On the way down through a grammar of combinators whose recursion is
guarded, a node recurs only after a named rule was entered or a character was consumed, and a repetition
runs at most once per character, so the product of these counts exceeds the depth of the evaluation. Rules
of a host program may recur for reasons of their own, for which the rest of the budget leaves ample room. -/
def budget (grammar : Grammar χ) (context : Context) (rule : Rule χ) : Nat :=
  let nodes := grammar.size + rule.size + 2
  nodes * (context.maxDepth.toNat + 2) * (context.source.length + 2) + outOfReach

end Grammar

/-- How a host program interprets its extensions on a machine, given the meaning of their parts. -/
abbrev Interpretation (χ : Type) (m : Type → Type) := χ → List (m Bool) → m Bool

def Interpretation.none {m : Type → Type} : Interpretation Empty m :=
  fun host => nomatch host

/-- The matcher of a rule, given the matchers of its parts and of the rules it refers to. -/
@[specialize] def Rule.denote {χ : Type} {m : Type → Type} [Machine m] (host : Interpretation χ m)
    (grammar : Grammar χ) (bound : Nat) (inner : Rule χ → m Bool) : Rule χ → m Bool
  | char c => Matcher.char c
  | literal text => Matcher.literal text
  | anyOf chars => Matcher.anyOf chars
  | range low high => Matcher.range low high
  | anyChar => Matcher.anyChar
  | endOfInput => Matcher.endOfInput
  | sequence parts => Matcher.sequence (parts.map inner)
  | firstOf alternatives => Matcher.firstOf (alternatives.map inner)
  | optional body => Matcher.optional (inner body)
  | zeroOrMore body => Matcher.repeated .zeroOrMore 0 bound (inner body)
  | oneOrMore body => Matcher.repeated .oneOrMore 1 bound (inner body)
  | andPredicate body => Matcher.andPredicate (inner body)
  | notPredicate body => Matcher.notPredicate (inner body)
  | capture body => Matcher.capture (inner body)
  | push value => Matcher.pushValue value
  | action arity compute => Matcher.action arity compute
  | named name body => Matcher.named name (inner body)
  | reference name =>
    match grammar.find? name with
    | some target => inner target
    | none => Machine.fail (.unknownName name)
  | unbuilt fault => Machine.fail fault
  | extension extended parts => host extended (parts.map inner)

/-- The matcher of a rule, within a budget. -/
@[specialize] def Rule.matcher {χ : Type} {m : Type → Type} [Machine m] (host : Interpretation χ m)
    (grammar : Grammar χ) : Nat → Rule χ → m Bool
  | 0, _ => Machine.exhausted
  | budget + 1, rule =>
    Machine.suspend fun _ => rule.denote host grammar budget (matcher host grammar budget)

end PegMatcher

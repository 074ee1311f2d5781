import PegMatcher.Engine.Cursor
import PegMatcher.ParseError
import PegMatcher.Rule

/-! # Sessions and runs

A session holds one text with its limits and the state that rules work on. A run first makes a plain pass
over the rule. If the rule matches, the value stack becomes the result. If it fails, the furthest offset of
the plain pass is frozen and diagnostic passes follow: the pass with index `k` lets `k` mismatches at that
offset go by and aborts at the next one, which yields the chain of rules that were active there. The first
pass that ends without an abort ends the search.

Faults end a run at once. An abort signal that surfaces from the plain pass is itself a fault. A run notes in
the state of the engine that it is under way, where a rule can see it: a run that is started by a rule is
refused and changes nothing.
-/

namespace PegMatcher

/-- A text with its limits, and the state of the engine. -/
structure Session (σ : Type) where
  context : Context
  state : State σ

/-- Limits that a caller may set; a size limit that is not positive means no limit. -/
structure Options where
  maxInputSize : Option Int := none
  maxRuleDepth : Option Int := none
  maxErrorStacks : Option Int := none
  callLimit : Int := defaultCallLimit

/-- What a run leaves behind: its result or fault, how often it invoked the rule, and its log. -/
structure Report where
  ending : Except Fault RunResult
  passes : Nat
  log : List LogEvent

/-- The outcome of the diagnostic passes. -/
structure Explanation (σ : Type) where
  ending : Except Fault (List RuleStack)
  passes : Nat
  log : List LogEvent
  state : State σ

variable {σ : Type}

/-- The state in which a run sets out: the run is under way, and the furthest offset is forgotten. -/
def State.startRun (state : State σ) : State σ :=
  { state with running := true, tracker := state.tracker.forget }

/-- The state that a run leaves, however it ends: no diagnostic pass is under way, and the next run is
accepted. -/
def State.endRun (state : State σ) : State σ :=
  { state with running := false, tracker := state.tracker.beginPass none }

namespace Session

def running (session : Session σ) : Bool :=
  session.state.running

/-- A session on a text, together with the warnings of setting it up. -/
def create (source : Source) (options : Options) (memory : σ) : Except Fault (Session σ × List LogEvent) :=
  let sizeLimit := options.maxInputSize.getD defaultInputSize
  if 0 < sizeLimit ∧ sizeLimit < source.length then .error (.inputTooLarge source.length sizeLimit)
  else
    let (maxDepth, log) :=
      clampDepth (options.maxRuleDepth.getD defaultRuleDepth) defaultReserve options.callLimit
    let context : Context :=
      { source := source
        maxDepth := maxDepth
        maxErrorStacks := options.maxErrorStacks.getD defaultErrorStacks }
    .ok ({ context := context, state := { running := false, memory := memory } }, log)

/-- One pass over a rule from a clean state. -/
def pass (rule : Matcher σ) (index : Option Int) : Engine σ Bool := do
  Engine.restart
  Engine.resetDepth
  Engine.beginPass index
  rule

/-- Collects rule stacks, one per diagnostic pass, until a pass ends without an abort. There is room for a
given number of further stacks. -/
def explain (context : Context) (rule : Matcher σ) (deepest : Nat) (room : Nat) (found : List RuleStack)
    (state : State σ) : Option (Explanation σ) :=
  match (pass rule (some found.length)).run context state with
  | none => none
  | some (.ok _, after) =>
    some ⟨.ok found, 1, [.stacksComplete found.length deepest], after⟩
  | some (.error (.fault fault), after) => some ⟨.error fault, 1, [], after⟩
  | some (.error (.abort path), after) =>
    match room with
    | 0 => some ⟨.error (.stackLimit context.maxErrorStacks deepest), 1, [], after⟩
    | room + 1 =>
      let stack : RuleStack := ⟨path⟩
      match explain context rule deepest room (found ++ [stack]) after with
      | none => none
      | some rest =>
        some { rest with
          passes := rest.passes + 1
          log := .stackCollected (found.length + 1) stack :: rest.log }

/-- The work of a run: the plain pass, and the diagnostic passes if it fails. -/
def attempt (context : Context) (rule : Matcher σ) (shape : Shape) (state : State σ) :
    Option (Report × State σ) :=
  let started := LogEvent.runStarted context.source.length
  match (pass rule none).run context state with
  | none => none
  | some (.ok true, after) =>
    let ending := (after.values.finalize shape).map RunResult.success
    some (⟨ending, 1, [started, .ruleMatched after.offset]⟩, after)
  | some (.ok false, after) =>
    let deepest := after.tracker.deepest
    match explain context rule deepest context.maxErrorStacks.toNat [] after with
    | none => none
    | some explanation =>
      let ending := explanation.ending.map fun collected =>
        RunResult.failure ⟨Position.resolve context.source deepest, collected⟩
      some (⟨ending, explanation.passes + 1, started :: .ruleFailed deepest :: explanation.log⟩,
        explanation.state)
  | some (.error (.fault fault), after) => some (⟨.error fault, 1, [started]⟩, after)
  | some (.error (.abort _), after) => some (⟨.error .abortEscaped, 1, [started]⟩, after)

/-- Runs a rule over the whole text, unless a run is under way. -/
def run (session : Session σ) (rule : Matcher σ) (shape : Shape) : Option (Report × Session σ) :=
  if session.running then some (⟨.error .reentered, 0, []⟩, session)
  else
    match attempt session.context rule shape session.state.startRun with
    | none => none
    | some (report, after) => some (report, { session with state := after.endRun })

/-- Runs a rule on the session that the engine is at work on. -/
def runInside (rule : Matcher σ) (shape : Shape) : Engine σ RunResult :=
  ⟨fun context state =>
    match run ⟨context, state⟩ rule shape with
    | none => none
    | some (report, session) => some (report.ending.mapError .fault, session.state)⟩

/-- Runs a rule of a grammar, with the budget that the grammar and the text call for. -/
def runRule {χ : Type} (session : Session σ) (host : Interpretation χ (Engine σ)) (grammar : Grammar χ)
    (rule : Rule χ) (shape : Shape) : Option (Report × Session σ) :=
  session.run (rule.matcher host grammar (grammar.budget session.context rule)) shape

end Session

end PegMatcher

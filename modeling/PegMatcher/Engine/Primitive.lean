import PegMatcher.Engine.Cursor

/-! # Scripts of primitive operations

A primitive names one operation of the engine together with its arguments, so that sequences of operations
are data. A script keeps the marks that it has taken and refers to them by their number. `Primitive.trace`
performs a script to its end whether or not single steps fail, and `Primitive.script` stops at the first
interrupt.
-/

namespace PegMatcher

/-- One operation of the engine. -/
inductive Primitive where
  | advance
  | peek
  | atEnd
  | offset
  | length
  | mark
  | reset (index : Nat)
  | moveTo (target : Int)
  | moveBack
  | slice (start : Int)
  | mismatch
  | restart
  | push (value : Value)
  | pop
  | popMany (count : Int)
  | top
  | truncate (depth : Int)
  | clear
  | stackDepth
  | values
  | finalize (shape : Shape)
  | beginPass (index : Option Int)
  | forgetProgress
  | observe (position : Int)
  | register (position : Int)
  | isCollecting
  | raise (interrupt : Interrupt)
  | enter
  | leave
  | resetDepth

namespace Primitive

variable {σ : Type}

def charValue (c : Char) : Value :=
  .str (String.singleton c)

def markValue (mark : Mark) : Value :=
  .list [.int mark.offset, .int mark.depth]

/-- Performs a primitive other than taking a mark; operations without a result return null. -/
def perform (marks : List Mark) : Primitive → Engine σ Value
  | advance => charValue <$> Engine.advance
  | peek => charValue <$> Engine.peek
  | atEnd => .bool <$> Engine.atEnd
  | offset => .int <$> Engine.offset
  | length => Engine.observe fun context _ => .int context.source.length
  | mark => markValue <$> Engine.mark
  | reset index => do
    match marks[index]? with
    | some target => Engine.reset target
    | none => Engine.fail .offsetOutOfRange
    return .null
  | moveTo target => do Engine.moveTo target; return .null
  | moveBack => do Engine.moveBack; return .null
  | slice start => .str <$> Engine.sliceFrom start
  | mismatch => do Engine.mismatch; return .null
  | restart => do Engine.restart; return .null
  | push value => do Engine.push value; return .null
  | pop => Engine.pop
  | popMany count => .list <$> Engine.popMany count
  | top => Engine.top
  | truncate depth => do Engine.truncate depth; return .null
  | clear => do Engine.clear; return .null
  | stackDepth => Engine.observe fun _ state => .int state.values.depth
  | values => Engine.observe fun _ state => .list state.values.toList
  | finalize shape => Engine.finalize shape
  | beginPass index => do Engine.beginPass index; return .null
  | forgetProgress => do Engine.forgetProgress; return .null
  | observe position => do Engine.observeAt position; return .null
  | register position => do Engine.registerAt position; return .null
  | isCollecting => .bool <$> Engine.isCollecting
  | raise interrupt => Engine.raise interrupt
  | enter => do Engine.enter; .int <$> Engine.depth
  | leave => do Engine.leave; .int <$> Engine.depth
  | resetDepth => do Engine.resetDepth; return .null

/-- The marks after a primitive was performed in a state: taking a mark adds it behind the others. -/
def marksAfter (marks : List Mark) (state : State σ) : Primitive → List Mark
  | mark => marks ++ [⟨state.offset, state.values.depth⟩]
  | _ => marks

/-- Performs primitives one after another, up to the first interrupt. -/
def script : List Primitive → List Mark → Engine σ Unit
  | [], _ => pure ()
  | primitive :: rest, marks => do
    let after ← Engine.observe fun _ state => marksAfter marks state primitive
    let _ ← primitive.perform marks
    script rest after

/-- Performs all primitives and records for each its outcome and the state behind it. -/
def trace (context : Context) : List Primitive → List Mark → State σ →
    List (Except Interrupt Value × State σ)
  | [], _, _ => []
  | primitive :: rest, marks, state =>
    match (primitive.perform marks).run context state with
    | some (outcome, after) =>
      (outcome, after) :: trace context rest (marksAfter marks state primitive) after
    | none => []

end Primitive

end PegMatcher

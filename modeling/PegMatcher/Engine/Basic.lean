import PegMatcher.Text.Source
import PegMatcher.Tracker
import PegMatcher.ValueStack
import PegMatcher.Frame

/-! # The engine

A computation of the engine reads a fixed context, transforms a state, and ends in one of three ways: it
returns a result, a fault stops it, or the abort signal of a diagnostic pass unwinds it. The state is kept
in all three cases, because nothing is rolled back while a computation unwinds. A computation that runs out
of its evaluation budget has no outcome at all, so that this is never confused with an answer.

`run_bind` says how computations compose, and it is the only fact about composition that is needed.
-/

namespace PegMatcher

/-- What stays fixed during a run: the text, the allowed nesting of named rules, and the allowed number of
rule stacks. -/
structure Context where
  source : Source
  maxDepth : Int
  maxErrorStacks : Int

/-- The state of the engine. It says whether a run is under way, as it is whenever a rule is matched. Host rules
may keep a memory of type `σ` between their invocations. -/
structure State (σ : Type) where
  offset : Int := 0
  values : ValueStack := .empty
  tracker : Tracker := {}
  depth : Int := 0
  running : Bool := true
  memory : σ

/-- A place to return to: an offset and the depth of the value stack. -/
structure Mark where
  offset : Int
  depth : Nat
  deriving DecidableEq, Repr

/-- Why a computation ended without a result. The abort signal carries the frames of the rules that it has
unwound, the outermost first. -/
inductive Interrupt where
  | fault (fault : Fault)
  | abort (path : List Frame)

/-- An interrupt as it leaves a rule: the abort signal takes the frame of that rule along. -/
def Interrupt.within (frame : Frame) : Interrupt → Interrupt
  | fault cause => fault cause
  | abort path => abort (frame :: path)

/-- A computation of the engine. -/
structure Engine (σ α : Type) where
  run : Context → State σ → Option (Except Interrupt α × State σ)

/-- A matcher answers whether it matches at the cursor. -/
abbrev Matcher (σ : Type) := Engine σ Bool

namespace Engine

variable {σ α β : Type}

@[ext] theorem ext {first second : Engine σ α}
    (same : ∀ context state, first.run context state = second.run context state) : first = second := by
  cases first; cases second
  simp only [mk.injEq]
  funext context state
  exact same context state

@[inline] protected def pure (result : α) : Engine σ α :=
  ⟨fun _ state => some (.ok result, state)⟩

@[inline] protected def bind (first : Engine σ α) (next : α → Engine σ β) : Engine σ β :=
  ⟨fun context state =>
    match first.run context state with
    | none => none
    | some (.ok result, after) => (next result).run context after
    | some (.error interrupt, after) => some (.error interrupt, after)⟩

instance : Monad (Engine σ) where
  pure := Engine.pure
  bind := Engine.bind

@[simp] theorem run_pure (result : α) (context : Context) (state : State σ) :
    (pure result : Engine σ α).run context state = some (.ok result, state) := rfl

theorem run_bind (first : Engine σ α) (next : α → Engine σ β) (context : Context) (state : State σ) :
    (first >>= next).run context state =
      match first.run context state with
      | none => none
      | some (.ok result, after) => (next result).run context after
      | some (.error interrupt, after) => some (.error interrupt, after) := rfl

/-- A composed computation returns a result if and only if its parts do. -/
theorem run_bind_eq_ok_iff {first : Engine σ α} {next : α → Engine σ β} {context : Context}
    {state after : State σ} {result : β} :
    (first >>= next).run context state = some (.ok result, after) ↔
      ∃ middle between, first.run context state = some (.ok middle, between) ∧
        (next middle).run context between = some (.ok result, after) := by
  rw [run_bind]
  constructor
  · intro run
    split at run
    · cases run
    · exact ⟨_, _, ‹_›, run⟩
    · cases run
  · rintro ⟨middle, between, head, tail⟩
    simp only [head, tail]

/-- Has no outcome: the evaluation budget is used up. -/
def exhausted : Engine σ α :=
  ⟨fun _ _ => none⟩

@[inline] def raise (interrupt : Interrupt) : Engine σ α :=
  ⟨fun _ state => some (.error interrupt, state)⟩

@[inline] def fail (fault : Fault) : Engine σ α :=
  raise (.fault fault)

@[inline] def observe (view : Context → State σ → α) : Engine σ α :=
  ⟨fun context state => some (.ok (view context state), state)⟩

@[inline] def modify (change : State σ → State σ) : Engine σ Unit :=
  ⟨fun _ state => some (.ok (), change state)⟩

/-- Adds a frame to the abort signal of a computation. -/
@[inline] def framed (frame : Frame) (inner : Engine σ α) : Engine σ α :=
  ⟨fun context state =>
    match inner.run context state with
    | none => none
    | some (.ok result, after) => some (.ok result, after)
    | some (.error interrupt, after) => some (.error (interrupt.within frame), after)⟩

/-- A frame only matters to an interrupt. -/
theorem run_framed_eq_ok_iff {frame : Frame} {inner : Engine σ α} {context : Context}
    {state after : State σ} {result : α} :
    (framed frame inner).run context state = some (.ok result, after) ↔
      inner.run context state = some (.ok result, after) := by
  simp only [framed]
  constructor
  · intro run
    split at run
    · cases run
    · cases run
      assumption
    · cases run
  · intro run
    simp only [run]

/-- Changes the state after a computation, however it ended. -/
@[inline] def always (inner : Engine σ α) (change : State σ → State σ) : Engine σ α :=
  ⟨fun context state =>
    match inner.run context state with
    | none => none
    | some (outcome, after) => some (outcome, change after)⟩

/-- Answers a chosen kind of interrupt with a result; the state is left as the interrupt left it. -/
@[inline] def recover (inner : Engine σ α) (handle : Interrupt → Option α) : Engine σ α :=
  ⟨fun context state =>
    match inner.run context state with
    | none => none
    | some (.ok result, after) => some (.ok result, after)
    | some (.error interrupt, after) =>
      match handle interrupt with
      | some result => some (.ok result, after)
      | none => some (.error interrupt, after)⟩

end Engine

end PegMatcher

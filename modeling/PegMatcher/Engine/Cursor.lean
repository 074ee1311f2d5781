import PegMatcher.Engine.Basic
import PegMatcher.Limits
import PegMatcher.Machine

/-! # Primitive operations

The operations by which rules work on the engine: reading and moving the cursor, marking a place and
returning to it, the value stack, the tracker, and the guard on the nesting of named rules. Each one is a
single step with an explicit effect on the state. With them the engine is a machine for matchers.
-/

namespace PegMatcher.Engine

variable {σ : Type}

@[inline] def offset : Engine σ Int :=
  observe fun _ state => state.offset

@[inline] def atEnd : Engine σ Bool :=
  observe fun context state => decide ((context.source.length : Int) ≤ state.offset)

/-- The character at the cursor, or the end marker. -/
def peek : Engine σ Char :=
  ⟨fun context state =>
    if state.offset < context.source.length then
      match context.source.charAt state.offset with
      | .ok c => some (.ok c, state)
      | .error fault => some (.error (.fault fault), state)
    else some (.ok endMarker, state)⟩

/-- Consumes one character and reports the progress; at the end it stays and returns the end marker. -/
def advance : Engine σ Char :=
  ⟨fun context state =>
    if state.offset < context.source.length then
      match context.source.charAt state.offset with
      | .ok c =>
        some (.ok c, { state with
          offset := state.offset + 1
          tracker := state.tracker.observe (state.offset + 1) })
      | .error fault => some (.error (.fault fault), state)
    else some (.ok endMarker, state)⟩

/-- Moves the cursor without any check. -/
@[inline] def moveTo (target : Int) : Engine σ Unit :=
  modify fun state => { state with offset := target }

/-- Moves the cursor one character back, but not in front of the text. -/
@[inline] def moveBack : Engine σ Unit :=
  modify fun state => { state with offset := max 0 (state.offset - 1) }

@[inline] def sliceFrom (start : Int) : Engine σ String :=
  observe fun context state => context.source.slice start state.offset

@[noinline] def mark : Engine σ Mark :=
  observe fun _ state => ⟨state.offset, state.values.depth⟩

/-- Cuts the value stack back to a depth. -/
def truncate (depth : Int) : Engine σ Unit :=
  ⟨fun _ state =>
    match state.values.restorable depth with
    | .ok kept => some (.ok (), { state with values := state.values.take kept })
    | .error fault => some (.error (.fault fault), state)⟩

/-- Returns to a marked place: first the cursor, then the value stack. -/
@[inline] def reset (target : Mark) : Engine σ Unit := do
  moveTo target.offset
  truncate target.depth

/-- Moves to the start of the text and drops all values. -/
@[inline] def restart : Engine σ Unit :=
  modify fun state => { state with offset := 0, values := .empty }

@[inline] def push (value : Value) : Engine σ Unit :=
  modify fun state => { state with values := state.values.push value }

def pop : Engine σ Value :=
  ⟨fun _ state =>
    match state.values.top? with
    | some value => some (.ok value, { state with values := state.values.below })
    | none => some (.error (.fault (.stackUnderflow .pop)), state)⟩

/-- Takes the top values off the stack and returns them from the bottom up. -/
def popMany (count : Int) : Engine σ (List Value) :=
  ⟨fun _ state =>
    match state.values.remaining count with
    | .ok kept => some (.ok (state.values.above kept), { state with values := state.values.take kept })
    | .error fault => some (.error (.fault fault), state)⟩

def top : Engine σ Value :=
  ⟨fun _ state =>
    match state.values.top? with
    | some value => some (.ok value, state)
    | none => some (.error (.fault (.stackUnderflow .peek)), state)⟩

@[inline] def clear : Engine σ Unit :=
  modify fun state => { state with values := .empty }

def finalize (shape : Shape) : Engine σ Value :=
  ⟨fun _ state =>
    match state.values.finalize shape with
    | .ok value => some (.ok value, state)
    | .error fault => some (.error (.fault fault), state)⟩

/-- Reports a mismatch at an offset, which may end a diagnostic pass. -/
def registerAt (position : Int) : Engine σ Unit :=
  ⟨fun _ state =>
    let (aborts, tracker) := state.tracker.register position
    if aborts then some (.error (.abort []), { state with tracker := tracker })
    else some (.ok (), { state with tracker := tracker })⟩

@[inline] def mismatch : Engine σ Unit := do
  registerAt (← offset)

@[inline] def observeAt (position : Int) : Engine σ Unit :=
  modify fun state => { state with tracker := state.tracker.observe position }

/-- Starts a plain pass, or a diagnostic pass with an index. -/
@[inline] def beginPass (index : Option Int) : Engine σ Unit :=
  modify fun state => { state with tracker := state.tracker.beginPass index }

@[inline] def forgetProgress : Engine σ Unit :=
  modify fun state => { state with tracker := state.tracker.forget }

@[inline] def isCollecting : Engine σ Bool :=
  observe fun _ state => state.tracker.isCollecting

/-- The number of named rules entered and not yet left. -/
@[inline] def depth : Engine σ Int :=
  observe fun _ state => state.depth

/-- Enters a named rule unless the allowed nesting is used up. -/
def enter : Engine σ Unit :=
  ⟨fun context state =>
    if context.maxDepth ≤ state.depth then some (.error (.fault (.depthExceeded context.maxDepth)), state)
    else some (.ok (), { state with depth := state.depth + 1 })⟩

@[inline] def leave : Engine σ Unit :=
  modify fun state => { state with depth := state.depth - 1 }

@[inline] def resetDepth : Engine σ Unit :=
  modify fun state => { state with depth := 0 }

/-- Runs a computation one level deeper; the level is left however the computation ends. -/
@[inline] def nested {α : Type} (inner : Engine σ α) : Engine σ α := do
  enter
  inner.always fun state => { state with depth := state.depth - 1 }

instance : Machine (Engine σ) where
  Place := Mark
  atEnd := atEnd
  peek := peek
  advance := advance
  offset := offset
  moveTo := moveTo
  sliceFrom := sliceFrom
  mark := mark
  reset := reset
  mismatch := mismatch
  push := push
  popMany := popMany
  fail := fail
  framed := framed
  nested := nested
  exhausted := exhausted

def markOf (state : State σ) : Mark :=
  ⟨state.offset, state.values.depth⟩

theorem run_mark_bind {α : Type} (next : Machine.Place (Engine σ) → Engine σ α) (context : Context)
    (state : State σ) :
    (Machine.mark >>= next : Engine σ α).run context state = (next (markOf state)).run context state := rfl

theorem run_offset_bind {α : Type} (next : Int → Engine σ α) (context : Context) (state : State σ) :
    (Machine.offset >>= next : Engine σ α).run context state = (next state.offset).run context state := rfl

/-- Looking at the next character changes nothing. -/
theorem state_of_peek {context : Context} {state after : State σ} {outcome : Except Interrupt Char}
    (run : (peek : Engine σ Char).run context state = some (outcome, after)) : after = state := by
  simp only [peek] at run
  repeat' split at run
  all_goals cases run
  all_goals rfl

/-- Consuming a character leaves the values alone. -/
theorem values_of_advance {context : Context} {state after : State σ} {outcome : Except Interrupt Char}
    (run : (advance : Engine σ Char).run context state = some (outcome, after)) :
    after.values = state.values := by
  simp only [advance] at run
  repeat' split at run
  all_goals cases run
  all_goals rfl

/-- A mismatch is noted by the tracker only, also when it ends a diagnostic pass. -/
theorem state_of_mismatch {context : Context} {state after : State σ} {outcome : Except Interrupt Unit}
    (run : (mismatch : Engine σ Unit).run context state = some (outcome, after)) :
    ∃ tracker, after = { state with tracker := tracker } := by
  change (registerAt state.offset).run context state = _ at run
  simp only [registerAt] at run
  split at run <;> cases run <;> exact ⟨_, rfl⟩

/-- A return moves the cursor even if the stack turns out not to reach the marked depth. -/
theorem run_reset (target : Mark) (context : Context) (state : State σ) :
    (Machine.reset target : Engine σ Unit).run context state =
      if state.values.depth < target.depth then
        some (.error (.fault (.invalidMark target.depth state.values.depth)),
          { state with offset := target.offset })
      else some (.ok (), { state with offset := target.offset, values := state.values.take target.depth }) := by
  simp only [Machine.reset, reset, run_bind, moveTo, modify, truncate, ValueStack.restorable]
  by_cases short : state.values.depth < target.depth
  · rw [if_pos (by omega), if_pos short]
  · rw [if_neg (by omega), if_neg short, Int.toNat_natCast]

theorem run_reset_eq_ok_iff {target : Mark} {context : Context} {state after : State σ} :
    (Machine.reset target : Engine σ Unit).run context state = some (.ok (), after) ↔
      target.depth ≤ state.values.depth ∧
        after = { state with offset := target.offset, values := state.values.take target.depth } := by
  rw [run_reset]
  split
  · constructor
    · intro run
      cases run
    · rintro ⟨reached, _⟩
      omega
  · constructor
    · intro run
      cases run
      exact ⟨by omega, rfl⟩
    · rintro ⟨_, rfl⟩
      rfl

/-- A frame goes along with an interrupt, and makes no other difference. -/
theorem run_framed {α : Type} (frame : Frame) (inner : Engine σ α) (context : Context) (state : State σ) :
    (Machine.framed frame inner).run context state =
      (inner.run context state).map fun (outcome, after) => (outcome.mapError (Interrupt.within frame), after) := by
  simp only [Machine.framed, framed]
  rcases inner.run context state with _ | ⟨_ | _, _⟩ <;> rfl

/-- A named rule is refused at the allowed nesting, and else runs one level deeper. -/
theorem run_nested {α : Type} (inner : Engine σ α) (context : Context) (state : State σ) :
    (Machine.nested inner).run context state =
      if context.maxDepth ≤ state.depth then
        some (.error (.fault (.depthExceeded context.maxDepth)), state)
      else (inner.run context { state with depth := state.depth + 1 }).map
        fun (outcome, after) => (outcome, { after with depth := after.depth - 1 }) := by
  simp only [Machine.nested, nested, run_bind, enter]
  by_cases refused : context.maxDepth ≤ state.depth
  · simp only [refused, ↓reduceIte]
  · simp only [refused, ↓reduceIte, always]
    cases inner.run context { state with depth := state.depth + 1 } <;> rfl

end PegMatcher.Engine

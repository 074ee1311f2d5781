import PegMatcher.Engine.Cursor
import PegMatcher.Proofs.Simulation

/-! # Recorded evaluations

A recorded evaluation is an evaluation of the engine that also keeps a record of its moments: after every
operation, what was done, which rules were active, and the state it led to. Evaluations come in two kinds
that differ in one operation. A return by depth is the engine's own: it cuts the value stack back to the
depth of the mark. A return by snapshot puts back the very stack that the mark was taken of.

`run_eq_forget` says that a recorded evaluation by depth is the evaluation of the engine with a record.
-/

namespace PegMatcher

/-- How a return to a marked place treats the value stack. -/
inductive Rollback where
  | byDepth
  | bySnapshot

/-- A marked place with all the values there were, and the number of moments before it. -/
structure Checkpoint where
  offset : Int
  values : ValueStack
  taken : Nat

def Checkpoint.toMark (place : Checkpoint) : Mark :=
  ⟨place.offset, place.values.depth⟩

/-- What a step did, as far as it matters afterwards. A return tells its checkpoint by the number of moments
before it and the depth of the stack at it. -/
inductive Step where
  | mismatch
  | reset (taken depth : Nat)
  | other

/-- A moment of an evaluation: the step that led to it, the active rules from the top rule down, and the
state. -/
structure Moment (σ : Type) where
  step : Step
  active : List Frame
  state : State σ

/-- The offset and the active rules of a moment at which a mismatch was reported. -/
def Moment.mismatch? {σ : Type} (moment : Moment σ) : Option (Int × List Frame) :=
  match moment.step with
  | .mismatch => some (moment.state.offset, moment.active)
  | _ => none

def Moment.depth {σ : Type} (moment : Moment σ) : Nat :=
  moment.state.values.depth

/-- The reported mismatches of a record in order, each with its offset and the active rules. -/
def mismatches {σ : Type} (record : List (Moment σ)) : List (Int × List Frame) :=
  record.filterMap Moment.mismatch?

@[simp] theorem mismatches_append {σ : Type} (early late : List (Moment σ)) :
    mismatches (early ++ late) = mismatches early ++ mismatches late :=
  List.filterMap_append

/-- A computation with a record. It is given the active rules and the moments before it, and returns the
moments that it adds. -/
structure Evaluation (rollback : Rollback) (σ α : Type) where
  run : Context → List Frame → List (Moment σ) → State σ →
    Option (Except Interrupt α × State σ × List (Moment σ))

namespace Evaluation

variable {rollback : Rollback} {σ α β : Type}

protected def pure (result : α) : Evaluation rollback σ α :=
  ⟨fun _ _ _ state => some (.ok result, state, [])⟩

protected def bind (first : Evaluation rollback σ α) (next : α → Evaluation rollback σ β) :
    Evaluation rollback σ β :=
  ⟨fun context active past state =>
    match first.run context active past state with
    | none => none
    | some (.error interrupt, after, early) => some (.error interrupt, after, early)
    | some (.ok result, middle, early) =>
      match (next result).run context active (past ++ early) middle with
      | none => none
      | some (outcome, after, late) => some (outcome, after, early ++ late)⟩

instance : Monad (Evaluation rollback σ) where
  pure := Evaluation.pure
  bind := Evaluation.bind

def perform (step : Step) (operation : Engine σ α) : Evaluation rollback σ α :=
  ⟨fun context active _ state =>
    match operation.run context state with
    | none => none
    | some (outcome, after) => some (outcome, after, [⟨step, active, after⟩])⟩

def mark : Evaluation rollback σ Checkpoint :=
  ⟨fun _ active past state =>
    some (.ok ⟨state.offset, state.values, past.length⟩, state, [⟨.other, active, state⟩])⟩

/-- The return to a checkpoint as an operation of the engine. -/
def resume (rollback : Rollback) (target : Checkpoint) : Engine σ Unit :=
  match rollback with
  | .byDepth => Engine.reset target.toMark
  | .bySnapshot =>
    Engine.modify fun state => { state with offset := target.offset, values := target.values }

def reset (target : Checkpoint) : Evaluation rollback σ Unit :=
  perform (.reset target.taken target.values.depth) (resume rollback target)

/-- Has one more rule active during a computation. -/
def framed (frame : Frame) (inner : Evaluation rollback σ α) : Evaluation rollback σ α :=
  ⟨fun context active past state =>
    match inner.run context (active ++ [frame]) past state with
    | none => none
    | some (.ok result, after, record) => some (.ok result, after, record)
    | some (.error interrupt, after, record) => some (.error (interrupt.within frame), after, record)⟩

/-- Changes the state as a last step of a computation, however it ended. -/
def always (inner : Evaluation rollback σ α) (change : State σ → State σ) : Evaluation rollback σ α :=
  ⟨fun context active past state =>
    match inner.run context active past state with
    | none => none
    | some (outcome, after, record) =>
      some (outcome, change after, record ++ [⟨.other, active, change after⟩])⟩

def nested (inner : Evaluation rollback σ α) : Evaluation rollback σ α := do
  perform .other Engine.enter
  inner.always fun state => { state with depth := state.depth - 1 }

instance : Machine (Evaluation rollback σ) where
  Place := Checkpoint
  atEnd := perform .other Engine.atEnd
  peek := perform .other Engine.peek
  advance := perform .other Engine.advance
  offset := perform .other Engine.offset
  moveTo target := perform .other (Engine.moveTo target)
  sliceFrom start := perform .other (Engine.sliceFrom start)
  mark := mark
  reset := reset
  mismatch := perform .mismatch Engine.mismatch
  push value := perform .other (Engine.push value)
  popMany count := perform .other (Engine.popMany count)
  fail fault := perform .other (Engine.fail fault)
  framed := framed
  nested := nested
  exhausted := ⟨fun _ _ _ _ => none⟩

section Runs

variable {context : Context} {active : List Frame} {past record : List (Moment σ)} {state after : State σ}

theorem run_bind_eq_some {first : Evaluation rollback σ α} {next : α → Evaluation rollback σ β}
    {outcome : Except Interrupt β} :
    (first >>= next).run context active past state = some (outcome, after, record) ↔
      (∃ interrupt, outcome = .error interrupt ∧
        first.run context active past state = some (.error interrupt, after, record)) ∨
      ∃ result middle early late, first.run context active past state = some (.ok result, middle, early) ∧
        (next result).run context active (past ++ early) middle = some (outcome, after, late) ∧
        record = early ++ late := by
  change (Evaluation.bind first next).run context active past state = _ ↔ _
  simp only [Evaluation.bind]
  constructor
  · intro run
    split at run
    · cases run
    · cases run
      exact .inl ⟨_, rfl, ‹_›⟩
    · split at run
      · cases run
      · cases run
        exact .inr ⟨_, _, _, _, ‹_›, ‹_›, rfl⟩
  · rintro (⟨interrupt, rfl, run⟩ | ⟨result, middle, early, late, run, rest, rfl⟩)
    · simp only [run]
    · simp only [run, rest]

/-- A composed evaluation returns a result if and only if its parts do. -/
theorem run_bind_eq_ok {first : Evaluation rollback σ α} {next : α → Evaluation rollback σ β} {result : β} :
    (first >>= next).run context active past state = some (.ok result, after, record) ↔
      ∃ a middle early late, first.run context active past state = some (.ok a, middle, early) ∧
        (next a).run context active (past ++ early) middle = some (.ok result, after, late) ∧
        record = early ++ late := by
  rw [run_bind_eq_some]
  constructor
  · rintro (⟨interrupt, same, _⟩ | parts)
    · cases same
    · exact parts
  · exact .inr

theorem run_perform_eq_some {step : Step} {operation : Engine σ α} {outcome : Except Interrupt α} :
    (perform step operation : Evaluation rollback σ α).run context active past state =
        some (outcome, after, record) ↔
      operation.run context state = some (outcome, after) ∧ record = [⟨step, active, after⟩] := by
  simp only [perform]
  constructor
  · intro run
    split at run
    · cases run
    · cases run
      exact ⟨‹_›, rfl⟩
  · rintro ⟨run, rfl⟩
    simp only [run]

theorem run_framed_eq_some {frame : Frame} {inner : Evaluation rollback σ α}
    {outcome : Except Interrupt α} :
    (framed frame inner).run context active past state = some (outcome, after, record) ↔
      ∃ original, inner.run context (active ++ [frame]) past state = some (original, after, record) ∧
        outcome = original.mapError (Interrupt.within frame) := by
  simp only [framed]
  constructor
  · intro run
    split at run
    · cases run
    · cases run
      exact ⟨_, ‹_›, rfl⟩
    · cases run
      exact ⟨_, ‹_›, rfl⟩
  · rintro ⟨original, run, rfl⟩
    cases original <;> simp only [run, Except.mapError]

theorem run_framed_eq_ok {frame : Frame} {inner : Evaluation rollback σ α} {result : α} :
    (framed frame inner).run context active past state = some (.ok result, after, record) ↔
      inner.run context (active ++ [frame]) past state = some (.ok result, after, record) := by
  rw [run_framed_eq_some]
  constructor
  · rintro ⟨original, run, same⟩
    cases original with
    | ok => cases same; exact run
    | error => cases same
  · exact fun run => ⟨.ok result, run, rfl⟩

theorem run_always_eq_some {inner : Evaluation rollback σ α} {change : State σ → State σ}
    {outcome : Except Interrupt α} :
    (always inner change).run context active past state = some (outcome, after, record) ↔
      ∃ ended moments, inner.run context active past state = some (outcome, ended, moments) ∧
        after = change ended ∧ record = moments ++ [⟨.other, active, change ended⟩] := by
  simp only [always]
  constructor
  · intro run
    split at run
    · cases run
    · cases run
      exact ⟨_, _, ‹_›, rfl, rfl⟩
  · rintro ⟨ended, moments, run, rfl, rfl⟩
    simp only [run]

/-- Looking at the next character changes nothing. It fails at the end of the text, and else tells whether the
character at the cursor is accepted. -/
theorem nextIs_cases {accepts : Char → Bool} {answer : Bool}
    (ran : (Matcher.nextIs accepts : Evaluation rollback σ Bool).run context active past state =
      some (.ok answer, after, record)) :
    after = state ∧ (⟨.other, active, state⟩ : Moment σ) ∈ record ∧
      ((context.source.length : Int) ≤ state.offset ∧ answer = false ∨
        state.offset < context.source.length ∧
          ∃ c, context.source.charAt state.offset = .ok c ∧ answer = accepts c) := by
  obtain ⟨ended, middle, early, late, looked, rest, rfl⟩ := run_bind_eq_ok.mp ran
  obtain ⟨performed, rfl⟩ := run_perform_eq_some.mp looked
  cases performed
  split at rest
  · rename_i ended
    cases rest
    exact ⟨rfl, List.mem_singleton.mpr rfl, .inl ⟨of_decide_eq_true ended, rfl⟩⟩
  · rename_i goesOn
    have before : ¬(context.source.length : Int) ≤ state.offset := fun ended => goesOn (decide_eq_true ended)
    obtain ⟨c, last, _, _, peeked, answered, rfl⟩ := run_bind_eq_ok.mp rest
    obtain ⟨performed, rfl⟩ := run_perform_eq_some.mp peeked
    cases answered
    simp only [Engine.peek] at performed
    rw [if_pos (by omega)] at performed
    split at performed <;> cases performed
    exact ⟨rfl, List.mem_cons_self, .inr ⟨by omega, c, ‹_›, rfl⟩⟩

/-- Steps that touch the values alone and report nothing. -/
structure ValuesOnly (state after : State σ) (record : List (Moment σ)) : Prop where
  offset : after.offset = state.offset
  tracker : after.tracker = state.tracker
  depth : after.depth = state.depth
  silent : mismatches record = []

theorem ValuesOnly.andThen {middle : State σ} {early late : List (Moment σ)} (first : ValuesOnly state middle early)
    (second : ValuesOnly middle after late) : ValuesOnly state after (early ++ late) := by
  refine ⟨second.offset.trans first.offset, second.tracker.trans first.tracker,
    second.depth.trans first.depth, ?_⟩
  rw [mismatches_append, first.silent, second.silent, List.append_nil]

theorem valuesOnly_pushValue {value : Value} {answer : Bool}
    (ran : (Matcher.pushValue value : Evaluation rollback σ Bool).run context active past state =
      some (.ok answer, after, record)) : answer = true ∧ ValuesOnly state after record := by
  obtain ⟨_, middle, early, late, pushed, answered, rfl⟩ := run_bind_eq_ok.mp ran
  obtain ⟨performed, rfl⟩ := run_perform_eq_some.mp pushed
  cases performed
  cases answered
  exact ⟨rfl, rfl, rfl, rfl, rfl⟩

theorem valuesOnly_action {arity : Int} {compute : List Value → Except Fault Value} {answer : Bool}
    (ran : (Matcher.action arity compute : Evaluation rollback σ Bool).run context active past state =
      some (.ok answer, after, record)) : answer = true ∧ ValuesOnly state after record := by
  obtain ⟨operands, middle, early, late, popped, rest, rfl⟩ := run_bind_eq_ok.mp ran
  obtain ⟨performed, rfl⟩ := run_perform_eq_some.mp popped
  have taken : ValuesOnly state middle [⟨.other, active, middle⟩] := by
    simp only [Engine.popMany] at performed
    split at performed <;> cases performed
    exact ⟨rfl, rfl, rfl, rfl⟩
  obtain ⟨value, between, none, last, computed, pushing, rfl⟩ := run_bind_eq_ok.mp rest
  cases result : compute operands with
  | error fault =>
    rw [result] at computed
    cases computed
  | ok value =>
    rw [result] at computed
    cases computed
    obtain ⟨rfl, pushed⟩ := valuesOnly_pushValue pushing
    exact ⟨rfl, taken.andThen pushed⟩

/-- A capture answers as its body does, and at most pushes a value behind it. -/
theorem capture_cases {x : Evaluation rollback σ Bool} {answer : Bool}
    (ran : (Matcher.capture x).run context active past state = some (.ok answer, after, record)) :
    ∃ early middle moments late,
      x.run context (active ++ [{ kind := .capture }]) (past ++ early) state = some (.ok answer, middle, moments) ∧
      mismatches early = [] ∧ ValuesOnly middle after late ∧ record = early ++ (moments ++ late) := by
  obtain ⟨start, _, early, _, looked, rest, rfl⟩ := run_bind_eq_ok.mp (run_framed_eq_ok.mp ran)
  obtain ⟨performed, rfl⟩ := run_perform_eq_some.mp looked
  cases performed
  obtain ⟨matched, middle, moments, late, began, tail, rfl⟩ := run_bind_eq_ok.mp rest
  have ended : answer = matched ∧ ValuesOnly middle after late := by
    cases matched with
    | false =>
      cases tail
      exact ⟨rfl, rfl, rfl, rfl, rfl⟩
    | true =>
      obtain ⟨text, _, _, _, sliced, pushing, rfl⟩ := run_bind_eq_ok.mp tail
      obtain ⟨performed, rfl⟩ := run_perform_eq_some.mp sliced
      cases performed
      obtain ⟨rfl, pushed⟩ := valuesOnly_pushValue pushing
      exact ⟨rfl, pushed.offset, pushed.tracker, pushed.depth, pushed.silent⟩
  obtain ⟨rfl, touched⟩ := ended
  exact ⟨_, middle, moments, late, began, rfl, touched, rfl⟩

end Runs

end Evaluation

namespace Evaluation

variable {σ : Type}

/-- A run with a record beside a run without one: both have no outcome, or they end in the same state. -/
inductive Forgets {α β : Type} (R : α → β → Prop) :
    Option (Except Interrupt α × State σ × List (Moment σ)) → Option (Except Interrupt β × State σ) → Prop
  | none : Forgets R none none
  | some {first : Except Interrupt α} {second : Except Interrupt β} {after : State σ}
      {record : List (Moment σ)} : Outcomes R first second →
      Forgets R (some (first, after, record)) (some (second, after))

private theorem forgets_perform {α : Type} {R : α → α → Prop} (refl : ∀ result, R result result) (step : Step)
    (operation : Engine σ α) (context : Context) (active : List Frame) (past : List (Moment σ))
    (state : State σ) :
    Forgets R ((perform step operation : Evaluation .byDepth σ α).run context active past state)
      (operation.run context state) := by
  simp only [perform]
  cases operation.run context state with
  | none => exact .none
  | some ending =>
    obtain ⟨outcome, after⟩ := ending
    cases outcome with
    | ok result => exact .some (.ok (refl result))
    | error interrupt => exact .some (.error interrupt)

private theorem forgets_bind {α β γ δ : Type} {R : α → β → Prop} {T : γ → δ → Prop}
    {first : Evaluation .byDepth σ α} {next : α → Evaluation .byDepth σ γ} {first' : Engine σ β}
    {next' : β → Engine σ δ} {context : Context} {active : List Frame} {past : List (Moment σ)}
    {state : State σ}
    (head : Forgets R (first.run context active past state) (first'.run context state))
    (tail : ∀ a b, R a b → ∀ later middle,
      Forgets T ((next a).run context active later middle) ((next' b).run context middle)) :
    Forgets T ((first >>= next).run context active past state) ((first' >>= next').run context state) := by
  change Forgets T ((Evaluation.bind first next).run context active past state) _
  simp only [Evaluation.bind, Engine.run_bind]
  generalize first.run context active past state = recorded at head ⊢
  generalize first'.run context state = plain at head ⊢
  cases head with
  | none => exact .none
  | @some _ _ middle early outcomes =>
    cases outcomes with
    | error interrupt => exact .some (.error interrupt)
    | @ok a b related =>
      have rest := tail a b related (past ++ early) middle
      dsimp only
      generalize (next a).run context active (past ++ early) middle = recorded at rest ⊢
      generalize (next' b).run context middle = plain at rest ⊢
      cases rest with
      | none => exact .none
      | some outcomes => exact .some outcomes

/-- Forgetting the record is a simulation: the depth of a checkpoint is all that the engine keeps of it. -/
def forgetting (σ : Type) : ModularSimulation (Evaluation .byDepth σ) (Engine σ) where
  Rel live R x y := (∀ (p : Checkpoint) (q : Mark), live p q → q = p.toMark) →
    ∀ context active past state, Forgets R (x.run context active past state) (y.run context state)
  Offsets := Eq
  offsets_eq_iff := Simulation.eq_offsets
  pure related := fun _ _ _ _ _ => .some (.ok related)
  bind head tail := fun places _ _ _ _ =>
    forgets_bind (head places _ _ _ _) fun a b related _ _ => tail a b related places _ _ _ _
  mark_bind tail := by
    intro places context active past state
    have marked : Forgets (fun (p : Checkpoint) (q : Mark) => q = p.toMark)
        ((mark : Evaluation .byDepth σ Checkpoint).run context active past state)
        ((Engine.mark : Engine σ Mark).run context state) := .some (.ok rfl)
    refine forgets_bind marked ?_
    rintro p _ rfl later middle
    refine tail _ _ ?_ context active later middle
    rintro p' q' (old | ⟨rfl, rfl⟩)
    · exact places p' q' old
    · rfl
  reset known := fun places context active past state => by
    cases places _ _ known
    exact forgets_perform (fun _ => trivial) _ _ _ _ _ _
  atEnd := fun _ => forgets_perform (fun _ => rfl) _ _
  peek := fun _ => forgets_perform (fun _ => rfl) _ _
  advance := fun _ => forgets_perform (fun _ => trivial) _ _
  offset := fun _ => forgets_perform (fun _ => rfl) _ _
  moveTo := by rintro _ a _ rfl _; exact forgets_perform (fun _ => trivial) _ _
  sliceFrom := by rintro _ a _ rfl _; exact forgets_perform (fun _ => rfl) _ _
  mismatch := fun _ => forgets_perform (fun _ => trivial) _ _
  push value := fun _ => forgets_perform (fun _ => trivial) _ _
  popMany count := fun _ => forgets_perform (fun _ => rfl) _ _
  fail fault _ := fun _ _ _ _ _ => .some (.error _)
  anyFrame frame inner := by
    intro places context active past state
    have ended := inner places context (active ++ [frame]) past state
    change Forgets _ ((Evaluation.framed frame _).run context active past state) _
    rw [Engine.run_framed]
    simp only [Evaluation.framed]
    generalize Evaluation.run _ context (active ++ [frame]) past state = recorded at ended ⊢
    generalize Engine.run _ context state = plain at ended ⊢
    cases ended with
    | none => exact .none
    | some outcomes =>
      cases outcomes with
      | ok related => exact .some (.ok related)
      | error interrupt => exact .some (.error _)
  nested inner := by
    intro places context active past state
    refine forgets_bind (forgets_perform (fun _ => rfl) .other Engine.enter _ _ _ _) ?_
    intro _ _ _ later middle
    have ended := inner places context active later middle
    simp only [Evaluation.always, Engine.always]
    generalize Evaluation.run _ context active later middle = recorded at ended ⊢
    generalize Engine.run _ context middle = plain at ended ⊢
    cases ended with
    | none => exact .none
    | some outcomes => exact .some outcomes
  exhausted := fun _ _ _ _ _ => .none

/-- An evaluation by depth is the evaluation of the engine, with a record. -/
theorem run_eq_forget {χ : Type} {host : Interpretation χ (Evaluation .byDepth σ)}
    {host' : Interpretation χ (Engine σ)} (hosts : (forgetting σ).Hosts host host') (grammar : Grammar χ)
    (budget : Nat) (rule : Rule χ) (context : Context) (active : List Frame) (past : List (Moment σ))
    (state : State σ) :
    (rule.matcher host' grammar budget).run context state =
      ((rule.matcher host grammar budget).run context active past state).map
        fun (outcome, after, _) => (outcome, after) := by
  have agree := Simulation.matcher hosts grammar (.inl rfl : (forgetting σ).Fits budget budget) rule
  have ended := agree (fun _ _ => False) (fun _ _ => False.elim) context active past state
  generalize (rule.matcher host grammar budget).run context active past state = recorded at ended ⊢
  generalize (rule.matcher host' grammar budget).run context state = plain at ended ⊢
  cases ended with
  | none => rfl
  | some outcomes =>
    cases outcomes.eq
    rfl

end Evaluation

end PegMatcher

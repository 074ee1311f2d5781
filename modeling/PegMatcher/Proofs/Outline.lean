import PegMatcher.Proofs.Progress

/-! # Outlines of evaluations

An outline keeps of a record the offsets of the reported mismatches and nothing else. It does not know which
rules are active, so a frame makes no difference to it, and two ways of writing a matcher can be equal as
outlines. Marks obey simple laws there: a mark that is not used may be left out, two marks that are taken one
after the other are the same, and to return twice to one place is to return to it once.

In a plain pass no signal is ever raised, so frames are of no consequence. `run_eq_outline` says that the outline
of a rule is then what is left of a recorded evaluation, and `endures_matcher` that a larger budget keeps it.
-/

namespace PegMatcher

variable {σ : Type}

def mismatchOffsets (record : List (Moment σ)) : List Int :=
  (mismatches record).map Prod.fst

@[simp] theorem mismatchOffsets_append (early late : List (Moment σ)) :
    mismatchOffsets (early ++ late) = mismatchOffsets early ++ mismatchOffsets late := by
  simp only [mismatchOffsets, mismatches_append, List.map_append]

/-- A computation that returns the offsets of the mismatches that it reports. -/
structure Outline (σ α : Type) where
  run : Context → State σ → Option (Except Interrupt α × State σ × List Int)

namespace Outline

variable {α β γ : Type}

@[ext] theorem ext {first second : Outline σ α}
    (same : ∀ context state, first.run context state = second.run context state) : first = second := by
  cases first
  cases second
  simp only [mk.injEq]
  funext context state
  exact same context state

protected def pure (result : α) : Outline σ α :=
  ⟨fun _ state => some (.ok result, state, [])⟩

protected def bind (first : Outline σ α) (next : α → Outline σ β) : Outline σ β :=
  ⟨fun context state =>
    match first.run context state with
    | none => none
    | some (.error interrupt, after, early) => some (.error interrupt, after, early)
    | some (.ok result, middle, early) =>
      ((next result).run context middle).map fun (outcome, after, late) => (outcome, after, early ++ late)⟩

instance : Monad (Outline σ) where
  pure := Outline.pure
  bind := Outline.bind

theorem run_pure (result : α) (context : Context) (state : State σ) :
    (pure result : Outline σ α).run context state = some (.ok result, state, []) := rfl

theorem run_bind (first : Outline σ α) (next : α → Outline σ β) (context : Context) (state : State σ) :
    (first >>= next).run context state =
      match first.run context state with
      | none => none
      | some (.error interrupt, after, early) => some (.error interrupt, after, early)
      | some (.ok result, middle, early) =>
        ((next result).run context middle).map fun (outcome, after, late) =>
          (outcome, after, early ++ late) := rfl

instance : LawfulMonad (Outline σ) := LawfulMonad.mk' (Outline σ)
  (by
    intro α x
    ext1 context state
    change (x >>= fun result => pure result).run context state = x.run context state
    rw [run_bind]
    rcases x.run context state with _ | ⟨_ | _, _, _⟩ <;> simp [run_pure])
  (by
    intro α β result next
    ext1 context state
    simp [run_bind, run_pure])
  (by
    intro α β γ x f g
    ext1 context state
    simp only [run_bind]
    rcases x.run context state with _ | ⟨_ | a, middle, early⟩
    · rfl
    · rfl
    · dsimp only
      rcases (f a).run context middle with _ | ⟨_ | b, last, between⟩
      · rfl
      · rfl
      · simp [Function.comp_def])

/-- Performs an operation of the engine that reports no mismatch. -/
def perform (operation : Engine σ α) : Outline σ α :=
  ⟨fun context state => (operation.run context state).map fun (outcome, after) => (outcome, after, [])⟩

def mismatch : Outline σ Unit :=
  ⟨fun context state =>
    (Engine.mismatch.run context state).map fun (outcome, after) => (outcome, after, [after.offset])⟩

def nested (inner : Outline σ α) : Outline σ α := do
  perform Engine.enter
  ⟨fun context state => (inner.run context state).map fun (outcome, after, offsets) =>
    (outcome, { after with depth := after.depth - 1 }, offsets)⟩

instance : Machine (Outline σ) where
  Place := Mark
  atEnd := perform Engine.atEnd
  peek := perform Engine.peek
  advance := perform Engine.advance
  offset := perform Engine.offset
  moveTo target := perform (Engine.moveTo target)
  sliceFrom start := perform (Engine.sliceFrom start)
  mark := perform Engine.mark
  reset target := perform (Engine.reset target)
  mismatch := mismatch
  push value := perform (Engine.push value)
  popMany count := perform (Engine.popMany count)
  fail fault := perform (Engine.fail fault)
  framed _ inner := inner
  nested := nested
  exhausted := ⟨fun _ _ => none⟩

section Laws

/-- What is done with a result matters only where there is one. -/
theorem run_bind_congr {x : Outline σ α} {f g : α → Outline σ β} {context : Context} {state : State σ}
    (same : ∀ result middle early, x.run context state = some (.ok result, middle, early) →
      (f result).run context middle = (g result).run context middle) :
    (x >>= f).run context state = (x >>= g).run context state := by
  rw [run_bind, run_bind]
  rcases ran : x.run context state with _ | ⟨_ | result, middle, early⟩
  · rfl
  · rfl
  · dsimp only
    rw [same result middle early ran]

theorem run_bind_eq_ok {x : Outline σ α} {next : α → Outline σ β} {context : Context} {state after : State σ}
    {result : β} {offsets : List Int} (ran : (x >>= next).run context state = some (.ok result, after, offsets)) :
    ∃ value middle early late, x.run context state = some (.ok value, middle, early) ∧
      (next value).run context middle = some (.ok result, after, late) := by
  rw [run_bind] at ran
  rcases began : x.run context state with _ | ⟨_ | value, middle, early⟩ <;> rw [began] at ran
  · cases ran
  · cases ran
  · obtain ⟨⟨_, _, late⟩, rest, same⟩ := Option.map_eq_some_iff.mp ran
    cases same
    exact ⟨value, middle, early, late, rfl, rest⟩

theorem run_perform_eq_some {operation : Engine σ α} {context : Context} {state after : State σ}
    {outcome : Except Interrupt α} {offsets : List Int}
    (ran : (perform operation).run context state = some (outcome, after, offsets)) :
    operation.run context state = some (outcome, after) := by
  obtain ⟨⟨_, _⟩, performed, same⟩ := Option.map_eq_some_iff.mp ran
  cases same
  exact performed

/-- An observation is replaced by what is observed. -/
theorem run_observe_bind (view : Context → State σ → α) (next : α → Outline σ β) (context : Context)
    (state : State σ) :
    (perform (Engine.observe view) >>= next).run context state = (next (view context state)).run context state := by
  simp [run_bind, perform, Engine.observe]

theorem run_mark_bind (next : Machine.Place (Outline σ) → Outline σ β) (context : Context) (state : State σ) :
    (Machine.mark >>= next : Outline σ β).run context state = (next (Engine.markOf state)).run context state :=
  run_observe_bind _ next context state

theorem run_offset_bind (next : Int → Outline σ β) (context : Context) (state : State σ) :
    (Machine.offset >>= next : Outline σ β).run context state = (next state.offset).run context state :=
  run_observe_bind _ next context state

/-- A mark that is not used may be left out. -/
theorem mark_bind_const (x : Outline σ β) : (Machine.mark >>= fun _ => x) = x := by
  ext1 context state
  rw [run_mark_bind]

/-- Two marks that are taken one after the other are the same. -/
theorem mark_bind_mark (next : Machine.Place (Outline σ) → Machine.Place (Outline σ) → Outline σ β) :
    (Machine.mark >>= fun first => Machine.mark >>= fun second => next first second) =
      Machine.mark >>= fun here => next here here := by
  ext1 context state
  rw [run_mark_bind, run_mark_bind, run_mark_bind]

theorem run_reset_bind (target : Mark) (next : Unit → Outline σ β) (context : Context) (state : State σ) :
    (Machine.reset target >>= next : Outline σ β).run context state =
      if state.values.depth < target.depth then
        some (.error (.fault (.invalidMark target.depth state.values.depth)),
          { state with offset := target.offset }, [])
      else (next ()).run context
        { state with offset := target.offset, values := state.values.take target.depth } := by
  change (perform (Machine.reset target) >>= next).run context state = _
  simp only [run_bind, perform, Engine.run_reset]
  by_cases short : state.values.depth < target.depth
  · simp only [short, ↓reduceIte, Option.map_some]
  · simp [short]

/-- To return twice to one place is to return to it once. -/
theorem reset_bind_reset (target : Machine.Place (Outline σ)) (next : Outline σ β) :
    (Machine.reset target >>= fun _ => Machine.reset target >>= fun _ => next) =
      Machine.reset target >>= fun _ => next := by
  ext1 context state
  rw [run_reset_bind, run_reset_bind, run_reset_bind]
  by_cases short : state.values.depth < target.depth
  · simp only [short, ↓reduceIte]
  · have kept : (state.values.take target.depth).depth = target.depth := by
      rw [ValueStack.depth_take]
      omega
    have same : (state.values.take target.depth).take target.depth = state.values.take target.depth := by
      ext1
      simp only [ValueStack.toList_take, List.take_take, Nat.min_self]
    simp only [short, kept, same, Nat.lt_irrefl, ↓reduceIte]

end Laws

open Progress

/-- An operation that raises no signal in a plain pass and leaves the pass a plain one. -/
def Signalless (operation : Engine σ α) : Prop :=
  ∀ context ⦃state outcome after⦄, state.tracker.collecting = none →
    operation.run context state = some (outcome, after) →
    after.tracker.collecting = none ∧ ∀ path, outcome ≠ .error (.abort path)

private theorem signalless_of_observes {operation : Engine σ α} (observes : Observes operation)
    (faults : ∀ context state path after, operation.run context state ≠ some (.error (.abort path), after)) :
    Signalless operation := by
  intro context state outcome after plain ran
  constructor
  · rcases observes context plain ran with same | ⟨offset, same⟩
    · rw [same, plain]
    · rw [same]
      exact (le_observe plain offset).1
  · rintro path rfl
    exact faults context state path after ran

private theorem signalless_observe (view : Context → State σ → α) : Signalless (Engine.observe view) :=
  signalless_of_observes (observes_observe view) fun _ _ _ _ => nofun

private theorem signalless_moveTo (target : Int) : Signalless (Engine.moveTo target : Engine σ Unit) :=
  signalless_of_observes (observes_moveTo target) fun _ _ _ _ => nofun

private theorem signalless_push (value : Value) : Signalless (Engine.push value : Engine σ Unit) :=
  signalless_of_observes (observes_push value) fun _ _ _ _ => nofun

private theorem signalless_peek : Signalless (Engine.peek : Engine σ Char) := by
  apply signalless_of_observes observes_peek
  intro context state path after ran
  simp only [Engine.peek] at ran
  repeat' split at ran
  all_goals cases ran

private theorem signalless_advance : Signalless (Engine.advance : Engine σ Char) := by
  apply signalless_of_observes observes_advance
  intro context state path after ran
  simp only [Engine.advance] at ran
  repeat' split at ran
  all_goals cases ran

private theorem signalless_reset (target : Mark) : Signalless (Machine.reset target : Engine σ Unit) := by
  apply signalless_of_observes (observes_reset target)
  intro context state path after ran
  rw [Engine.run_reset] at ran
  split at ran <;> cases ran

private theorem signalless_popMany (count : Int) : Signalless (Engine.popMany count : Engine σ (List Value)) := by
  apply signalless_of_observes (observes_popMany count)
  intro context state path after ran
  simp only [Engine.popMany] at ran
  split at ran <;> cases ran

private theorem signalless_enter : Signalless (Engine.enter : Engine σ Unit) := by
  apply signalless_of_observes observes_enter
  intro context state path after ran
  simp only [Engine.enter] at ran
  split at ran <;> cases ran

/-- An evaluation of a plain pass beside its outline: both have no outcome, or they end in the same state with
related results or with the same fault, and have reported mismatches at the same offsets. -/
inductive Outlines (R : α → β → Prop) :
    Option (Except Interrupt α × State σ × List (Moment σ)) → Option (Except Interrupt β × State σ × List Int) → Prop
  | none : Outlines R none none
  | ok {a : α} {b : β} {after : State σ} {record : List (Moment σ)} {offsets : List Int} : R a b →
      after.tracker.collecting = none → offsets = mismatchOffsets record →
      Outlines R (some (.ok a, after, record)) (some (.ok b, after, offsets))
  | fault {fault : Fault} {after : State σ} {record : List (Moment σ)} {offsets : List Int} :
      after.tracker.collecting = none → offsets = mismatchOffsets record →
      Outlines R (some (.error (.fault fault), after, record)) (some (.error (.fault fault), after, offsets))

section Outlines

variable {context : Context} {active : List Frame} {past : List (Moment σ)} {state : State σ}

private theorem outlines_perform {R : α → α → Prop} (refl : ∀ result, R result result) {operation : Engine σ α}
    (signalless : Signalless operation) {step : Step}
    (silent : ∀ after : State σ, mismatchOffsets [⟨step, active, after⟩] = [])
    (plain : state.tracker.collecting = none) :
    Outlines R ((Evaluation.perform step operation : Evaluation .byDepth σ α).run context active past state)
      ((perform operation).run context state) := by
  simp only [Evaluation.perform, perform]
  rcases ran : operation.run context state with _ | ⟨(fault | path) | result, after⟩
  · exact .none
  · exact .fault (signalless context plain ran).1 (silent after).symm
  · exact absurd rfl ((signalless context plain ran).2 path)
  · exact .ok (refl result) (signalless context plain ran).1 (silent after).symm

private theorem outlines_bind {δ : Type} {R : α → β → Prop} {T : γ → δ → Prop} {x : Evaluation .byDepth σ α}
    {f : α → Evaluation .byDepth σ γ} {y : Outline σ β} {g : β → Outline σ δ}
    (head : Outlines R (x.run context active past state) (y.run context state))
    (tail : ∀ a b, R a b → ∀ later middle, middle.tracker.collecting = none →
      Outlines T ((f a).run context active later middle) ((g b).run context middle)) :
    Outlines T ((x >>= f).run context active past state) ((y >>= g).run context state) := by
  change Outlines T ((Evaluation.bind x f).run context active past state) _
  simp only [Evaluation.bind, run_bind]
  generalize x.run context active past state = recorded at head ⊢
  generalize y.run context state = outlined at head ⊢
  cases head with
  | none => exact .none
  | fault plain shown => exact .fault plain shown
  | @ok a b middle early _ related plain shown =>
    have rest := tail a b related (past ++ early) middle plain
    dsimp only
    generalize (f a).run context active (past ++ early) middle = recorded at rest ⊢
    generalize (g b).run context middle = outlined at rest ⊢
    cases rest with
    | none => exact .none
    | fault plain' shown' => exact .fault plain' (by rw [mismatchOffsets_append, shown, shown'])
    | ok related' plain' shown' => exact .ok related' plain' (by rw [mismatchOffsets_append, shown, shown'])

/-- Named rules are left without a trace in the offsets. -/
theorem outlines_nested {R : α → β → Prop} {x : Evaluation .byDepth σ α} {y : Outline σ β}
    (inner : ∀ later middle, middle.tracker.collecting = none →
      Outlines R (x.run context active later middle) (y.run context middle))
    (plain : state.tracker.collecting = none) :
    Outlines R ((Machine.nested x).run context active past state) ((Machine.nested y).run context state) := by
  apply outlines_bind (outlines_perform (R := Eq) (fun _ => rfl) signalless_enter (fun _ => rfl) plain)
  intro _ _ _ later middle plain'
  have ended := inner later middle plain'
  simp only [Evaluation.always]
  generalize x.run context active later middle = recorded at ended ⊢
  generalize y.run context middle = outlined at ended ⊢
  have closed (record : List (Moment σ)) (after : State σ) :
      mismatchOffsets (record ++ [⟨.other, active, after⟩]) = mismatchOffsets record := by
    rw [mismatchOffsets_append]
    exact List.append_nil _
  cases ended with
  | none => exact .none
  | ok related kept shown => exact .ok related kept (shown.trans (closed _ _).symm)
  | fault kept shown => exact .fault kept (shown.trans (closed _ _).symm)

end Outlines

/-- Outlining is a simulation of plain passes. -/
def outlining (σ : Type) : ModularSimulation (Evaluation .byDepth σ) (Outline σ) where
  Rel live R x y := (∀ (p : Checkpoint) (q : Mark), live p q → q = p.toMark) →
    ∀ context active past (state : State σ), state.tracker.collecting = none →
      Outlines R (x.run context active past state) (y.run context state)
  Offsets := Eq
  offsets_eq_iff := Simulation.eq_offsets
  pure related := fun _ _ _ _ _ plain => .ok related plain rfl
  bind head tail := fun places context active past state plain =>
    outlines_bind (head places context active past state plain) fun a b related later middle =>
      tail a b related places context active later middle
  mark_bind tail := by
    intro places context active past state plain
    have marked : Outlines (fun (p : Checkpoint) (q : Mark) => q = p.toMark)
        ((Evaluation.mark : Evaluation .byDepth σ Checkpoint).run context active past state)
        ((perform Engine.mark : Outline σ Mark).run context state) := .ok rfl plain rfl
    apply outlines_bind marked
    rintro p _ rfl later middle
    apply tail p p.toMark
    rintro p' q' (old | ⟨rfl, rfl⟩)
    · exact places p' q' old
    · rfl
  reset known := fun places context active past state => by
    cases places _ _ known
    exact outlines_perform (fun _ => trivial) (signalless_reset _) fun _ => rfl
  atEnd := fun _ _ _ _ _ => outlines_perform (fun _ => rfl) (signalless_observe _) fun _ => rfl
  peek := fun _ _ _ _ _ => outlines_perform (fun _ => rfl) signalless_peek fun _ => rfl
  advance := fun _ _ _ _ _ => outlines_perform (fun _ => trivial) signalless_advance fun _ => rfl
  offset := fun _ _ _ _ _ => outlines_perform (fun _ => rfl) (signalless_observe _) fun _ => rfl
  moveTo := by
    rintro _ a _ rfl _ _ _ _ _
    exact outlines_perform (fun _ => trivial) (signalless_moveTo a) fun _ => rfl
  sliceFrom := by
    rintro _ a _ rfl _ _ _ _ _
    exact outlines_perform (fun _ => rfl) (signalless_observe _) fun _ => rfl
  mismatch := by
    intro _ _ context active past state plain
    change Outlines _ ((Evaluation.perform .mismatch Engine.mismatch : Evaluation .byDepth σ Unit).run context active
      past state) ((mismatch : Outline σ Unit).run context state)
    simp only [Evaluation.perform, mismatch, run_mismatch_of_plain plain, Option.map_some]
    exact .ok trivial (le_observe plain _).1 rfl
  push value := fun _ _ _ _ _ => outlines_perform (fun _ => trivial) (signalless_push value) fun _ => rfl
  popMany count := fun _ _ _ _ _ => outlines_perform (fun _ => rfl) (signalless_popMany count) fun _ => rfl
  fail fault _ := fun _ _ _ _ _ plain => .fault plain rfl
  -- A frame shows in a signal only, and there is none.
  anyFrame frame inner := by
    intro places context active past state plain
    have ended := inner places context (active ++ [frame]) past state plain
    change Outlines _ ((Evaluation.framed frame _).run context active past state) (Outline.run _ context state)
    simp only [Evaluation.framed]
    generalize Evaluation.run _ context (active ++ [frame]) past state = recorded at ended ⊢
    generalize Outline.run _ context state = outlined at ended ⊢
    cases ended with
    | none => exact .none
    | ok related plain' shown => exact .ok related plain' shown
    | fault plain' shown => exact .fault plain' shown
  nested inner := fun places context active _ _ plain =>
    outlines_nested (fun later middle => inner places context active later middle) plain
  exhausted := fun _ _ _ _ _ _ => .none

/-- In a plain pass, the outline of a rule is what is left of a recorded evaluation. -/
theorem outlines_matcher (grammar : Grammar Empty) (budget : Nat) (rule : Rule Empty) (context : Context)
    (active : List Frame) (past : List (Moment σ)) {state : State σ} (plain : state.tracker.collecting = none) :
    Outlines Eq
      ((rule.matcher Interpretation.none grammar budget : Evaluation .byDepth σ Bool).run context active past state)
      ((rule.matcher Interpretation.none grammar budget : Outline σ Bool).run context state) :=
  (Simulation.matcher Simulation.hosts_none grammar (.inl rfl : (outlining σ).Fits budget budget) rule)
    (fun _ _ => False) (fun _ _ => False.elim) context active past state plain

theorem run_eq_outline (grammar : Grammar Empty) (budget : Nat) (rule : Rule Empty) (context : Context)
    (active : List Frame) (past : List (Moment σ)) {state : State σ} (plain : state.tracker.collecting = none) :
    (rule.matcher Interpretation.none grammar budget : Outline σ Bool).run context state =
      ((rule.matcher Interpretation.none grammar budget : Evaluation .byDepth σ Bool).run context active past state).map
        fun (outcome, after, record) => (outcome, after, mismatchOffsets record) := by
  have outlines := outlines_matcher grammar budget rule context active past plain
  generalize Evaluation.run _ context active past state = recorded at outlines ⊢
  generalize Outline.run _ context state = outlined at outlines ⊢
  cases outlines with
  | none => rfl
  | ok same _ shown =>
    subst same shown
    rfl
  | fault _ shown =>
    subst shown
    rfl

/-- No signal leaves a rule of combinators in a plain pass. -/
theorem ne_abort_of_plain {grammar : Grammar Empty} {budget : Nat} {rule : Rule Empty} {context : Context}
    {active : List Frame} {past record : List (Moment σ)} {state after : State σ}
    (plain : state.tracker.collecting = none) {outcome : Except Interrupt Bool}
    (ran : (rule.matcher Interpretation.none grammar budget : Evaluation .byDepth σ Bool).run context active past
      state = some (outcome, after, record)) (path : List Frame) : outcome ≠ .error (.abort path) := by
  rintro rfl
  have outlines := outlines_matcher grammar budget rule context active past plain
  rw [ran] at outlines
  cases outlines

/-- Whenever the first outline ends, the second one ends in the same way. -/
def Endures (R : α → β → Prop) (x : Outline σ α) (y : Outline σ β) : Prop :=
  ∀ context state ⦃outcome after offsets⦄, x.run context state = some (outcome, after, offsets) →
    ∃ outcome', y.run context state = some (outcome', after, offsets) ∧ Outcomes R outcome outcome'

private theorem endures_refl {R : α → α → Prop} (refl : ∀ result, R result result) (x : Outline σ α) :
    Endures R x x := by
  intro context state outcome after offsets ran
  refine ⟨outcome, ran, ?_⟩
  cases outcome with
  | ok result => exact .ok (refl result)
  | error interrupt => exact .error interrupt

private theorem endures_bind {δ : Type} {R : α → β → Prop} {T : γ → δ → Prop} {x : Outline σ α} {y : Outline σ β}
    {f : α → Outline σ γ} {g : β → Outline σ δ} (head : Endures R x y)
    (tail : ∀ a b, R a b → Endures T (f a) (g b)) : Endures T (x >>= f) (y >>= g) := by
  intro context state outcome after offsets ran
  rw [run_bind] at ran ⊢
  split at ran
  · cases ran
  · rename_i interrupt middle early began
    cases ran
    obtain ⟨outcome', began', outcomes⟩ := head context state began
    cases outcomes
    exact ⟨_, by rw [began'], .error interrupt⟩
  · rename_i result middle early began
    obtain ⟨outcome', began', outcomes⟩ := head context state began
    cases outcomes with
    | @ok _ b related =>
      obtain ⟨⟨ended, last, late⟩, rest, same⟩ := Option.map_eq_some_iff.mp ran
      cases same
      obtain ⟨ended', rest', outcomes'⟩ := tail result b related context middle rest
      refine ⟨ended', ?_, outcomes'⟩
      rw [began']
      simp only [rest', Option.map_some]

/-- To keep the outlines that are reached is a simulation. -/
def enduring (σ : Type) : ModularSimulation (Outline σ) (Outline σ) where
  Rel live R x y := (∀ p q : Mark, live p q → p = q) → Endures R x y
  Offsets := Eq
  offsets_eq_iff := Simulation.eq_offsets
  pure related := by
    intro _ context state outcome after offsets ran
    cases ran
    exact ⟨_, rfl, .ok related⟩
  bind head tail := fun places => endures_bind (head places) fun a b related => tail a b related places
  mark_bind tail := by
    intro places
    apply endures_bind (R := Eq) (endures_refl (fun _ => rfl) (perform Engine.mark : Outline σ Mark))
    rintro mark _ rfl
    apply tail mark mark
    rintro p q (old | ⟨rfl, rfl⟩)
    · exact places p q old
    · rfl
  reset known := fun places => by
    cases places _ _ known
    exact endures_refl (fun _ => trivial) _
  atEnd := fun _ => endures_refl (fun _ => rfl) _
  peek := fun _ => endures_refl (fun _ => rfl) _
  advance := fun _ => endures_refl (fun _ => trivial) _
  offset := fun _ => endures_refl (fun _ => rfl) _
  moveTo := by rintro _ a _ rfl _; exact endures_refl (fun _ => trivial) _
  sliceFrom := by rintro _ a _ rfl _; exact endures_refl (fun _ => rfl) _
  mismatch := fun _ => endures_refl (fun _ => trivial) _
  push value := fun _ => endures_refl (fun _ => trivial) _
  popMany count := fun _ => endures_refl (fun _ => rfl) _
  fail fault _ := by
    intro _ context state outcome after offsets ran
    cases ran
    exact ⟨_, rfl, .error _⟩
  anyFrame _ inner := inner
  nested inner := by
    intro places
    apply endures_bind (R := Eq) (endures_refl (fun _ => rfl) (perform Engine.enter))
    intro _ _ _ context state outcome after offsets ran
    obtain ⟨⟨ended, last, moments⟩, body, same⟩ := Option.map_eq_some_iff.mp ran
    cases same
    obtain ⟨outcome', body', outcomes⟩ := inner places context state body
    exact ⟨outcome', by simp only [body', Option.map_some], outcomes⟩
  exhausted := by
    intro _ _ _ _ _ context state outcome after offsets ran
    cases ran

theorem enduring_lax : (enduring σ).Lax := by
  intro _ _ _ _ _ _ context state outcome after offsets ran
  cases ran

theorem endures_matcher (grammar : Grammar Empty) (rule : Rule Empty) {budget budget' : Nat}
    (le : budget ≤ budget') :
    Endures Eq (rule.matcher Interpretation.none grammar budget : Outline σ Bool)
      (rule.matcher Interpretation.none grammar budget') :=
  (Simulation.matcher Simulation.hosts_none grammar (.inr ⟨enduring_lax, le⟩ : (enduring σ).Fits budget budget') rule)
    (fun _ _ => False) fun _ _ => False.elim

theorem Endures.run_eq {x y : Outline σ α} (endures : Endures Eq x y) {context : Context} {state : State σ}
    {ending : Except Interrupt α × State σ × List Int} (ran : x.run context state = some ending) :
    y.run context state = some ending := by
  obtain ⟨outcome', ran', outcomes⟩ := endures context state ran
  rw [ran', ← outcomes.eq]

end Outline

end PegMatcher

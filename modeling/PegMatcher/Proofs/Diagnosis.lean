import PegMatcher.Proofs.Evaluation
import PegMatcher.Session

/-! # Diagnostic passes replay the plain pass

A diagnostic pass differs from the plain pass in the tracker only, and nothing but a reported mismatch looks
at the tracker. So it takes the same steps, until it meets the first mismatch at the furthest offset that is
beyond its index. There it is aborted, and on the way out the signal collects the frames that were active.

`Abreast` relates a state of the plain pass to the same state in a diagnostic pass, and `replaying` is the
simulation that keeps it. The search for rule stacks is an induction on the room for further stacks.
-/

namespace PegMatcher

variable {σ : Type}

/-- The rule stacks of the mismatches that a record reports at an offset, in order. -/
def stacksAt (record : List (Moment σ)) (offset : Nat) : List RuleStack :=
  ((mismatches record).filter fun mismatch => mismatch.1 = (offset : Int)).map fun mismatch => ⟨mismatch.2⟩

@[simp] theorem stacksAt_append (early late : List (Moment σ)) (offset : Nat) :
    stacksAt (early ++ late) offset = stacksAt early offset ++ stacksAt late offset := by
  simp only [stacksAt, mismatches_append, List.filter_append, List.map_append]

theorem stacksAt_other (active : List Frame) (state : State σ) (offset : Nat) :
    stacksAt [⟨.other, active, state⟩] offset = [] := rfl

theorem stacksAt_mismatch (active : List Frame) (state : State σ) (offset : Nat) :
    stacksAt [⟨.mismatch, active, state⟩] offset = if state.offset = offset then [⟨active⟩] else [] := by
  by_cases here : state.offset = (offset : Int) <;>
    simp [stacksAt, mismatches, Moment.mismatch?, here]

theorem mem_stacksAt_iff {record : List (Moment σ)} {offset : Nat} {stack : RuleStack} :
    stack ∈ stacksAt record offset ↔ ((offset : Int), stack.frames) ∈ mismatches record := by
  simp only [stacksAt, List.mem_map, List.mem_filter, decide_eq_true_eq]
  constructor
  · rintro ⟨⟨_, frames⟩, ⟨member, rfl⟩, rfl⟩
    exact member
  · exact fun member => ⟨_, ⟨member, rfl⟩, rfl⟩

namespace Diagnosis

/-- A state of the plain pass and the same state in the diagnostic pass with an index, which has seen some
of the mismatches at the furthest offset. -/
structure Abreast (deepest index seen : Nat) (plain diagnosed : State σ) : Prop where
  plain_tracker : plain.tracker.collecting = none
  tracker : diagnosed.tracker = ⟨deepest, some index, seen⟩
  offset : diagnosed.offset = plain.offset
  values : diagnosed.values = plain.values
  depth : diagnosed.depth = plain.depth

/-- How a diagnostic pass ends when the plain pass reports some rule stacks at the furthest offset: the same
way, or aborted with the first stack beyond those that the pass lets go by. -/
inductive Replay {α β : Type} (R : α → β → Prop) (deepest index seen : Nat) (active : List Frame)
    (outcome : Except Interrupt α) (after : State σ) (found : List RuleStack) :
    Except Interrupt β × State σ → Prop
  | through {outcome' : Except Interrupt β} {after' : State σ} : seen + found.length ≤ index →
      Outcomes R outcome outcome' → Abreast deepest index (seen + found.length) after after' →
      Replay R deepest index seen active outcome after found (outcome', after')
  | aborted {path : List Frame} {after' : State σ} : found[index - seen]? = some ⟨active ++ path⟩ →
      after'.tracker.deepest = deepest →
      Replay R deepest index seen active outcome after found (.error (.abort path), after')

/-- An operation that does not depend on which pass it is performed in. -/
def Steady {α : Type} (operation : Engine σ α) : Prop :=
  ∀ {deepest index seen context} {state state' after : State σ} {outcome},
    Abreast deepest index seen state state' → operation.run context state = some (outcome, after) →
    ∃ after', operation.run context state' = some (outcome, after') ∧
      Abreast deepest index seen after after'

private theorem steady_observe {α : Type} {view : Context → State σ → α}
    (same : ∀ context (state state' : State σ), state'.offset = state.offset →
      state'.values = state.values → view context state' = view context state) :
    Steady (Engine.observe view) := by
  intro _ _ _ context state state' after outcome abreast run
  cases run
  refine ⟨state', ?_, abreast⟩
  simp only [Engine.observe, same context state state' abreast.offset abreast.values]

private theorem steady_moveTo (target : Int) : Steady (Engine.moveTo target : Engine σ Unit) := by
  intro _ _ _ context state state' after outcome abreast run
  cases run
  exact ⟨_, rfl, { abreast with offset := rfl }⟩

private theorem steady_push (value : Value) : Steady (Engine.push value : Engine σ Unit) := by
  intro _ _ _ context state state' after outcome abreast run
  cases run
  exact ⟨_, rfl, { abreast with values := congrArg (·.push value) abreast.values }⟩

private theorem steady_bind {α β : Type} {first : Engine σ α} {next : α → Engine σ β} (head : Steady first)
    (tail : ∀ result, Steady (next result)) : Steady (first >>= next) := by
  intro _ _ _ context state state' after outcome abreast run
  rw [Engine.run_bind] at run ⊢
  split at run
  · cases run
  · obtain ⟨middle', run', abreast'⟩ := head abreast ‹_›
    rw [run']
    exact tail _ abreast' run
  · obtain ⟨middle', run', abreast'⟩ := head abreast ‹_›
    cases run
    rw [run']
    exact ⟨_, rfl, abreast'⟩

private theorem steady_peek : Steady (Engine.peek : Engine σ Char) := by
  intro _ _ _ context state state' after outcome abreast run
  simp only [Engine.peek, abreast.offset] at run ⊢
  split at run
  · rename_i inside
    simp only [inside, ↓reduceIte]
    split at run <;> cases run <;> exact ⟨state', rfl, abreast⟩
  · rename_i outside
    cases run
    exact ⟨state', by simp only [outside, ↓reduceIte], abreast⟩

private theorem steady_advance : Steady (Engine.advance : Engine σ Char) := by
  intro deepest index seen context state state' after outcome abreast run
  simp only [Engine.advance, abreast.offset] at run ⊢
  -- The plain pass notes the progress, whereas the furthest offset of a diagnostic pass is frozen.
  have frozen : state'.tracker.observe (state.offset + 1) = ⟨deepest, some index, seen⟩ := by
    simp only [Tracker.observe, abreast.tracker]
  have plain : (state.tracker.observe (state.offset + 1)).collecting = none := by
    simp only [Tracker.observe, abreast.plain_tracker]
  split at run
  · rename_i inside
    simp only [inside, ↓reduceIte]
    split at run <;> cases run
    · exact ⟨_, rfl, ⟨plain, frozen, rfl, abreast.values, abreast.depth⟩⟩
    · exact ⟨state', rfl, abreast⟩
  · rename_i outside
    cases run
    exact ⟨state', by simp only [outside, ↓reduceIte], abreast⟩

private theorem steady_truncate (depth : Int) : Steady (Engine.truncate depth : Engine σ Unit) := by
  intro _ _ _ context state state' after outcome abreast run
  simp only [Engine.truncate, abreast.values] at run ⊢
  split at run <;> cases run
  · exact ⟨_, rfl, { abreast with values := rfl }⟩
  · exact ⟨state', rfl, abreast⟩

private theorem steady_reset (target : Mark) : Steady (Engine.reset target : Engine σ Unit) :=
  steady_bind (steady_moveTo _) fun _ => steady_truncate _

private theorem steady_popMany (count : Int) : Steady (Engine.popMany count : Engine σ (List Value)) := by
  intro _ _ _ context state state' after outcome abreast run
  simp only [Engine.popMany, abreast.values] at run ⊢
  split at run <;> cases run
  · exact ⟨_, rfl, { abreast with values := rfl }⟩
  · exact ⟨state', rfl, abreast⟩

private theorem steady_enter : Steady (Engine.enter : Engine σ Unit) := by
  intro _ _ _ context state state' after outcome abreast run
  simp only [Engine.enter, abreast.depth] at run ⊢
  split at run
  · rename_i full
    cases run
    exact ⟨state', by simp only [full, ↓reduceIte], abreast⟩
  · rename_i room
    cases run
    simp only [room, ↓reduceIte]
    exact ⟨_, rfl, { abreast with depth := rfl }⟩

/-- What `Replay` says of two runs: whenever the plain pass ends, so does the diagnostic one. -/
def Replays {α β : Type} (R : α → β → Prop) (deepest index seen : Nat) (active : List Frame)
    (plain : Option (Except Interrupt α × State σ × List (Moment σ)))
    (diagnosed : Option (Except Interrupt β × State σ)) : Prop :=
  ∀ ⦃outcome after record⦄, plain = some (outcome, after, record) →
    ∃ ending, diagnosed = some ending ∧
      Replay R deepest index seen active outcome after (stacksAt record deepest) ending

private theorem replays_perform {α : Type} {R : α → α → Prop} (refl : ∀ result, R result result)
    {operation : Engine σ α} (steady : Steady operation) {step : Step}
    (silent : ∀ active (state : State σ) offset, stacksAt [⟨step, active, state⟩] offset = [])
    {deepest index seen : Nat} {context : Context} {active : List Frame} {past : List (Moment σ)}
    {state state' : State σ} (abreast : Abreast deepest index seen state state') (allowed : seen ≤ index) :
    Replays R deepest index seen active
      ((Evaluation.perform step operation : Evaluation .byDepth σ α).run context active past state)
      (operation.run context state') := by
  intro outcome after record run
  obtain ⟨ran, rfl⟩ := Evaluation.run_perform_eq_some.mp run
  obtain ⟨after', ran', abreast'⟩ := steady abreast ran
  refine ⟨_, ran', ?_⟩
  rw [silent]
  refine .through allowed ?_ abreast'
  cases outcome with
  | ok result => exact .ok (refl result)
  | error interrupt => exact .error interrupt

private theorem replays_bind {α β γ δ : Type} {R : α → β → Prop} {T : γ → δ → Prop}
    {first : Evaluation .byDepth σ α} {next : α → Evaluation .byDepth σ γ} {first' : Engine σ β}
    {next' : β → Engine σ δ} {deepest index seen : Nat} {context : Context} {active : List Frame}
    {past : List (Moment σ)} {state state' : State σ}
    (head : Replays R deepest index seen active (first.run context active past state)
      (first'.run context state'))
    (tail : ∀ a b, R a b → ∀ later middle middle' seen, Abreast deepest index seen middle middle' →
      seen ≤ index → Replays T deepest index seen active ((next a).run context active later middle)
        ((next' b).run context middle')) :
    Replays T deepest index seen active ((first >>= next).run context active past state)
      ((first' >>= next').run context state') := by
  intro outcome after record run
  rw [Engine.run_bind]
  obtain ⟨interrupt, rfl, ran⟩ | ⟨result, middle, early, late, ran, rest, rfl⟩ :=
    Evaluation.run_bind_eq_some.mp run
  · obtain ⟨ending, ran', replay⟩ := head ran
    rw [ran']
    cases replay with
    | through le outcomes abreast =>
      cases outcomes
      exact ⟨_, rfl, .through le (.error interrupt) abreast⟩
    | aborted here frozen => exact ⟨_, rfl, .aborted here frozen⟩
  · obtain ⟨ending, ran', replay⟩ := head ran
    rw [ran', stacksAt_append]
    cases replay with
    | through le outcomes abreast =>
      cases outcomes with
      | ok related =>
        obtain ⟨ending', rest', replay'⟩ := tail _ _ related _ _ _ _ abreast le rest
        refine ⟨ending', rest', ?_⟩
        cases replay' with
        | through le' outcomes' abreast' =>
          rw [Nat.add_assoc, ← List.length_append] at le' abreast'
          exact .through le' outcomes' abreast'
        | aborted here frozen =>
          refine .aborted ?_ frozen
          rw [List.getElem?_append_right (by omega)]
          rwa [Nat.sub_add_eq] at here
    | aborted here frozen =>
      refine ⟨_, rfl, .aborted ?_ frozen⟩
      exact List.getElem?_append_left (List.getElem?_eq_some_iff.mp here).1 ▸ here

/-- A mismatch is counted, or it is the one that the diagnostic pass waits for. -/
theorem replays_mismatch {deepest index seen : Nat} {context : Context} {active : List Frame}
    {past : List (Moment σ)} {state state' : State σ} (abreast : Abreast deepest index seen state state')
    (allowed : seen ≤ index) :
    Replays (fun _ _ => True) deepest index seen active
      ((Evaluation.perform .mismatch Engine.mismatch : Evaluation .byDepth σ Unit).run context active past
        state) ((Engine.mismatch : Engine σ Unit).run context state') := by
  intro outcome after record run
  obtain ⟨ran, rfl⟩ := Evaluation.run_perform_eq_some.mp run
  have plain : (Engine.mismatch : Engine σ Unit).run context state =
      some (.ok (), { state with tracker := state.tracker.observe state.offset }) := by
    simp [Engine.mismatch, Engine.run_bind, Engine.offset, Engine.observe, Engine.registerAt,
      Tracker.register, abreast.plain_tracker]
  cases plain.symm.trans ran
  have plainTracker : (state.tracker.observe state.offset).collecting = none := by
    simp only [Tracker.observe, abreast.plain_tracker]
  rw [stacksAt_mismatch]
  simp only [Engine.mismatch, Engine.run_bind, Engine.offset, Engine.observe, Engine.registerAt,
    Tracker.register, abreast.tracker, abreast.offset]
  by_cases here : state.offset = (deepest : Int)
  · simp only [here, ↓reduceIte, Int.ofNat_lt, decide_eq_true_eq]
    by_cases beyond : index < seen + 1
    · simp only [beyond, ↓reduceIte]
      refine ⟨_, rfl, .aborted ?_ rfl⟩
      have last : index - seen = 0 := by omega
      simp only [last, List.getElem?_cons_zero, List.append_nil]
    · simp only [beyond, ↓reduceIte]
      refine ⟨_, rfl, .through ?_ (.ok trivial) ⟨?_, rfl, rfl, abreast.values, abreast.depth⟩⟩
      · simp only [List.length_singleton]; omega
      · exact here ▸ plainTracker
  · simp only [here, ↓reduceIte, Bool.false_eq_true]
    refine ⟨_, rfl, .through allowed (.ok trivial) ?_⟩
    exact ⟨plainTracker, rfl, rfl, abreast.values, abreast.depth⟩

/-- The pass with an index replays the plain pass. -/
def replaying (σ : Type) (deepest index : Nat) : ModularSimulation (Evaluation .byDepth σ) (Engine σ) where
  Rel live R x y := (∀ (p : Checkpoint) (q : Mark), live p q → q = p.toMark) →
    ∀ context active past state state' seen, Abreast deepest index seen state state' → seen ≤ index →
      Replays R deepest index seen active (x.run context active past state) (y.run context state')
  Offsets := Eq
  offsets_eq_iff := Simulation.eq_offsets
  pure related := by
    intro _ context active past state state' seen abreast allowed outcome after record run
    cases run
    exact ⟨_, rfl, .through allowed (.ok related) abreast⟩
  bind head tail := fun places context active past state state' seen abreast allowed =>
    replays_bind (head places context active past state state' seen abreast allowed)
      fun a b related later middle middle' seen' =>
        tail a b related places context active later middle middle' seen'
  mark_bind tail := by
    intro places context active past state state' seen abreast allowed
    have marked : Replays (fun (p : Checkpoint) (q : Mark) => q = p.toMark)
        deepest index seen active
        ((Evaluation.mark : Evaluation .byDepth σ Checkpoint).run context active past state)
        ((Engine.mark : Engine σ Mark).run context state') := by
      intro outcome after record run
      cases run
      refine ⟨_, rfl, .through allowed (.ok ?_) abreast⟩
      simp only [Checkpoint.toMark, abreast.offset, abreast.values]
    refine replays_bind marked ?_
    rintro p _ rfl later middle middle' seen'
    refine tail _ _ ?_ context active later middle middle' seen'
    rintro p' q' (old | ⟨rfl, rfl⟩)
    · exact places p' q' old
    · rfl
  reset known := fun places context active past state state' seen => by
    cases places _ _ known
    exact replays_perform (fun _ => trivial) (steady_reset _) fun _ _ _ => rfl
  atEnd := fun _ _ _ _ _ _ _ => replays_perform (fun _ => rfl)
    (steady_observe fun _ _ _ offset _ => by rw [offset]) fun _ _ _ => rfl
  peek := fun _ _ _ _ _ _ _ => replays_perform (fun _ => rfl) steady_peek fun _ _ _ => rfl
  advance := fun _ _ _ _ _ _ _ => replays_perform (fun _ => trivial) steady_advance fun _ _ _ => rfl
  offset := fun _ _ _ _ _ _ _ => replays_perform (fun _ => rfl)
    (steady_observe fun _ _ _ offset _ => offset) fun _ _ _ => rfl
  moveTo := by
    rintro _ a _ rfl _ context active past state state' seen
    exact replays_perform (fun _ => trivial) (steady_moveTo a) fun _ _ _ => rfl
  sliceFrom := by
    rintro _ a _ rfl _ context active past state state' seen
    exact replays_perform (fun _ => rfl) (steady_observe fun _ _ _ offset _ => by rw [offset]) fun _ _ _ => rfl
  mismatch := fun _ _ _ _ _ _ _ => replays_mismatch
  push value := fun _ _ _ _ _ _ _ => replays_perform (fun _ => trivial) (steady_push value) fun _ _ _ => rfl
  popMany count := fun _ _ _ _ _ _ _ => replays_perform (fun _ => rfl) (steady_popMany count) fun _ _ _ => rfl
  fail fault _ := by
    intro _ context active past state state' seen abreast allowed outcome after record run
    cases run
    exact ⟨_, rfl, .through allowed (.error _) abreast⟩
  anyFrame frame inner := by
    intro places context active past state state' seen abreast allowed outcome after record run
    obtain ⟨original, ran, rfl⟩ := Evaluation.run_framed_eq_some.mp run
    obtain ⟨ending, ran', replay⟩ :=
      inner places context (active ++ [frame]) past state state' seen abreast allowed ran
    rw [Engine.run_framed, ran']
    cases replay with
    | through le outcomes abreast' => exact ⟨_, rfl, .through le (outcomes.within frame) abreast'⟩
    | aborted here frozen =>
      -- The frame that was appended to the active rules is the one that the signal takes along.
      refine ⟨_, rfl, .aborted ?_ frozen⟩
      rwa [List.append_assoc, List.singleton_append] at here
  nested inner := by
    intro places context active past state state' seen abreast allowed
    have entered : Replays (fun (_ _ : Unit) => True) deepest index seen active
        ((Evaluation.perform .other Engine.enter : Evaluation .byDepth σ Unit).run context active past state)
        ((Engine.enter : Engine σ Unit).run context state') :=
      replays_perform (fun _ => trivial) steady_enter (fun _ _ _ => rfl) abreast allowed
    refine replays_bind entered ?_
    intro _ _ _ later middle middle' seen' abreast' allowed' outcome after record run
    obtain ⟨ended, moments, ran, rfl, rfl⟩ := Evaluation.run_always_eq_some.mp run
    obtain ⟨ending, ran', replay⟩ :=
      inner places context active later middle middle' seen' abreast' allowed' ran
    simp only [Engine.always, ran', stacksAt_append, stacksAt_other, List.append_nil]
    cases replay with
    | through le outcomes left =>
      refine ⟨_, rfl, .through le outcomes { left with depth := ?_ }⟩
      exact congrArg (· - 1) left.depth
    | aborted here frozen => exact ⟨_, rfl, .aborted here frozen⟩
  exhausted := by
    intro _ _ _ _ _ context active past state state' seen abreast allowed outcome after record run
    cases run

variable {context : Context} {rule : Matcher σ} {deepest : Nat} {found : List RuleStack}

/-- How the pass with each index ends: aborted with the stack at that index, or by failing if there is no
such stack. -/
def Finds (context : Context) (rule : Matcher σ) (deepest : Nat) (found : List RuleStack) : Prop :=
  ∀ (index : Nat) (state : State σ), state.tracker.deepest = deepest → ∃ after : State σ,
    after.tracker.deepest = deepest ∧
      (Session.pass rule (some index)).run context state =
        match found[index]? with
        | some stack => some (.error (.abort stack.frames), after)
        | none => some (.ok false, after)

theorem run_pass (rule : Matcher σ) (index : Option Int) (context : Context) (state : State σ) :
    (Session.pass rule index).run context state =
      rule.run context
        { state with offset := 0, values := .empty, depth := 0, tracker := state.tracker.beginPass index } :=
  rfl

/-- The diagnostic passes over a rule find the rule stacks that the plain pass over it records. -/
theorem finds_stacksAt {grammar : Grammar Empty} {rule : Rule Empty} {budget : Nat} {memory : σ}
    {after : State σ} {record : List (Moment σ)}
    (failed : (rule.matcher Interpretation.none grammar budget : Evaluation .byDepth σ Bool).run context [] []
      { memory := memory } = some (.ok false, after, record)) (deepest : Nat) :
    Finds context (rule.matcher Interpretation.none grammar budget : Engine σ Bool) deepest
      (stacksAt record deepest) := by
  intro index state frozen
  have agree := Simulation.matcher Simulation.hosts_none grammar
    (.inl rfl : (replaying σ deepest index).Fits budget budget) rule
  have start : Abreast deepest index 0 { memory := memory }
      { state with offset := 0, values := .empty, depth := 0,
                   tracker := state.tracker.beginPass (some index) } :=
    ⟨rfl, by simp only [Tracker.beginPass, frozen], rfl, rfl, rfl⟩
  obtain ⟨ending, ran, replay⟩ :=
    agree (fun _ _ => False) (fun _ _ => False.elim) context [] [] _ _ 0 start (Nat.zero_le index) failed
  rw [run_pass, ran]
  cases replay with
  | @through _ after' le outcomes abreast =>
    cases outcomes with
    | ok same =>
      subst same
      have none : (stacksAt record deepest)[index]? = none := List.getElem?_eq_none (by omega)
      exact ⟨after', by rw [abreast.tracker], by rw [none]⟩
  | @aborted path after' here frozen' =>
    rw [Nat.sub_zero, List.nil_append] at here
    exact ⟨after', frozen', by rw [here]⟩

/-- With some of the stacks found, the search goes on for the rest of them while there is room. -/
theorem explain_of_finds (finds : Finds context rule deepest found) (room : Nat) {count : Nat}
    (some_found : count ≤ found.length) {state : State σ} (frozen : state.tracker.deepest = deepest) :
    ∃ explanation, Session.explain context rule deepest room (found.take count) state = some explanation ∧
      (found.length ≤ count + room →
        explanation.ending = .ok found ∧ explanation.passes = found.length - count + 1) ∧
      (count + room < found.length →
        explanation.ending = .error (.stackLimit context.maxErrorStacks deepest) ∧
          explanation.passes = room + 1) := by
  induction room generalizing count state with
  | zero =>
    obtain ⟨after, _, ran⟩ := finds count state frozen
    rw [Session.explain, List.length_take_of_le some_found, ran]
    by_cases last : count < found.length
    · rw [List.getElem?_eq_getElem last]
      exact ⟨_, rfl, fun _ => by omega, fun _ => ⟨rfl, rfl⟩⟩
    · rw [List.getElem?_eq_none (by omega)]
      refine ⟨_, rfl, fun _ => ⟨?_, by dsimp only; omega⟩, fun _ => by omega⟩
      rw [List.take_of_length_le (by omega)]
  | succ room ih =>
    obtain ⟨after, frozen', ran⟩ := finds count state frozen
    rw [Session.explain, List.length_take_of_le some_found, ran]
    by_cases last : count < found.length
    · rw [List.getElem?_eq_getElem last]
      have next : found.take count ++ [⟨found[count].frames⟩] = found.take (count + 1) :=
        (List.take_succ_eq_append_getElem last).symm
      obtain ⟨explanation, rest, enough, short⟩ := ih (Nat.succ_le_of_lt last) frozen'
      simp only [next, rest]
      refine ⟨_, rfl, fun fits => ?_, fun exceeds => ?_⟩
      · obtain ⟨ending, passes⟩ := enough (by omega)
        exact ⟨ending, by dsimp only; omega⟩
      · obtain ⟨ending, passes⟩ := short (by omega)
        exact ⟨ending, by dsimp only; omega⟩
    · rw [List.getElem?_eq_none (by omega)]
      refine ⟨_, rfl, fun _ => ⟨?_, by dsimp only; omega⟩, fun _ => by omega⟩
      rw [List.take_of_length_le (by omega)]

end Diagnosis

open Diagnosis

/-- A run that fails reports the mismatches at the furthest offset as one recorded evaluation meets them, with
the rules that were active at each, or the stack limit if there are too many. The rule is matched once in the
plain pass, once for each stack that is reported, and once more. -/
theorem run_reports_mismatches (session : Session σ) (idle : session.running = false)
    (grammar : Grammar Empty) (rule : Rule Empty) (budget : Nat) (shape : Shape) {after : State σ}
    (failed : (Session.pass (rule.matcher Interpretation.none grammar budget : Engine σ Bool) none).run
      session.context session.state.startRun = some (.ok false, after)) :
    ∃ record report next,
      (rule.matcher Interpretation.none grammar budget : Evaluation .byDepth σ Bool).run session.context [] []
        { memory := session.state.memory } = some (.ok false, after, record) ∧
      session.run (rule.matcher Interpretation.none grammar budget : Engine σ Bool) shape = some (report, next) ∧
      let deepest := after.tracker.deepest
      let found := stacksAt record deepest
      let room := session.context.maxErrorStacks.toNat
      (found.length ≤ room →
        report.ending = .ok (.failure ⟨Position.resolve session.context.source deepest, found⟩) ∧
          report.passes = found.length + 2) ∧
      (room < found.length →
        report.ending = .error (.stackLimit session.context.maxErrorStacks deepest) ∧
          report.passes = room + 2) := by
  have plain := failed
  have started : ({ session.state.startRun with
      offset := 0, values := .empty, depth := 0, tracker := session.state.startRun.tracker.beginPass none } :
      State σ) = { memory := session.state.memory } := rfl
  rw [run_pass, started, Evaluation.run_eq_forget Simulation.hosts_none grammar budget rule _ [] []] at plain
  obtain ⟨⟨outcome, ended, record⟩, recorded, same⟩ := Option.map_eq_some_iff.mp plain
  cases same
  obtain ⟨explanation, explained, enough, short⟩ := explain_of_finds
    (finds_stacksAt recorded after.tracker.deepest) session.context.maxErrorStacks.toNat
    (Nat.zero_le _) (rfl : after.tracker.deepest = after.tracker.deepest)
  rw [List.take_zero] at explained
  simp only [Session.run, idle, Session.attempt, failed, explained]
  refine ⟨record, _, _, recorded, rfl, fun fits => ?_, fun exceeds => ?_⟩
  · obtain ⟨ending, passes⟩ := enough (by omega)
    exact ⟨by simp only [ending]; rfl, by dsimp only; omega⟩
  · obtain ⟨ending, passes⟩ := short (by omega)
    exact ⟨by simp only [ending]; rfl, by dsimp only; omega⟩

/-- An `a`, then a `b` or a `c`, then the end of the text. -/
def choiceRule : Rule Empty :=
  .named (some "root") (.sequence [.char 'a', .firstOf [.char 'b', .char 'c'], .endOfInput])

def choiceSession : Session Unit :=
  { context := ⟨Source.ofString "ax", 200, 2⟩, state := { running := false, memory := () } }

theorem run_reports_choice :
    ∃ report next, choiceSession.runRule Interpretation.none {} choiceRule .all = some (report, next) ∧
      report.ending = .ok (.failure ⟨Position.resolve choiceSession.context.source 1,
        ['b', 'c'].map fun c => ⟨[{ kind := .named, name := some "root" }, { kind := .sequence },
          { kind := .firstOf }, Matcher.charFrame c]⟩⟩) ∧
      report.passes = 4 := by
  obtain ⟨record, report, next, recorded, ran, enough, _⟩ := run_reports_mismatches choiceSession rfl {}
    choiceRule (Grammar.budget {} choiceSession.context choiceRule) .all rfl
  cases recorded
  obtain ⟨ending, passes⟩ := enough (by decide)
  exact ⟨report, next, ran, ending, passes⟩

end PegMatcher

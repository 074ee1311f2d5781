import PegMatcher.Proofs.Evaluation

/-! # The furthest offset of a plain pass

In a plain pass the furthest offset never falls. So the one at the end bounds those of all moments in
between, which is what a statement about whole evaluations can be taken apart with.

`rising` is a simulation whose second side plays no part.
-/

namespace PegMatcher

variable {σ : Type}

namespace Progress

/-- From a state of a plain pass to a later one, the furthest offset has not fallen, and it has never been
further in between. -/
structure Rises (state after : State σ) (record : List (Moment σ)) : Prop where
  plain : after.tracker.collecting = none
  le : state.tracker.deepest ≤ after.tracker.deepest
  moments : ∀ moment ∈ record, moment.state.tracker.deepest ≤ after.tracker.deepest

private theorem rises_step {state after : State σ} (plain : after.tracker.collecting = none)
    (le : state.tracker.deepest ≤ after.tracker.deepest) (step : Step) (active : List Frame) :
    Rises state after [⟨step, active, after⟩] := by
  refine ⟨plain, le, ?_⟩
  intro moment member
  cases List.mem_singleton.mp member
  exact Nat.le_refl _

theorem Rises.append {state middle after : State σ} {early late : List (Moment σ)}
    (first : Rises state middle early) (second : Rises middle after late) :
    Rises state after (early ++ late) := by
  refine ⟨second.plain, Nat.le_trans first.le second.le, ?_⟩
  intro moment member
  rcases List.mem_append.mp member with before | behind
  · exact Nat.le_trans (first.moments moment before) second.le
  · exact second.moments moment behind

/-- An operation that leaves the tracker alone, or has it observe an offset if the pass is plain. -/
def Observes {α : Type} (operation : Engine σ α) : Prop :=
  ∀ context ⦃state outcome after⦄, state.tracker.collecting = none →
    operation.run context state = some (outcome, after) →
    after.tracker = state.tracker ∨ ∃ offset, after.tracker = state.tracker.observe offset

section Rising

variable {α : Type}

theorem observes_observe (view : Context → State σ → α) : Observes (Engine.observe view) := by
  intro context state outcome after _ ran
  cases ran
  exact .inl rfl

theorem observes_moveTo (target : Int) : Observes (Engine.moveTo target : Engine σ Unit) := by
  intro context state outcome after _ ran
  cases ran
  exact .inl rfl

theorem observes_push (value : Value) : Observes (Engine.push value : Engine σ Unit) := by
  intro context state outcome after _ ran
  cases ran
  exact .inl rfl

theorem observes_peek : Observes (Engine.peek : Engine σ Char) := by
  intro context state outcome after _ ran
  rw [Engine.state_of_peek ran]
  exact .inl rfl

theorem observes_advance : Observes (Engine.advance : Engine σ Char) := by
  intro context state outcome after _ ran
  simp only [Engine.advance] at ran
  split at ran
  · split at ran <;> cases ran
    · exact .inr ⟨_, rfl⟩
    · exact .inl rfl
  · cases ran
    exact .inl rfl

/-- In a plain pass a mismatch is noted like progress. -/
theorem run_mismatch_of_plain {context : Context} {state : State σ} (plain : state.tracker.collecting = none) :
    (Engine.mismatch : Engine σ Unit).run context state =
      some (.ok (), { state with tracker := state.tracker.observe state.offset }) := by
  simp [Engine.mismatch, Engine.run_bind, Engine.offset, Engine.observe, Engine.registerAt, Tracker.register,
    plain]

private theorem observes_mismatch : Observes (Engine.mismatch : Engine σ Unit) := by
  intro context state outcome after plain ran
  rw [run_mismatch_of_plain plain] at ran
  cases ran
  exact .inr ⟨_, rfl⟩

theorem observes_reset (target : Mark) : Observes (Machine.reset target : Engine σ Unit) := by
  intro context state outcome after _ ran
  rw [Engine.run_reset] at ran
  split at ran <;> cases ran <;> exact .inl rfl

theorem observes_popMany (count : Int) : Observes (Engine.popMany count : Engine σ (List Value)) := by
  intro context state outcome after _ ran
  simp only [Engine.popMany] at ran
  split at ran <;> cases ran <;> exact .inl rfl

theorem observes_enter : Observes (Engine.enter : Engine σ Unit) := by
  intro context state outcome after _ ran
  simp only [Engine.enter] at ran
  split at ran <;> cases ran <;> exact .inl rfl

/-- Observing an offset does not lower the furthest one. -/
theorem le_observe {tracker : Tracker} (plain : tracker.collecting = none) (offset : Int) :
    (tracker.observe offset).collecting = none ∧ tracker.deepest ≤ (tracker.observe offset).deepest := by
  simp only [Tracker.observe, plain, true_and]
  exact Nat.le_max_left _ _

/-- An evaluation that only rises, and whose results are related to something. -/
def Rising {β : Type} (R : α → β → Prop) (x : Evaluation .byDepth σ α) : Prop :=
  ∀ context active past ⦃state outcome after record⦄, state.tracker.collecting = none →
    x.run context active past state = some (outcome, after, record) →
    Rises state after record ∧ ∀ a, outcome = .ok a → ∃ b, R a b

private theorem rising_perform {β : Type} {R : α → β → Prop} {operation : Engine σ α} (observes : Observes operation)
    (related : ∀ a, ∃ b, R a b) (step : Step) : Rising R (Evaluation.perform step operation) := by
  intro context active past state outcome after record plain ran
  obtain ⟨performed, rfl⟩ := Evaluation.run_perform_eq_some.mp ran
  refine ⟨?_, fun a _ => related a⟩
  have rises : after.tracker.collecting = none ∧ state.tracker.deepest ≤ after.tracker.deepest := by
    obtain same | ⟨offset, same⟩ := observes context plain performed
    · rw [same]
      exact ⟨plain, Nat.le_refl _⟩
    · rw [same]
      exact le_observe plain offset
  exact rises_step rises.1 rises.2 step active

private theorem rising_bind {β γ δ : Type} {R : α → β → Prop} {T : γ → δ → Prop} {x : Evaluation .byDepth σ α}
    {f : α → Evaluation .byDepth σ γ} (head : Rising R x) (tail : ∀ a b, R a b → Rising T (f a)) :
    Rising T (x >>= f) := by
  intro context active past state outcome after record plain ran
  obtain ⟨interrupt, rfl, began⟩ | ⟨result, middle, early, late, began, rest, rfl⟩ :=
    Evaluation.run_bind_eq_some.mp ran
  · exact ⟨(head context active past plain began).1, nofun⟩
  · obtain ⟨rises, related⟩ := head context active past plain began
    obtain ⟨b, here⟩ := related result rfl
    obtain ⟨rises', related'⟩ := tail result b here context active (past ++ early) rises.plain rest
    exact ⟨rises.append rises', related'⟩

end Rising

/-- Rising is a simulation, of which the second side plays no part. -/
def rising (σ : Type) : ModularSimulation (Evaluation .byDepth σ) (Evaluation .byDepth σ) where
  Rel _ R x _ := Rising R x
  Offsets := Eq
  offsets_eq_iff := Simulation.eq_offsets
  pure {_ _ _ _ _ b} related := by
    intro context active past state outcome after record plain ran
    cases ran
    refine ⟨⟨plain, Nat.le_refl _, fun _ member => nomatch member⟩, ?_⟩
    rintro _ ⟨⟩
    exact ⟨b, related⟩
  bind := rising_bind
  mark_bind tail := by
    refine rising_bind (R := Eq) ?_ fun p q _ => tail p q
    intro context active past state outcome after record plain ran
    cases ran
    exact ⟨rises_step plain (Nat.le_refl _) _ _, fun a _ => ⟨a, rfl⟩⟩
  reset _ := rising_perform (observes_reset _) (fun a => ⟨a, trivial⟩) _
  atEnd := rising_perform (observes_observe _) (fun a => ⟨a, rfl⟩) _
  peek := rising_perform observes_peek (fun a => ⟨a, rfl⟩) _
  advance := rising_perform observes_advance (fun a => ⟨a, trivial⟩) _
  offset := rising_perform (observes_observe _) (fun a => ⟨a, rfl⟩) _
  moveTo _ := rising_perform (observes_moveTo _) (fun a => ⟨a, trivial⟩) _
  sliceFrom _ := rising_perform (observes_observe _) (fun a => ⟨a, rfl⟩) _
  mismatch := rising_perform observes_mismatch (fun a => ⟨a, trivial⟩) _
  push value := rising_perform (observes_push value) (fun a => ⟨a, trivial⟩) _
  popMany count := rising_perform (observes_popMany count) (fun a => ⟨a, rfl⟩) _
  fail fault _ := by
    intro context active past state outcome after record plain ran
    obtain ⟨performed, rfl⟩ := Evaluation.run_perform_eq_some.mp ran
    cases performed
    exact ⟨rises_step plain (Nat.le_refl _) _ _, nofun⟩
  anyFrame frame inner := by
    intro context active past state outcome after record plain ran
    obtain ⟨original, ran', rfl⟩ := Evaluation.run_framed_eq_some.mp ran
    obtain ⟨rises, related⟩ := inner context (active ++ [frame]) past plain ran'
    refine ⟨rises, ?_⟩
    cases original with
    | ok result => exact related
    | error interrupt => exact nofun
  nested inner := by
    refine rising_bind (R := Eq) (rising_perform observes_enter (fun a => ⟨a, rfl⟩) .other) ?_
    intro _ _ _ context active past state outcome after record plain ran
    obtain ⟨ended, moments, ran', rfl, rfl⟩ := Evaluation.run_always_eq_some.mp ran
    obtain ⟨rises, related⟩ := inner context active past plain ran'
    refine ⟨rises.append (rises_step ?_ ?_ .other active), related⟩
    · exact rises.plain
    · exact Nat.le_refl _
  exhausted := by
    intro _ _ _ _ context active past state outcome after record _ ran
    cases ran

/-- In a plain pass over a rule, the furthest offset at the end bounds those of all moments. -/
theorem rises_matcher {grammar : Grammar Empty} {budget : Nat} {rule : Rule Empty} {context : Context}
    {active : List Frame} {past record : List (Moment σ)} {state after : State σ}
    {outcome : Except Interrupt Bool} (plain : state.tracker.collecting = none)
    (ran : (rule.matcher Interpretation.none grammar budget : Evaluation .byDepth σ Bool).run context active
      past state = some (outcome, after, record)) : Rises state after record := by
  have agree := Simulation.matcher Simulation.hosts_none grammar (.inl rfl : (rising σ).Fits budget budget) rule
  exact (agree (fun _ _ => False) context active past plain ran).1

end Progress

end PegMatcher

import PegMatcher.Engine.Cursor
import PegMatcher.Proofs.Simulation

/-! # Evaluation budgets

A larger budget never changes an outcome that was reached: the matchers of a rule under two budgets take the
same steps, until the smaller budget is used up.
-/

namespace PegMatcher

variable {σ : Type}

/-- Whenever the first computation ends, the second one ends in the same way. -/
def Persists {α β : Type} (R : α → β → Prop) (x : Engine σ α) (y : Engine σ β) : Prop :=
  ∀ context state ⦃outcome after⦄, x.run context state = some (outcome, after) →
    ∃ outcome', y.run context state = some (outcome', after) ∧ Outcomes R outcome outcome'

theorem persists_refl {α : Type} {R : α → α → Prop} (refl : ∀ result, R result result) (x : Engine σ α) :
    Persists R x x := by
  intro context state outcome after ran
  refine ⟨outcome, ran, ?_⟩
  cases outcome with
  | ok result => exact .ok (refl result)
  | error interrupt => exact .error interrupt

private theorem persists_bind {α β γ δ : Type} {R : α → β → Prop} {T : γ → δ → Prop} {first : Engine σ α}
    {first' : Engine σ β} {next : α → Engine σ γ} {next' : β → Engine σ δ} (head : Persists R first first')
    (tail : ∀ a b, R a b → Persists T (next a) (next' b)) : Persists T (first >>= next) (first' >>= next') := by
  intro context state outcome after ran
  rw [Engine.run_bind] at ran ⊢
  split at ran
  · cases ran
  · rename_i result middle first_ran
    obtain ⟨outcome', ran', outcomes⟩ := head context state first_ran
    cases outcomes with
    | ok related =>
      rw [ran']
      exact tail _ _ related context middle ran
  · rename_i interrupt middle first_ran
    obtain ⟨outcome', ran', outcomes⟩ := head context state first_ran
    cases outcomes
    cases ran
    exact ⟨_, by rw [ran'], .error interrupt⟩

/-- Keeping the outcomes that are reached is a simulation of the engine by itself. -/
def persisting (σ : Type) : ModularSimulation (Engine σ) (Engine σ) where
  Rel live R x y := (∀ p q : Mark, live p q → p = q) → Persists R x y
  Offsets := Eq
  offsets_eq_iff := Simulation.eq_offsets
  pure related := by
    intro _ context state outcome after ran
    cases ran
    exact ⟨_, rfl, .ok related⟩
  bind head tail := fun places => persists_bind (head places) fun a b related => tail a b related places
  mark_bind tail := by
    intro places
    refine persists_bind (R := Eq) (persists_refl (fun _ => rfl) (Engine.mark : Engine σ Mark)) ?_
    rintro mark _ rfl
    refine tail mark mark ?_
    rintro p q (old | ⟨rfl, rfl⟩)
    · exact places p q old
    · rfl
  reset known := fun places => by
    cases places _ _ known
    exact persists_refl (fun _ => trivial) _
  atEnd := fun _ => persists_refl (fun _ => rfl) _
  peek := fun _ => persists_refl (fun _ => rfl) _
  advance := fun _ => persists_refl (fun _ => trivial) _
  offset := fun _ => persists_refl (fun _ => rfl) _
  moveTo := by rintro _ a _ rfl _; exact persists_refl (fun _ => trivial) _
  sliceFrom := by rintro _ a _ rfl _; exact persists_refl (fun _ => rfl) _
  mismatch := fun _ => persists_refl (fun _ => trivial) _
  push value := fun _ => persists_refl (fun _ => trivial) _
  popMany count := fun _ => persists_refl (fun _ => rfl) _
  fail fault _ := by
    intro _ context state outcome after ran
    cases ran
    exact ⟨_, rfl, .error _⟩
  anyFrame frame inner := by
    intro places context state outcome after ran
    rw [Engine.run_framed] at ran ⊢
    obtain ⟨⟨original, last⟩, ended, same⟩ := Option.map_eq_some_iff.mp ran
    cases same
    obtain ⟨outcome', ran', outcomes⟩ := inner places context state ended
    rw [ran']
    exact ⟨_, rfl, outcomes.within frame⟩
  nested inner := by
    intro places context state outcome after ran
    rw [Engine.run_nested] at ran ⊢
    split at ran
    · cases ran
      exact ⟨_, if_pos ‹_›, .error _⟩
    · rw [if_neg ‹_›]
      obtain ⟨⟨ended, last⟩, body, same⟩ := Option.map_eq_some_iff.mp ran
      cases same
      obtain ⟨outcome', body', outcomes⟩ := inner places context _ body
      exact ⟨outcome', by rw [body']; rfl, outcomes⟩
  exhausted := by
    intro _ _ _ _ _ context state outcome after ran
    cases ran

private theorem persisting_lax : (persisting σ).Lax := by
  intro _ _ _ _ _ _ context state outcome after ran
  cases ran

/-- A larger budget gives every answer that a smaller one gives. -/
theorem run_budget_le {grammar : Grammar Empty} {rule : Rule Empty} {budget budget' : Nat}
    (le : budget ≤ budget') {context : Context} {state : State σ} {ending : Except Interrupt Bool × State σ}
    (ran : (rule.matcher Interpretation.none grammar budget : Engine σ Bool).run context state = some ending) :
    (rule.matcher Interpretation.none grammar budget' : Engine σ Bool).run context state = some ending := by
  have agree := Simulation.matcher Simulation.hosts_none grammar
    (.inr ⟨persisting_lax, le⟩ : (persisting σ).Fits budget budget') rule
  obtain ⟨outcome', ran', outcomes⟩ := agree (fun _ _ => False) (fun _ _ => False.elim) context state ran
  rw [ran', ← outcomes.eq]

/-- A loop with a larger bound and a larger budget for its body ends as it did. -/
theorem iterate_budget_le {grammar : Grammar Empty} {body : Rule Empty} {budget budget' bound bound' : Nat}
    (le : budget ≤ budget') (bound_le : bound ≤ bound') {count : Nat} {context : Context} {state : State σ}
    {ending : Except Interrupt Nat × State σ}
    (ran : (Matcher.iterate (body.matcher Interpretation.none grammar budget : Engine σ Bool) bound
      count).run context state = some ending) :
    (Matcher.iterate (body.matcher Interpretation.none grammar budget' : Engine σ Bool) bound' count).run
      context state = some ending := by
  have agree := Simulation.matcher Simulation.hosts_none grammar
    (.inr ⟨persisting_lax, le⟩ : (persisting σ).Fits budget budget') body
  have loops : (persisting σ).Rel (fun _ _ => False) Eq _ _ :=
    TextSimulation.iterate agree (.inr ⟨persisting_lax, bound_le⟩ : (persisting σ).Fits bound bound') count
  obtain ⟨outcome', ran', outcomes⟩ := loops (fun _ _ => False.elim) context state ran
  rw [ran', ← outcomes.eq]

end PegMatcher

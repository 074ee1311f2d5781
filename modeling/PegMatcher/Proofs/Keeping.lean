import PegMatcher.Engine.Cursor
import PegMatcher.Proofs.Evaluation
import PegMatcher.Proofs.Simulation

/-! # What rules keep

However a rule of combinators ends, it leaves the cursor in the text and not in front of where it began, the
nesting of named rules as it was and the memory of host rules alone, and it reports no progress beyond the end
of the text. None of this depends on what the rule answers, nor on the pass that it is matched in.

`keeping` is a simulation whose second side plays no part: all that is said of it is that some result of it is
related to the result of the first side. `dwelling` says of recorded evaluations that the cursor is in the text
at every moment.
-/

namespace PegMatcher

variable {σ : Type}

/-- An offset in the text that does not lie in front of another one. -/
def Within (context : Context) (floor offset : Int) : Prop :=
  floor ≤ offset ∧ offset ≤ context.source.length

/-- What stays as it was, or within its bounds, from one state to a later one. -/
structure Keeps (context : Context) (floor : Int) (state after : State σ) : Prop where
  within : Within context floor after.offset
  depth : after.depth = state.depth
  memory : after.memory = state.memory
  deepest : after.tracker.deepest ≤ max state.tracker.deepest context.source.length

namespace Keeping

variable {context : Context} {floor : Int}

theorem keeps_refl {state : State σ} (within : Within context floor state.offset) :
    Keeps context floor state state :=
  ⟨within, rfl, rfl, Nat.le_max_left _ _⟩

theorem keeps_trans {state middle after : State σ} (first : Keeps context floor state middle)
    (second : Keeps context floor middle after) : Keeps context floor state after := by
  refine ⟨second.within, second.depth.trans first.depth, second.memory.trans first.memory, ?_⟩
  have early := first.deepest
  have late := second.deepest
  omega

def Keeper {α : Type} (context : Context) (floor : Int) (operation : Engine σ α) : Prop :=
  ∀ ⦃state outcome after⦄, Within context floor state.offset →
    operation.run context state = some (outcome, after) → Keeps context floor state after

theorem keeper_observe {α : Type} (view : Context → State σ → α) :
    Keeper context floor (Engine.observe view) := by
  intro state outcome after within ran
  cases ran
  exact keeps_refl within

theorem keeper_peek : Keeper context floor (Engine.peek : Engine σ Char) := by
  intro state outcome after within ran
  rw [Engine.state_of_peek ran]
  exact keeps_refl within

private theorem deepest_observe_le (tracker : Tracker) {offset : Int} {length : Nat} (inside : offset ≤ length) :
    (tracker.observe offset).deepest ≤ max tracker.deepest length := by
  rw [Tracker.observe]
  split
  · dsimp only
    omega
  · exact Nat.le_max_left _ _

private theorem deepest_register_le (tracker : Tracker) {offset : Int} {length : Nat} (inside : offset ≤ length) :
    (tracker.register offset).2.deepest ≤ max tracker.deepest length := by
  rw [Tracker.register]
  split
  · exact deepest_observe_le tracker inside
  · split <;> exact Nat.le_max_left _ _

theorem keeper_advance : Keeper context floor (Engine.advance : Engine σ Char) := by
  intro state outcome after within ran
  simp only [Engine.advance] at ran
  split at ran
  · rename_i inside
    have next : state.offset + 1 ≤ context.source.length := by omega
    split at ran <;> cases ran
    · exact ⟨⟨by have := within.1; dsimp only; omega, next⟩, rfl, rfl, deepest_observe_le _ next⟩
    · exact keeps_refl within
  · cases ran
    exact keeps_refl within

theorem keeper_moveTo {target : Int} (inside : Within context floor target) :
    Keeper context floor (Engine.moveTo target : Engine σ Unit) := by
  intro state outcome after _ ran
  cases ran
  exact ⟨inside, rfl, rfl, Nat.le_max_left _ _⟩

theorem keeper_reset {target : Mark} (inside : Within context floor target.offset) :
    Keeper context floor (Machine.reset target : Engine σ Unit) := by
  intro state outcome after _ ran
  rw [Engine.run_reset] at ran
  split at ran <;> cases ran <;> exact ⟨inside, rfl, rfl, Nat.le_max_left _ _⟩

theorem keeper_mismatch : Keeper context floor (Engine.mismatch : Engine σ Unit) := by
  intro state outcome after within ran
  change (Engine.registerAt state.offset).run context state = _ at ran
  simp only [Engine.registerAt] at ran
  split at ran <;> cases ran <;> exact ⟨within, rfl, rfl, deepest_register_le _ within.2⟩

theorem keeper_push (value : Value) : Keeper context floor (Engine.push value : Engine σ Unit) := by
  intro state outcome after within ran
  cases ran
  exact ⟨within, rfl, rfl, Nat.le_max_left _ _⟩

theorem keeper_popMany (count : Int) :
    Keeper context floor (Engine.popMany count : Engine σ (List Value)) := by
  intro state outcome after within ran
  simp only [Engine.popMany] at ran
  split at ran <;> cases ran
  · exact ⟨within, rfl, rfl, Nat.le_max_left _ _⟩
  · exact keeps_refl within

/-- A computation that keeps what has to be kept, and whose results are related to something. -/
def Holds {α β : Type} (context : Context) (floor : Int) (R : α → β → Prop) (x : Engine σ α) : Prop :=
  ∀ ⦃state outcome after⦄, Within context floor state.offset → x.run context state = some (outcome, after) →
    Keeps context floor state after ∧ ∀ a, outcome = .ok a → ∃ b, R a b

private theorem holds_of_keeper {α β : Type} {R : α → β → Prop} {operation : Engine σ α}
    (keeper : Keeper context floor operation) (related : ∀ a, ∃ b, R a b) :
    Holds context floor R operation :=
  fun _ _ _ within ran => ⟨keeper within ran, fun a _ => related a⟩

private theorem holds_bind {α β γ δ : Type} {R : α → β → Prop} {T : γ → δ → Prop} {x : Engine σ α}
    {f : α → Engine σ γ} (head : Holds context floor R x)
    (tail : ∀ a b, R a b → Holds context floor T (f a)) : Holds context floor T (x >>= f) := by
  intro state outcome after within ran
  rw [Engine.run_bind] at ran
  split at ran
  · cases ran
  · rename_i result middle began
    obtain ⟨kept, related⟩ := head within began
    obtain ⟨b, here⟩ := related result rfl
    obtain ⟨kept', related'⟩ := tail result b here kept.within ran
    exact ⟨keeps_trans kept kept', related'⟩
  · rename_i interrupt middle began
    cases ran
    refine ⟨(head within began).1, ?_⟩
    rintro _ ⟨⟩

/-- Keeping is a simulation, of which the marks that may be returned to are part: they lie within the bounds
that the cursor is kept in. -/
def keeping (σ : Type) (context : Context) (floor : Int) : ModularSimulation (Engine σ) (Engine σ) where
  Rel live R x _ := (∀ p q : Mark, live p q → Within context floor p.offset) → Holds context floor R x
  Offsets a b := a = b ∧ Within context floor a
  offsets_eq_iff first second := Simulation.eq_offsets first.1 second.1
  pure {_ _ _ _ _ b} related := by
    intro _ state outcome after within ran
    cases ran
    refine ⟨keeps_refl within, ?_⟩
    rintro _ ⟨⟩
    exact ⟨b, related⟩
  bind head tail := fun places => holds_bind (head places) fun a b related => tail a b related places
  mark_bind tail := by
    intro places state outcome after within ran
    rw [Engine.run_mark_bind] at ran
    refine tail (Engine.markOf state) (Engine.markOf state) ?_ within ran
    rintro p q (old | ⟨rfl, rfl⟩)
    · exact places p q old
    · exact within
  reset known := fun places => holds_of_keeper (keeper_reset (places _ _ known)) fun _ => ⟨(), trivial⟩
  atEnd := fun _ => holds_of_keeper (keeper_observe _) fun a => ⟨a, rfl⟩
  peek := fun _ => holds_of_keeper keeper_peek fun a => ⟨a, rfl⟩
  advance := fun _ => holds_of_keeper keeper_advance fun a => ⟨a, trivial⟩
  offset := by
    intro live places state outcome after within ran
    cases ran
    refine ⟨keeps_refl within, ?_⟩
    rintro _ ⟨⟩
    exact ⟨state.offset, rfl, within⟩
  moveTo target := fun _ => holds_of_keeper (keeper_moveTo target.2) fun a => ⟨a, trivial⟩
  sliceFrom _ := fun _ => holds_of_keeper (keeper_observe _) fun a => ⟨a, rfl⟩
  mismatch := fun _ => holds_of_keeper keeper_mismatch fun a => ⟨a, trivial⟩
  push value := fun _ => holds_of_keeper (keeper_push value) fun a => ⟨a, trivial⟩
  popMany count := fun _ => holds_of_keeper (keeper_popMany count) fun a => ⟨a, rfl⟩
  fail fault _ := by
    intro _ state outcome after within ran
    cases ran
    exact ⟨keeps_refl within, nofun⟩
  anyFrame frame inner := by
    intro places state outcome after within ran
    rw [Engine.run_framed] at ran
    obtain ⟨⟨_ | _, last⟩, ended, same⟩ := Option.map_eq_some_iff.mp ran <;> cases same
    · exact ⟨(inner places within ended).1, nofun⟩
    · exact inner places within ended
  nested inner := by
    intro places state outcome after within ran
    rw [Engine.run_nested] at ran
    split at ran
    · cases ran
      exact ⟨keeps_refl within, nofun⟩
    · obtain ⟨⟨ended, last⟩, body, same⟩ := Option.map_eq_some_iff.mp ran
      cases same
      have deeper : Within context floor ({ state with depth := state.depth + 1 } : State σ).offset := within
      obtain ⟨kept, related⟩ := inner places deeper body
      have depth : last.depth - 1 = state.depth := by
        rw [kept.depth]
        exact Int.add_sub_cancel _ _
      exact ⟨⟨kept.within, depth, kept.memory, kept.deepest⟩, related⟩
  exhausted := by
    intro _ _ _ _ _ state outcome after _ ran
    cases ran

/-- The cursor ends up within its bounds, and has been there at every moment. -/
structure Dwells (context : Context) (floor : Int) (after : State σ) (record : List (Moment σ)) : Prop where
  within : Within context floor after.offset
  moments : ∀ moment ∈ record, Within context floor moment.state.offset

private theorem dwells_step {after : State σ} (within : Within context floor after.offset) (step : Step)
    (active : List Frame) : Dwells context floor after [⟨step, active, after⟩] := by
  refine ⟨within, ?_⟩
  intro moment member
  cases List.mem_singleton.mp member
  exact within

theorem Dwells.append {middle after : State σ} {early late : List (Moment σ)}
    (first : Dwells context floor middle early) (second : Dwells context floor after late) :
    Dwells context floor after (early ++ late) :=
  ⟨second.within, List.forall_mem_append.mpr ⟨first.moments, second.moments⟩⟩

/-- A recorded evaluation that stays within the bounds, and whose results are related to something. -/
def Staying {α β : Type} (context : Context) (floor : Int) (R : α → β → Prop) (x : Evaluation .byDepth σ α) :
    Prop :=
  ∀ active past ⦃state outcome after record⦄, Within context floor state.offset →
    x.run context active past state = some (outcome, after, record) →
    Dwells context floor after record ∧ ∀ a, outcome = .ok a → ∃ b, R a b

private theorem staying_perform {α β : Type} {R : α → β → Prop} {operation : Engine σ α}
    (keeper : Keeper context floor operation) (related : ∀ a, ∃ b, R a b) (step : Step) :
    Staying context floor R (Evaluation.perform step operation) := by
  intro active past state outcome after record within ran
  obtain ⟨performed, rfl⟩ := Evaluation.run_perform_eq_some.mp ran
  exact ⟨dwells_step (keeper within performed).within step active, fun a _ => related a⟩

private theorem staying_bind {α β γ δ : Type} {R : α → β → Prop} {T : γ → δ → Prop} {x : Evaluation .byDepth σ α}
    {f : α → Evaluation .byDepth σ γ} (head : Staying context floor R x)
    (tail : ∀ a b, R a b → Staying context floor T (f a)) : Staying context floor T (x >>= f) := by
  intro active past state outcome after record within ran
  obtain ⟨interrupt, rfl, began⟩ | ⟨result, middle, early, late, began, rest, rfl⟩ :=
    Evaluation.run_bind_eq_some.mp ran
  · exact ⟨(head active past within began).1, nofun⟩
  · obtain ⟨dwells, related⟩ := head active past within began
    obtain ⟨b, here⟩ := related result rfl
    obtain ⟨dwells', related'⟩ := tail result b here active (past ++ early) dwells.within rest
    exact ⟨dwells.append dwells', related'⟩

/-- Entering a named rule leaves the cursor where it is, and so does being refused. -/
theorem staying_enter {β : Type} {R : Unit → β → Prop} (related : ∀ a, ∃ b, R a b) :
    Staying context floor R (Evaluation.perform .other (Engine.enter : Engine σ Unit)) := by
  intro active past state outcome after record within ran
  obtain ⟨performed, rfl⟩ := Evaluation.run_perform_eq_some.mp ran
  have unmoved : after.offset = state.offset := by
    simp only [Engine.enter] at performed
    split at performed <;> cases performed <;> rfl
  exact ⟨dwells_step (unmoved ▸ within) .other active, fun a _ => related a⟩

/-- Staying within the bounds is a simulation, of which the places that may be returned to are part. -/
def dwelling (σ : Type) (context : Context) (floor : Int) :
    ModularSimulation (Evaluation .byDepth σ) (Evaluation .byDepth σ) where
  Rel live R x _ :=
    (∀ p q : Checkpoint, live p q → Within context floor p.offset) → Staying context floor R x
  Offsets a b := a = b ∧ Within context floor a
  offsets_eq_iff first second := Simulation.eq_offsets first.1 second.1
  pure {_ _ _ _ _ b} related := by
    intro _ active past state outcome after record within ran
    cases ran
    refine ⟨⟨within, fun _ member => nomatch member⟩, ?_⟩
    rintro _ ⟨⟩
    exact ⟨b, related⟩
  bind head tail := fun places => staying_bind (head places) fun a b related => tail a b related places
  mark_bind tail := by
    intro places
    refine staying_bind (R := fun (p q : Checkpoint) => p = q ∧ Within context floor p.offset) ?_ ?_
    · intro active past state outcome after record within ran
      cases ran
      exact ⟨dwells_step within _ _, fun a same => by cases same; exact ⟨_, rfl, within⟩⟩
    · rintro p _ ⟨rfl, here⟩
      refine tail p p ?_
      rintro p' q' (old | ⟨rfl, rfl⟩)
      · exact places p' q' old
      · exact here
  reset {_ p _} known := by
    intro places
    have inside : Within context floor p.toMark.offset := places _ _ known
    exact staying_perform (keeper_reset inside) (fun _ => ⟨(), trivial⟩) _
  atEnd := fun _ => staying_perform (keeper_observe _) (fun a => ⟨a, rfl⟩) _
  peek := fun _ => staying_perform keeper_peek (fun a => ⟨a, rfl⟩) _
  advance := fun _ => staying_perform keeper_advance (fun a => ⟨a, trivial⟩) _
  offset := by
    intro live places active past state outcome after record within ran
    obtain ⟨performed, rfl⟩ := Evaluation.run_perform_eq_some.mp ran
    cases performed
    refine ⟨dwells_step within _ _, ?_⟩
    rintro _ ⟨⟩
    exact ⟨state.offset, rfl, within⟩
  moveTo target := fun _ => staying_perform (keeper_moveTo target.2) (fun a => ⟨a, trivial⟩) _
  sliceFrom _ := fun _ => staying_perform (keeper_observe _) (fun a => ⟨a, rfl⟩) _
  mismatch := fun _ => staying_perform keeper_mismatch (fun a => ⟨a, trivial⟩) _
  push value := fun _ => staying_perform (keeper_push value) (fun a => ⟨a, trivial⟩) _
  popMany count := fun _ => staying_perform (keeper_popMany count) (fun a => ⟨a, rfl⟩) _
  fail fault _ := by
    intro _ active past state outcome after record within ran
    obtain ⟨performed, rfl⟩ := Evaluation.run_perform_eq_some.mp ran
    cases performed
    exact ⟨dwells_step within _ _, nofun⟩
  anyFrame frame inner := by
    intro places active past state outcome after record within ran
    obtain ⟨original, ran', rfl⟩ := Evaluation.run_framed_eq_some.mp ran
    obtain ⟨dwells, related⟩ := inner places (active ++ [frame]) past within ran'
    refine ⟨dwells, ?_⟩
    cases original with
    | ok result => exact related
    | error interrupt => exact nofun
  nested inner := by
    intro places
    refine staying_bind (R := Eq) (staying_enter fun a => ⟨a, rfl⟩) ?_
    intro _ _ _ active past state outcome after record within ran
    obtain ⟨ended, moments, ran', rfl, rfl⟩ := Evaluation.run_always_eq_some.mp ran
    obtain ⟨dwells, related⟩ := inner places active past within ran'
    refine ⟨dwells.append (dwells_step ?_ .other active), related⟩
    exact dwells.within
  exhausted := by
    intro _ _ _ _ _ active past state outcome after record _ ran
    cases ran

end Keeping

/-- Every rule of combinators, matched from a place in the text, keeps what has to be kept; in particular the
cursor never ends up in front of that place. -/
theorem keeps_matcher {grammar : Grammar Empty} {budget : Nat} {rule : Rule Empty} {context : Context}
    {state after : State σ} {outcome : Except Interrupt Bool} (inside : state.offset ≤ context.source.length)
    (ran : (rule.matcher Interpretation.none grammar budget : Engine σ Bool).run context state =
      some (outcome, after)) : Keeps context state.offset state after := by
  have agree := Simulation.matcher Simulation.hosts_none grammar
    (.inl rfl : (Keeping.keeping σ context state.offset).Fits budget budget) rule
  exact (agree (fun _ _ => False) (fun _ _ => False.elim) ⟨Int.le_refl _, inside⟩ ran).1

/-- From a place in the text on, the cursor is in the text and not in front of that place at every moment. -/
theorem dwells_matcher {grammar : Grammar Empty} {budget : Nat} {rule : Rule Empty} {context : Context}
    {active : List Frame} {past record : List (Moment σ)} {state after : State σ}
    {outcome : Except Interrupt Bool} (inside : state.offset ≤ context.source.length)
    (ran : (rule.matcher Interpretation.none grammar budget : Evaluation .byDepth σ Bool).run context active
      past state = some (outcome, after, record)) : Keeping.Dwells context state.offset after record := by
  have agree := Simulation.matcher Simulation.hosts_none grammar
    (.inl rfl : (Keeping.dwelling σ context state.offset).Fits budget budget) rule
  exact (agree (fun _ _ => False) (fun _ _ => False.elim) active past ⟨Int.le_refl _, inside⟩ ran).1

end PegMatcher

import PegMatcher.Engine.Cursor
import PegMatcher.Proofs.Simulation
import PegMatcher.Session

/-! # Runs in tandem

Two engines, whose memories may be of different types, are alike while a run is under way if they differ in their
memories only. Matchers that do the same in states alike are `Uniform`: they do not look at the memory, and they
leave the run under way. `heedless` is the simulation which says that this passes from the parts of a rule to the
rule.

A pass sets the cursor, the values and the nesting anew, and a run begins by forgetting the furthest offset. So
what a run reports depends on nothing that earlier runs have left, but for the memory of host rules: if one rule
shadows another one, then so do the passes over it, the search for rule stacks, and the run.
-/

namespace PegMatcher

variable {σ τ : Type}

/-- A state without the memory of host rules. -/
def State.bare (state : State σ) : State Unit :=
  { state with memory := () }

/-- States that differ in the memory of host rules only, while a run is under way. -/
structure State.Alike (state : State σ) (state' : State τ) : Prop where
  offset : state'.offset = state.offset
  values : state'.values = state.values
  tracker : state'.tracker = state.tracker
  depth : state'.depth = state.depth
  running : state.running = true
  running' : state'.running = true

namespace State.Alike

theorem symm {state : State σ} {state' : State τ} (alike : State.Alike state state') : State.Alike state' state :=
  ⟨alike.offset.symm, alike.values.symm, alike.tracker.symm, alike.depth.symm, alike.running', alike.running⟩

theorem bare_eq {state : State σ} {state' : State τ} (alike : State.Alike state state') :
    state'.bare = state.bare := by
  simp only [bare, alike.offset, alike.values, alike.tracker, alike.depth, alike.running, alike.running']

end State.Alike

namespace Tandem

/-- Two computations that both have no outcome, or the same one in states alike. -/
inductive SameEnd {α β : Type} (R : α → β → Prop) :
    Option (Except Interrupt α × State σ) → Option (Except Interrupt β × State τ) → Prop
  | none : SameEnd R none none
  | some {outcome : Except Interrupt α} {outcome' : Except Interrupt β} {after : State σ} {after' : State τ} :
      Outcomes R outcome outcome' → State.Alike after after' →
      SameEnd R (some (outcome, after)) (some (outcome', after'))

/-- Computations that do the same in states alike, and leave the run under way. -/
def Uniform {α : Type} (x : Engine σ α) (y : Engine τ α) : Prop :=
  ∀ context ⦃state state'⦄, State.Alike state state' → SameEnd Eq (x.run context state) (y.run context state')

section Operations

variable {context : Context}

private theorem uniform_observe {α : Type} {view : Context → State σ → α} {view' : Context → State τ → α}
    (same : ∀ context state state', State.Alike state state' → view context state = view' context state') :
    Uniform (Engine.observe view) (Engine.observe view') :=
  fun context _ _ alike => .some (.ok (same context _ _ alike)) alike

private theorem uniform_peek : Uniform (Engine.peek : Engine σ Char) (Engine.peek : Engine τ Char) := by
  intro context state state' alike
  simp only [Engine.peek, alike.offset]
  split
  · split
    · exact .some (.ok rfl) alike
    · exact .some (.error _) alike
  · exact .some (.ok rfl) alike

private theorem uniform_advance :
    Uniform (Engine.advance : Engine σ Char) (Engine.advance : Engine τ Char) := by
  intro context state state' alike
  simp only [Engine.advance, alike.offset]
  split
  · split
    · refine .some (.ok rfl) { alike with offset := rfl, tracker := ?_ }
      rw [alike.tracker]
    · exact .some (.error _) alike
  · exact .some (.ok rfl) alike

private theorem uniform_moveTo (target : Int) :
    Uniform (Engine.moveTo target : Engine σ Unit) (Engine.moveTo target : Engine τ Unit) :=
  fun _ _ _ alike => .some (.ok rfl) { alike with offset := rfl }

private theorem uniform_reset (target : Mark) :
    Uniform (Machine.reset target : Engine σ Unit) (Machine.reset target : Engine τ Unit) := by
  intro context state state' alike
  rw [Engine.run_reset, Engine.run_reset, alike.values]
  split
  · exact .some (.error _) { alike with offset := rfl, values := rfl }
  · exact .some (.ok rfl) { alike with offset := rfl, values := rfl }

private theorem uniform_mismatch :
    Uniform (Engine.mismatch : Engine σ Unit) (Engine.mismatch : Engine τ Unit) := by
  intro context state state' alike
  change SameEnd Eq ((Engine.registerAt state.offset).run context state)
    ((Engine.registerAt state'.offset).run context state')
  simp only [Engine.registerAt, alike.offset, alike.tracker]
  split
  · exact .some (.error _) { alike with offset := rfl, tracker := rfl }
  · exact .some (.ok rfl) { alike with offset := rfl, tracker := rfl }

private theorem uniform_push (value : Value) :
    Uniform (Engine.push value : Engine σ Unit) (Engine.push value : Engine τ Unit) :=
  fun _ _ _ alike => .some (.ok rfl) { alike with values := congrArg (·.push value) alike.values }

private theorem uniform_popMany (count : Int) :
    Uniform (Engine.popMany count : Engine σ (List Value)) (Engine.popMany count : Engine τ (List Value)) := by
  intro context state state' alike
  simp only [Engine.popMany, alike.values]
  split
  · exact .some (.ok rfl) { alike with values := rfl }
  · exact .some (.error _) alike

end Operations

section Composition

variable {α β γ δ : Type} {R : α → β → Prop} {T : γ → δ → Prop} {context : Context}

private theorem SameEnd.of_eq {ended : Option (Except Interrupt α × State σ)}
    {ended' : Option (Except Interrupt α × State τ)} {S : α → α → Prop} (refl : ∀ result, S result result)
    (same : SameEnd Eq ended ended') : SameEnd S ended ended' := by
  cases same with
  | none => exact .none
  | some outcomes alike =>
    cases outcomes with
    | ok same =>
      subst same
      exact .some (.ok (refl _)) alike
    | error interrupt => exact .some (.error interrupt) alike

private theorem sameEnd_bind {x : Engine σ α} {y : Engine τ β} {f : α → Engine σ γ} {g : β → Engine τ δ}
    {state : State σ} {state' : State τ} (head : SameEnd R (x.run context state) (y.run context state'))
    (tail : ∀ a b, R a b → ∀ middle middle', State.Alike middle middle' →
      SameEnd T ((f a).run context middle) ((g b).run context middle')) :
    SameEnd T ((x >>= f).run context state) ((y >>= g).run context state') := by
  rw [Engine.run_bind, Engine.run_bind]
  generalize x.run context state = ended at head ⊢
  generalize y.run context state' = ended' at head ⊢
  cases head with
  | none => exact .none
  | some outcomes alike =>
    cases outcomes with
    | ok related => exact tail _ _ related _ _ alike
    | error interrupt => exact .some (.error interrupt) alike

end Composition

/-- Not to look at the memory is a simulation between engines with any two memories. -/
def heedless (σ τ : Type) : ModularSimulation (Engine σ) (Engine τ) where
  Rel live R x y := (∀ p q : Mark, live p q → q = p) → ∀ context state state', State.Alike state state' →
    SameEnd R (x.run context state) (y.run context state')
  Offsets := Eq
  offsets_eq_iff := Simulation.eq_offsets
  pure related := fun _ _ _ _ alike => .some (.ok related) alike
  bind head tail := fun places context state state' alike =>
    sameEnd_bind (head places context state state' alike) fun a b related => tail a b related places context
  mark_bind tail := by
    intro places context state state' alike
    have same : Engine.markOf state' = Engine.markOf state := by
      simp only [Engine.markOf, alike.offset, alike.values]
    rw [Engine.run_mark_bind, Engine.run_mark_bind]
    refine tail (Engine.markOf state) (Engine.markOf state') ?_ context state state' alike
    rintro p q (old | ⟨rfl, rfl⟩)
    · exact places p q old
    · exact same
  reset known := fun places context state state' alike => by
    cases places _ _ known
    exact .of_eq (fun _ => trivial) (uniform_reset _ context alike)
  atEnd := fun _ => uniform_observe fun _ _ _ alike => by rw [alike.offset]
  peek := fun _ => uniform_peek
  advance := fun _ context state state' alike => .of_eq (fun _ => trivial) (uniform_advance context alike)
  offset := fun _ => uniform_observe fun _ _ _ alike => alike.offset.symm
  moveTo := by
    rintro _ a _ rfl _ context state state' alike
    exact .of_eq (fun _ => trivial) (uniform_moveTo a context alike)
  sliceFrom := by
    rintro _ a _ rfl _
    exact uniform_observe fun _ _ _ alike => by rw [alike.offset]
  mismatch := fun _ context state state' alike => .of_eq (fun _ => trivial) (uniform_mismatch context alike)
  push value := fun _ context state state' alike => .of_eq (fun _ => trivial) (uniform_push value context alike)
  popMany count := fun _ => uniform_popMany count
  fail fault _ := fun _ _ _ _ alike => .some (.error _) alike
  anyFrame frame inner := by
    intro places context state state' alike
    have ended := inner places context state state' alike
    rw [Engine.run_framed, Engine.run_framed]
    generalize Engine.run _ context state = first at ended ⊢
    generalize Engine.run _ context state' = second at ended ⊢
    cases ended with
    | none => exact .none
    | some outcomes alike' => exact .some (outcomes.within frame) alike'
  nested inner := by
    intro places context state state' alike
    have deeper : State.Alike { state with depth := state.depth + 1 } { state' with depth := state'.depth + 1 } :=
      { alike with depth := congrArg (· + 1) alike.depth }
    have ended := inner places context _ _ deeper
    rw [Engine.run_nested, Engine.run_nested]
    rw [alike.depth] at ended ⊢
    split
    · exact .some (.error _) alike
    · generalize Engine.run _ context { state with depth := state.depth + 1 } = first at ended ⊢
      generalize Engine.run _ context { state' with depth := state.depth + 1 } = second at ended ⊢
      cases ended with
      | none => exact .none
      | some outcomes alike' =>
        exact .some outcomes { alike' with depth := congrArg (· - 1) alike'.depth }
  exhausted := fun _ _ _ _ _ => .none

theorem agree_iff_uniform {x : Matcher σ} {y : Matcher τ} : (heedless σ τ).Agree x y ↔ Uniform x y :=
  ⟨fun agree => agree (fun _ _ => False) (fun _ _ => False.elim),
    fun uniform _ _ context _ _ alike => uniform context alike⟩

/-- Host rules that do the same whenever their parts do. -/
theorem hosts_of_uniform {χ : Type} {first : Interpretation χ (Engine σ)} {second : Interpretation χ (Engine τ)}
    (uniform : ∀ rule parts parts', List.Forall₂ Uniform parts parts' →
      Uniform (first rule parts) (second rule parts')) : (heedless σ τ).Hosts first second := by
  intro rule parts parts' agree
  exact agree_iff_uniform.mpr (uniform rule parts parts' (agree.imp fun _ _ => agree_iff_uniform.mp))

end Tandem

/-- Whenever the first matcher ends, the second one ends in the same way from every state alike. -/
def Shadows (context : Context) (x : Matcher σ) (y : Matcher τ) : Prop :=
  ∀ ⦃state state' outcome after⦄, State.Alike state state' → x.run context state = some (outcome, after) →
    ∃ after', y.run context state' = some (outcome, after') ∧ State.Alike after after'

/-- Matchers that do the same in states alike shadow each other. -/
theorem Tandem.Uniform.shadows {x : Matcher σ} {y : Matcher τ} (uniform : Uniform x y) (context : Context) :
    Shadows context x y ∧ Shadows context y x := by
  constructor
  · intro state state' outcome after alike ran
    have ended := uniform context alike
    rw [ran] at ended
    generalize y.run context state' = other at ended ⊢
    cases ended with
    | some outcomes alike' =>
      cases outcomes.eq
      exact ⟨_, rfl, alike'⟩
  · intro state state' outcome after alike ran
    have ended := uniform context alike.symm
    rw [ran] at ended
    generalize x.run context state' = other at ended ⊢
    cases ended with
    | some outcomes alike' =>
      cases outcomes.eq
      exact ⟨_, rfl, alike'.symm⟩

/-- The same search for rule stacks, in states alike. -/
structure Explanation.Alike (explanation : Explanation σ) (explanation' : Explanation τ) : Prop where
  ending : explanation'.ending = explanation.ending
  passes : explanation'.passes = explanation.passes
  log : explanation'.log = explanation.log
  state : State.Alike explanation.state explanation'.state

namespace Session

variable {context : Context} {x : Matcher σ} {y : Matcher τ}

/-- Passes of runs start alike from states that have the furthest offset in common. -/
theorem pass_of_shadows (shadows : Shadows context x y) {state : State σ} {state' : State τ}
    (deepest : state'.tracker.deepest = state.tracker.deepest) (running : state.running = true)
    (running' : state'.running = true) {index : Option Int} {outcome : Except Interrupt Bool} {after : State σ}
    (ran : (pass x index).run context state = some (outcome, after)) :
    ∃ after', (pass y index).run context state' = some (outcome, after') ∧ State.Alike after after' := by
  have tracker : state'.tracker.beginPass index = state.tracker.beginPass index := by
    simp only [Tracker.beginPass, deepest]
  have alike : State.Alike
      { state with offset := 0, values := .empty, depth := 0, tracker := state.tracker.beginPass index }
      { state' with offset := 0, values := .empty, depth := 0, tracker := state'.tracker.beginPass index } :=
    ⟨rfl, rfl, tracker, rfl, running, running'⟩
  exact shadows alike ran

private theorem explain_of_shadows (shadows : Shadows context x y) {deepest room : Nat} {found : List RuleStack}
    {state : State σ} {state' : State τ} (alike : State.Alike state state') {explanation : Explanation σ}
    (ran : explain context x deepest room found state = some explanation) :
    ∃ explanation', explain context y deepest room found state' = some explanation' ∧
      Explanation.Alike explanation explanation' := by
  induction room using Nat.strongRecOn generalizing found state state' explanation with
  | ind room ih =>
    have follow {index : Option Int} {outcome : Except Interrupt Bool} {after : State σ}
        (passed : (pass x index).run context state = some (outcome, after)) :=
      pass_of_shadows shadows (congrArg Tracker.deepest alike.tracker) alike.running alike.running' passed
    rw [explain.eq_def] at ran ⊢
    split at ran
    · cases ran
    · obtain ⟨after', passed, alike'⟩ := follow ‹_›
      cases ran
      rw [passed]
      exact ⟨_, rfl, rfl, rfl, rfl, alike'⟩
    · obtain ⟨after', passed, alike'⟩ := follow ‹_›
      cases ran
      rw [passed]
      exact ⟨_, rfl, rfl, rfl, rfl, alike'⟩
    · rename_i path after aborted
      obtain ⟨after', passed, alike'⟩ := follow aborted
      rw [passed]
      split at ran
      · cases ran
        exact ⟨_, rfl, rfl, rfl, rfl, alike'⟩
      · rename_i less
        dsimp only at ran ⊢
        split at ran
        · cases ran
        · rename_i rest explained
          cases ran
          obtain ⟨rest', explained', same⟩ := ih less (Nat.lt_succ_self less) alike' explained
          rw [explained']
          refine ⟨_, rfl, same.ending, ?_, ?_, same.state⟩
          · exact congrArg (· + 1) same.passes
          · exact congrArg (_ :: ·) same.log

private theorem attempt_of_shadows (shadows : Shadows context x y) {shape : Shape} {state : State σ}
    {state' : State τ} (deepest : state'.tracker.deepest = state.tracker.deepest)
    (running : state.running = true) (running' : state'.running = true) {report : Report} {after : State σ}
    (ran : attempt context x shape state = some (report, after)) :
    ∃ after', attempt context y shape state' = some (report, after') ∧ State.Alike after after' := by
  have follow {outcome : Except Interrupt Bool} {after : State σ}
      (passed : (pass x none).run context state = some (outcome, after)) :=
    pass_of_shadows shadows deepest running running' passed
  simp only [attempt] at ran ⊢
  split at ran
  · cases ran
  · obtain ⟨after', passed, alike⟩ := follow ‹_›
    cases ran
    rw [passed]
    exact ⟨after', by simp only [alike.values, alike.offset], alike⟩
  · rename_i failed plain
    obtain ⟨failed', passed, alike⟩ := follow plain
    rw [passed]
    split at ran
    · cases ran
    · rename_i explanation explained
      cases ran
      have frozen : failed'.tracker.deepest = failed.tracker.deepest := by rw [alike.tracker]
      obtain ⟨explanation', explained', same⟩ := explain_of_shadows shadows alike explained
      dsimp only
      rw [frozen, explained']
      exact ⟨_, by simp only [same.ending, same.passes, same.log], same.state⟩
  · obtain ⟨after', passed, alike⟩ := follow ‹_›
    cases ran
    rw [passed]
    exact ⟨after', rfl, alike⟩
  · obtain ⟨after', passed, alike⟩ := follow ‹_›
    cases ran
    rw [passed]
    exact ⟨after', rfl, alike⟩

/-- What a run reports depends on the text and the limits only, and so does what it leaves behind, but for the memory
of host rules. -/
theorem run_of_shadows {session : Session σ} {session' : Session τ}
    (shadows : Shadows session.context x y) (context : session'.context = session.context)
    (idle : session.running = false) (idle' : session'.running = false) {shape : Shape} {report : Report}
    {next : Session σ} (ran : session.run x shape = some (report, next)) :
    ∃ next', session'.run y shape = some (report, next') ∧ next'.context = next.context ∧
      next'.state.bare = next.state.bare := by
  rw [run, if_neg (by rw [idle]; decide)] at ran
  rw [run, if_neg (by rw [idle']; decide)]
  split at ran
  · cases ran
  · rename_i after attempted
    cases ran
    have forgotten : session'.state.startRun.tracker.deepest = session.state.startRun.tracker.deepest := rfl
    obtain ⟨after', attempted', alike⟩ := attempt_of_shadows shadows forgotten rfl rfl attempted
    rw [context, attempted']
    refine ⟨_, rfl, rfl, ?_⟩
    simp only [State.bare, State.endRun, alike.offset, alike.values, alike.tracker, alike.depth]

end Session

end PegMatcher
